import Nl2SqlAgent.SchemaContext
import Nl2SqlAgent.TaskLifecycle

/-! The whitelist of databases in a user's policy, from the check of a submit to the
runs of the worker. The check reads `db_id`; the message carries `database_url` as well,
and that is what the run connects to. The expansion of foreign keys goes to the default
database where it is given no URL. -/
namespace Nl2SqlAgent

open Lib

namespace DatabaseWhitelist

open AgentGraph (Config Visit machine fullStart)
open TaskLifecycle (Submission payload)

/-- `list_databases`: the ids with their connections. -/
abbrev Registry := List (String × String)

def Listed (registry : Registry) (policy : GatewaySubmit.Policy) (url : String) : Prop :=
  ∃ id ∈ policy.allowedDbIds, (id, url) ∈ registry

instance (registry : Registry) (policy : GatewaySubmit.Policy) (url : String) :
    Decidable (Listed registry policy url) :=
  inferInstanceAs (Decidable (∃ id ∈ policy.allowedDbIds, (id, url) ∈ registry))

/-- The two fields name no database, or one that the policy lists. -/
structure Permits (registry : Registry) (policy : GatewaySubmit.Policy)
    (dbId databaseUrl : Option String) : Prop where
  id : dbId.getD "" = "" ∨ dbId.getD "" ∈ policy.allowedDbIds
  url : databaseUrl.getD "" = "" ∨ Listed registry policy (databaseUrl.getD "")

structure Request where
  submission : Submission
  ragColumnPrune : Option Bool := none
  ragFkExpand : Option Bool := none

/-- What a visit of the schema step gets from its surroundings. -/
structure Retrieved where
  chunks : List SchemaContext.Chunk
  schemaText : String := ""
  samples : String → String := fun _ => ""
  score : String → String → Nat := fun _ _ => 0

/-- What `schema_retriever_node` works on; a run of the worker does not skip the schema. -/
def asked (req : Request) (got : Retrieved) (s : AgentState) : SchemaContext.Request where
  databaseUrl := s.databaseUrl
  ragColumnPrune := req.ragColumnPrune.getD false
  complexity := s.complexity.getD "simple"
  ragFkExpand := req.ragFkExpand.getD true
  skipSchema := false
  schemaText := got.schemaText
  ragChunks := if s.ragSchema.getD true || s.ragDomain.getD true then got.chunks else []
  score := got.score

def own (s : AgentState) : List String := (s.databaseUrl.filter (· ≠ "")).toList

def performed (env : Env) (c : Config) : Visit → List Execution
  | .voter executions ballot => ((Voter.node env executions ballot c.state).map Prod.snd).getD []
  | _ => []

variable {rt : FkGraph.Runtime} {dbs : FkGraph.Databases} {registry : Registry}
  {policy : GatewaySubmit.Policy} {req : Request} {env : Env}

structure Kept (req : Request) (s : AgentState) : Prop where
  databaseUrl : s.databaseUrl = some (req.submission.databaseUrl.getD "")
  dbId : s.dbId = some (req.submission.dbId.getD "")
  ragSchema : s.ragSchema = some (req.submission.ragSchema.getD true)
  ragDomain : s.ragDomain = some (req.submission.ragDomain.getD true)

theorem flags_step {c c' : Config} {v : Visit} (stepped : AgentGraph.Stepped env c v c') :
    c'.state.ragSchema = c.state.ragSchema ∧ c'.state.ragDomain = c.state.ragDomain := by
  cases stepped with
  | upstream _ n t _ _ frame =>
    obtain ⟨_, _, _, _, _, _, _, rfl⟩ := frame
    exact ⟨rfl, rfl⟩
  | generator reply t _ visited =>
    obtain ⟨_, _, _, _, _, rfl⟩ := visited.frame
    exact ⟨rfl, rfl⟩
  | guard t _ visited =>
    obtain ⟨_, _, _, _, rfl⟩ := visited.frame
    exact ⟨rfl, rfl⟩
  | voter executions ballot performed t _ visit =>
    obtain ⟨sql, result, rfl, -⟩ := Voter.node_reported visit
    exact ⟨rfl, rfl⟩
  | semanticCheck reply t _ visited =>
    obtain ⟨_, _, _, _, _, _, _, rfl⟩ := visited.frame
    exact ⟨rfl, rfl⟩
  | refiner expansion t _ visited =>
    obtain ⟨_, _, _, _, _, _, rfl⟩ := visited.frame
    exact ⟨rfl, rfl⟩
  | postRefiner => exact ⟨rfl, rfl⟩

theorem run_kept {visits : List Visit} {c : Config}
    (run : (machine env).exec (fullStart (payload req.submission)) visits = some c) :
    Kept req c.state := by
  refine Machine.invariant (fun c => Kept req c.state) ?_ ⟨rfl, rfl, rfl, rfl⟩ run
  intro c v c' kept stepped
  obtain ⟨url, dbId⟩ := AgentGraph.address_step (AgentGraph.step_stepped stepped)
  obtain ⟨schema, domain⟩ := flags_step (AgentGraph.step_stepped stepped)
  exact ⟨url.trans kept.databaseUrl, dbId.trans kept.dbId, schema.trans kept.ragSchema,
    domain.trans kept.ragDomain⟩

def connections : Registry :=
  [("imdb", "sqlite:///imdb.sqlite"), ("payroll", "sqlite:///payroll.sqlite")]

def fitting : Request where
  submission :=
    { question := "How many films?", dbId := some "imdb",
      databaseUrl := some "sqlite:///imdb.sqlite" }

def unnamed : Request where
  submission := { question := "How many films?", dbId := some "imdb" }

end DatabaseWhitelist
end Nl2SqlAgent

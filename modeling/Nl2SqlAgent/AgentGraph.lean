import Nl2SqlAgent.Lib.Machine
import Nl2SqlAgent.Generator
import Nl2SqlAgent.Checks
import Nl2SqlAgent.Voter
import Nl2SqlAgent.Refiner

/-! `agent/graphs/full_graph.py` and `feedback_graph.py`: one machine with two
entries, a visit of a node being one event. An event carries what the LLM, the
retrieval and the executions of that visit give; a visit that raises is no step.
Latencies, the trace logger and the retriever's own options are left out. -/
namespace Nl2SqlAgent

open Lib

namespace AgentGraph

inductive Node where
  | router
  | schemaRetriever
  | decomposer
  | fewshotSelector
  | generator
  | guard
  | voter
  | semanticCheck
  | refiner
  | postRefiner
  | finish
  deriving DecidableEq, Repr

inductive Visit where
  | router (complexity : String) (usage : TokenUsage)
  | schemaRetriever (schemaText notesText sampleRowsText : String)
  | decomposer (steps : List String) (usage : TokenUsage)
  | fewshotSelector (retrieved : String)
  | generator (reply : Nat → Option Reply)
  | guard
  | voter (executions : List Execution) (ballot : Voter.Ballot)
  | semanticCheck (reply : Except String SemanticCheck.Reply)
  | refiner (expansion : Option Refiner.Expansion)
  | postRefiner

/-- A run between two visits. `attempt` lists the executions since the last
generation; the code does not keep it. -/
structure Config where
  node : Node
  state : AgentState
  attempt : List Execution
  deriving DecidableEq, Repr

/-- `router_node` after its scoring and its LLM gate. -/
def router (complexity : String) (usage : TokenUsage) (s : AgentState) : AgentState :=
  { s with
    complexity := some complexity
    tokenUsage := some ((s.tokenUsage.getD .zero).add usage) }

/-- `schema_retriever_node`: retrieval needs a `db_id`. -/
def schemaRetriever (schemaText notesText sampleRowsText : String) (s : AgentState) :
    Option AgentState :=
  if (s.ragSchema.getD true || s.ragDomain.getD true) && !Py.truthy s.dbId then none
  else some { s with
    schemaText := some schemaText
    notesText := some notesText
    sampleRowsText := some sampleRowsText }

/-- `decomposer_node`: a single step is no decomposition. -/
def decomposer (steps : List String) (usage : TokenUsage) (s : AgentState) : AgentState :=
  { s with
    subQuestions := some (if steps.length = 1 then [] else steps)
    tokenUsage := some ((s.tokenUsage.getD .zero).add usage) }

/-- `fewshot_selector_node`. -/
def fewshotSelector (retrieved : String) (s : AgentState) : AgentState :=
  { s with fewshotText := some (if s.fewshotEnabled.getD false then retrieved else "") }

def afterRefiner (s : AgentState) : AgentState :=
  { s with retryCount := some (s.retryCount.getD 0 + 1) }

def routeAfterSchema (s : AgentState) : Node :=
  if s.complexity = some "complex" ∧ s.decomposerEnabled.getD false then .decomposer
  else .fewshotSelector

def routeAfterGuard (s : AgentState) : Node := if s.guardPass.getD false then .voter else .refiner

def routeAfterVoter (s : AgentState) : Node :=
  if (s.execResult.map (·.success)).getD false then .semanticCheck else .refiner

def routeAfterSemantic (s : AgentState) : Node :=
  if s.semanticPass.getD true then .finish else .refiner

def routeAfterRefiner (s : AgentState) : Node :=
  if s.maxRetries.getD 2 < s.retryCount.getD 0 then .finish else .generator

/-- One visit of the node the run stands at, and the edge taken from it. -/
def step (env : Env) (c : Config) : Visit → Option Config
  | .router complexity usage =>
    if c.node = .router then
      some ⟨.schemaRetriever, router complexity usage c.state, c.attempt⟩
    else none
  | .schemaRetriever schemaText notesText sampleRowsText =>
    if c.node = .schemaRetriever then
      (schemaRetriever schemaText notesText sampleRowsText c.state).map fun t =>
        ⟨routeAfterSchema t, t, c.attempt⟩
    else none
  | .decomposer steps usage =>
    if c.node = .decomposer then
      some ⟨.fewshotSelector, decomposer steps usage c.state, c.attempt⟩
    else none
  | .fewshotSelector retrieved =>
    if c.node = .fewshotSelector then
      some ⟨.generator, fewshotSelector retrieved c.state, c.attempt⟩
    else none
  | .generator reply =>
    if c.node = .generator then
      (Generator.node env reply c.state).map fun t => ⟨.guard, t, []⟩
    else none
  | .guard =>
    if c.node = .guard then
      (Guard.node env c.state).map fun t => ⟨routeAfterGuard t, t, c.attempt⟩
    else none
  | .voter executions ballot =>
    if c.node = .voter then
      (Voter.node env executions ballot c.state).map fun (t, performed) =>
        ⟨routeAfterVoter t, t, c.attempt ++ performed⟩
    else none
  | .semanticCheck reply =>
    if c.node = .semanticCheck then
      let t := SemanticCheck.node env reply c.state
      some ⟨routeAfterSemantic t, t, c.attempt⟩
    else none
  | .refiner expansion =>
    if c.node = .refiner then
      (Refiner.node env expansion c.state).map fun t => ⟨.postRefiner, t, c.attempt⟩
    else none
  | .postRefiner =>
    if c.node = .postRefiner then
      let t := afterRefiner c.state
      some ⟨routeAfterRefiner t, t, c.attempt⟩
    else none

def machine (env : Env) : Machine Config Visit := ⟨step env⟩

/-- What the callers of the full graph put into its state. -/
structure FullInput where
  question : String
  dbId : Option String := none
  databaseUrl : Option String := none
  ragSchema : Option Bool := none
  ragDomain : Option Bool := none
  ragK : Option Nat := none
  fewshotEnabled : Option Bool := none
  decomposerEnabled : Option Bool := none
  maxRetries : Option Int := none
  deriving DecidableEq, Repr

def fullStart (i : FullInput) : Config :=
  ⟨.router,
    { question := i.question
      dbId := i.dbId
      databaseUrl := i.databaseUrl
      ragSchema := i.ragSchema
      ragDomain := i.ragDomain
      ragK := i.ragK
      fewshotEnabled := i.fewshotEnabled
      decomposerEnabled := i.decomposerEnabled
      maxRetries := i.maxRetries },
    []⟩

/-- What the callers of the feedback graph put into its state: the finished task's
context, its SQL also as `last_sql`, and the user's guidance. -/
structure FeedbackInput where
  question : String
  dbId : Option String := none
  databaseUrl : Option String := none
  schemaText : String := ""
  notesText : String := ""
  fewshotText : String := ""
  sql : Option String := none
  execResult : Option ExecResult := none
  userFeedback : String := ""
  conversationTurns : List ConversationTurn := []
  ragSchema : Option Bool := none
  ragDomain : Option Bool := none
  ragK : Option Nat := none
  fewshotEnabled : Option Bool := none
  maxRetries : Int := 2
  deriving DecidableEq, Repr

def feedbackStart (i : FeedbackInput) : Config :=
  ⟨.refiner,
    { question := i.question
      dbId := i.dbId
      databaseUrl := i.databaseUrl
      schemaText := some i.schemaText
      notesText := some i.notesText
      fewshotText := some i.fewshotText
      sql := i.sql
      lastSql := some i.sql
      execResult := i.execResult
      userFeedback := some i.userFeedback
      conversationTurns := some i.conversationTurns
      ragSchema := i.ragSchema
      ragDomain := i.ragDomain
      ragK := i.ragK
      fewshotEnabled := i.fewshotEnabled
      retryCount := some 0
      maxRetries := some i.maxRetries },
    []⟩

/-- The two graphs' runs start here. -/
inductive Start : Config → Prop where
  | full (i : FullInput) : Start (fullStart i)
  | feedback (i : FeedbackInput) : Start (feedbackStart i)

/-- Everything a step can be: the nodes before the first generation keep the keys of
the retry loop, and each node of the loop does what its own lemma says. -/
inductive Stepped (env : Env) (c : Config) : Visit → Config → Prop where
  | upstream (visit : Visit) (n : Node) (t : AgentState)
      (from_upstream : c.node ∈ [.router, .schemaRetriever, .decomposer, .fewshotSelector])
      (to_upstream : n ∈ [.schemaRetriever, .decomposer, .fewshotSelector, .generator])
      (frame : ∃ complexity schema notes samples fewshot questions usage, t = { c.state with
        complexity := complexity, schemaText := schema, notesText := notes,
        sampleRowsText := samples, fewshotText := fewshot, subQuestions := questions,
        tokenUsage := usage }) :
      Stepped env c visit ⟨n, t, c.attempt⟩
  | generator (reply : Nat → Option Reply) (t : AgentState) (here : c.node = .generator)
      (visited : Generator.Visited c.state t) : Stepped env c (.generator reply) ⟨.guard, t, []⟩
  | guard (t : AgentState) (here : c.node = .guard) (visited : Guard.Visited env c.state t) :
      Stepped env c .guard ⟨routeAfterGuard t, t, c.attempt⟩
  | voter (executions : List Execution) (ballot : Voter.Ballot) (performed : List Execution)
      (t : AgentState) (here : c.node = .voter)
      (visit : Voter.node env executions ballot c.state = some (t, performed)) :
      Stepped env c (.voter executions ballot) ⟨.semanticCheck, t, c.attempt ++ performed⟩
  | semanticCheck (reply : Except String SemanticCheck.Reply) (t : AgentState)
      (here : c.node = .semanticCheck) (visited : SemanticCheck.Visited c.state t) :
      Stepped env c (.semanticCheck reply) ⟨routeAfterSemantic t, t, c.attempt⟩
  | refiner (expansion : Option Refiner.Expansion) (t : AgentState) (here : c.node = .refiner)
      (visited : Refiner.Visited c.state t) :
      Stepped env c (.refiner expansion) ⟨.postRefiner, t, c.attempt⟩
  | postRefiner (here : c.node = .postRefiner) :
      Stepped env c .postRefiner
        ⟨routeAfterRefiner (afterRefiner c.state), afterRefiner c.state, c.attempt⟩

theorem routeAfterVoter_visited
    (visit : Voter.node env executions ballot s = some (t, performed)) :
    routeAfterVoter t = .semanticCheck := by
  obtain ⟨sql, result, rfl, reported, -, -⟩ := Voter.node_reported visit
  simp [routeAfterVoter, Voter.reported_success reported]

theorem routeAfterSchema_mem (s : AgentState) :
    routeAfterSchema s ∈ [Node.schemaRetriever, .decomposer, .fewshotSelector, .generator] := by
  unfold routeAfterSchema
  split <;> simp

theorem step_stepped (stepped : step env c visit = some c') : Stepped env c visit c' := by
  cases visit with
  | router complexity usage =>
    simp only [step] at stepped
    obtain ⟨here, taken⟩ := Option.ite_none_right_eq_some.mp stepped
    obtain rfl := Option.some.inj taken
    exact .upstream _ _ _ (by simp [here]) (by simp) ⟨_, _, _, _, _, _, _, rfl⟩
  | schemaRetriever schemaText notesText sampleRowsText =>
    simp only [step] at stepped
    obtain ⟨here, taken⟩ := Option.ite_none_right_eq_some.mp stepped
    obtain ⟨t, visited, rfl⟩ := Option.map_eq_some_iff.mp taken
    simp only [schemaRetriever] at visited
    obtain ⟨-, same⟩ := Option.ite_none_left_eq_some.mp visited
    obtain rfl := Option.some.inj same
    exact .upstream _ _ _ (by simp [here]) (routeAfterSchema_mem _) ⟨_, _, _, _, _, _, _, rfl⟩
  | decomposer steps usage =>
    simp only [step] at stepped
    obtain ⟨here, taken⟩ := Option.ite_none_right_eq_some.mp stepped
    obtain rfl := Option.some.inj taken
    exact .upstream _ _ _ (by simp [here]) (by simp) ⟨_, _, _, _, _, _, _, rfl⟩
  | fewshotSelector retrieved =>
    simp only [step] at stepped
    obtain ⟨here, taken⟩ := Option.ite_none_right_eq_some.mp stepped
    obtain rfl := Option.some.inj taken
    exact .upstream _ _ _ (by simp [here]) (by simp) ⟨_, _, _, _, _, _, _, rfl⟩
  | generator reply =>
    simp only [step] at stepped
    obtain ⟨here, taken⟩ := Option.ite_none_right_eq_some.mp stepped
    obtain ⟨t, visited, rfl⟩ := Option.map_eq_some_iff.mp taken
    exact .generator reply t here (Generator.node_visited env reply visited)
  | guard =>
    simp only [step] at stepped
    obtain ⟨here, taken⟩ := Option.ite_none_right_eq_some.mp stepped
    obtain ⟨t, visited, rfl⟩ := Option.map_eq_some_iff.mp taken
    exact .guard t here (Guard.node_visited visited)
  | voter executions ballot =>
    simp only [step] at stepped
    obtain ⟨here, taken⟩ := Option.ite_none_right_eq_some.mp stepped
    obtain ⟨⟨t, performed⟩, visited, rfl⟩ := Option.map_eq_some_iff.mp taken
    rw [routeAfterVoter_visited visited]
    exact .voter executions ballot performed t here visited
  | semanticCheck reply =>
    simp only [step] at stepped
    obtain ⟨here, taken⟩ := Option.ite_none_right_eq_some.mp stepped
    obtain rfl := Option.some.inj taken
    exact .semanticCheck reply _ here (SemanticCheck.node_visited env reply c.state)
  | refiner expansion =>
    simp only [step] at stepped
    obtain ⟨here, taken⟩ := Option.ite_none_right_eq_some.mp stepped
    obtain ⟨t, visited, rfl⟩ := Option.map_eq_some_iff.mp taken
    exact .refiner expansion t here (Refiner.node_visited env expansion visited)
  | postRefiner =>
    simp only [step] at stepped
    obtain ⟨here, taken⟩ := Option.ite_none_right_eq_some.mp stepped
    obtain rfl := Option.some.inj taken
    exact .postRefiner here

/-- An invariant of the machine's steps holds wherever a run gets. -/
theorem invariant (property : Config → Prop) (initial : ∀ c, Start c → property c)
    (preserved : ∀ c visit c', property c → Stepped env c visit c' → property c')
    (start : Start c₀) (run : (machine env).exec c₀ visits = some c) : property c :=
  Machine.invariant property (fun c visit c' keep stepped =>
    preserved c visit c' keep (step_stepped stepped)) (initial c₀ start) run

end AgentGraph
end Nl2SqlAgent

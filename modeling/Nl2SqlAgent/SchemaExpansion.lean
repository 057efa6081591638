import Nl2SqlAgent.Correction

/-! The refiner's expanded retrieval (`retrieval/rag_retrieve.py`, `refiner_node`): which
tables the schema text still names after it, and how often it happens. -/
namespace Nl2SqlAgent

open Lib

namespace SchemaExpansion

/-- What `build_prompt_context` reads of a chunk; the metadata may be no dictionary. -/
structure Chunk where
  content : String
  metadata : Option (Option String × Option String)
  deriving DecidableEq, Repr

def chunkType (c : Chunk) : String := (c.metadata.bind (·.1)).getD "domain"

def heading (c : Chunk) : String := (c.metadata.bind (·.2)).getD ""

def schemaParts (chunks : List Chunk) : List String :=
  (chunks.filter fun c => chunkType c = "schema").map (·.content)

def notesParts (chunks : List Chunk) : List String :=
  (chunks.filter fun c => chunkType c ≠ "schema").map fun c =>
    if heading c ≠ "" then "## " ++ heading c ++ "\n" ++ c.content else c.content

/-- `build_prompt_context`: the schema text and the notes text. -/
def buildPromptContext (chunks : List Chunk) : String × String :=
  (Py.join "\n\n" (schemaParts chunks), Py.join "\n\n" (notesParts chunks))

structure TableInfo where
  actualName : String
  columns : List String
  deriving DecidableEq, Repr

def catalogLine (t : TableInfo) : String :=
  "  " ++ t.actualName ++ "(" ++ Py.join ", " t.columns ++ ")"

/-- `_build_expanded_catalog`, of the database's cached schema. -/
def buildExpandedCatalog (databaseUrl : Option String) (info : List TableInfo) : String :=
  if Py.truthy databaseUrl then "Tables:\n" ++ Py.join "\n" (info.map catalogLine) else ""

/-- What the expanded retrieval finds, and the schema of the database. -/
structure Retrieval where
  chunks : List Chunk
  info : List TableInfo
  deriving DecidableEq, Repr

def Retrieval.schemaText (r : Retrieval) : String := (buildPromptContext r.chunks).1

def Retrieval.expansion (r : Retrieval) (databaseUrl : Option String) : Refiner.Expansion where
  schemaText := r.schemaText
  notesText := (buildPromptContext r.chunks).2
  catalog := buildExpandedCatalog databaseUrl r.info

structure TableName where
  text : String
  oneLine : '\n' ∉ text.toList

def Mentions (text : String) (table : TableName) : Prop := Py.contains table.text text = true

instance : Decidable (Mentions text table) := inferInstanceAs (Decidable (_ = true))

/-- No table is lost, and without schema retrieval the schema stays as it was. -/
def KeepsSchema (tables : List TableName) (s t : AgentState) : Prop :=
  (∀ table ∈ tables, Mentions (s.schemaText.getD "") table → Mentions (t.schemaText.getD "") table) ∧
    (s.ragSchema.getD true = false → t.schemaText.getD "" = s.schemaText.getD "")

def expandsAt (env : Env) (s : AgentState) : Bool :=
  ((env.classifyExecError ((Refiner.execError s).getD "")).map (Refiner.expands · s)).getD false

/-- What was retrieved covers the schema text: with schema retrieval every table is in a
retrieved schema chunk or, when there is one, in the catalogue, and without it the chunks
give back the same text. -/
def Covers (r : Retrieval) (tables : List TableName) (s : AgentState) : Prop :=
  if s.ragSchema.getD true then
    ∀ table ∈ tables, Mentions (s.schemaText.getD "") table → Mentions r.schemaText table ∨
      (r.schemaText ≠ "" ∧ Mentions (buildExpandedCatalog s.databaseUrl r.info) table)
  else r.schemaText = s.schemaText.getD ""

instance : Decidable (Covers r tables s) := by
  unfold Covers
  infer_instance

theorem mentions_appended {a b : String} {table : TableName} :
    Mentions (a ++ "\n\n" ++ b) table ↔ Mentions a table ∨ Mentions b table := by
  have gap : (a ++ "\n\n" ++ b).toList = a.toList ++ '\n' :: ([] ++ '\n' :: b.toList) := by
    simp [String.toList_append]
  simp only [Mentions, Py.contains, decide_eq_true_eq, gap, Py.infix_separated table.oneLine,
    List.infix_nil]
  constructor
  · rintro (found | empty | found)
    · exact .inl found
    · exact .inl (empty ▸ List.nil_infix)
    · exact .inr found
  · rintro (found | found)
    · exact .inl found
    · exact .inr (.inr found)

/-- What a visit does to the schema text and to its mark of an expansion. -/
theorem node_expansion (visit : Refiner.node env expansion s = some t) :
    if expandsAt env s then
      ∃ x, expansion = some x ∧ t.schemaText = (Refiner.expand x s).schemaText ∧
        s.ragKExpanded = none ∧ t.ragKExpanded.isSome = true
    else t.schemaText = s.schemaText ∧ t.ragKExpanded = s.ragKExpanded := by
  simp only [Refiner.node, Option.bind_eq_bind, Option.bind_eq_some_iff] at visit
  obtain ⟨sql, -, hint, classified, widened, found, same⟩ := visit
  obtain rfl := Option.some.inj same
  have expands : expandsAt env s = Refiner.expands hint s := by simp [expandsAt, classified]
  rw [expands]
  unfold Refiner.widen at found
  split at found
  next expanded =>
    obtain ⟨x, given, rfl⟩ := Option.map_eq_some_iff.mp found
    have first : s.ragKExpanded = none := by
      simp only [Refiner.expands, Bool.and_eq_true, Option.isNone_iff_eq_none] at expanded
      exact expanded.2
    rw [if_pos expanded]
    exact ⟨x, given, rfl, first, rfl⟩
  next kept =>
    obtain rfl := Option.some.inj found
    rw [if_neg kept]
    exact ⟨rfl, rfl⟩

/-- An expansion keeps the schema exactly when what was retrieved covers it. -/
theorem expand_keeps_iff (r : Retrieval) (tables : List TableName) {s t : AgentState}
    (expanded : t.schemaText = (Refiner.expand (r.expansion s.databaseUrl) s).schemaText) :
    KeepsSchema tables s t ↔ Covers r tables s := by
  simp only [KeepsSchema, Covers, expanded, Refiner.expand, Retrieval.expansion, Option.getD_some]
  cases on : s.ragSchema.getD true with
  | true =>
    by_cases nothing : r.schemaText = ""
    · simp [nothing]
    · simp only [nothing, ne_eq, not_false_eq_true, and_self, if_true, true_and, mentions_appended,
        Bool.true_eq_false, false_implies, and_true]
  | false =>
    simp only [Bool.false_eq_true, false_and, if_false, forall_const]
    constructor
    · exact fun kept => kept.2
    · intro same
      refine ⟨fun table _ mentioned => ?_, same⟩
      rwa [same]

theorem catalog_mentions {databaseUrl : Option String} {info : List TableInfo} {table : TableName}
    (url : Py.truthy databaseUrl = true) (listed : table.text ∈ info.map (·.actualName)) :
    Mentions (buildExpandedCatalog databaseUrl info) table := by
  obtain ⟨t, member, named⟩ := List.mem_map.mp listed
  have line : table.text.toList <:+: (catalogLine t).toList := by
    simp only [catalogLine, String.toList_append, List.append_assoc, ← named]
    exact List.infix_append_of_infix_right List.infix_append_left
  have joined := Py.infix_join "\n" (List.mem_map_of_mem (f := catalogLine) member)
  simp only [Mentions, Py.contains, decide_eq_true_eq, buildExpandedCatalog, url, if_true,
    String.toList_append]
  exact (line.trans joined).trans List.infix_append_right

theorem covers_of_database {r : Retrieval} {tables : List TableName} {s : AgentState}
    (retrieves : s.ragSchema.getD true = true) (found : r.schemaText ≠ "")
    (url : Py.truthy s.databaseUrl = true)
    (known : ∀ table ∈ tables, table.text ∈ r.info.map (·.actualName)) : Covers r tables s := by
  unfold Covers
  rw [if_pos retrieves]
  exact fun table member _ => .inr ⟨found, catalog_mentions url (known table member)⟩

def expandsIn (env : Env) (c : AgentGraph.Config) : AgentGraph.Visit → Bool
  | .refiner _ => expandsAt env c.state
  | _ => false

/-- How often the visits of a run expand the retrieval. -/
def expansions (env : Env) : AgentGraph.Config → List AgentGraph.Visit → Nat
  | _, [] => 0
  | c, visit :: rest =>
    match (AgentGraph.machine env).step c visit with
    | some next => (expandsIn env c visit).toNat + expansions env next rest
    | none => 0

/-- Only a refiner visit expands, where no mark is set yet, and then sets it. -/
theorem step_marks (stepped : (AgentGraph.machine env).step c visit = some c') :
    (expandsIn env c visit).toNat + c.state.ragKExpanded.isSome.toNat ≤
      c'.state.ragKExpanded.isSome.toNat := by
  have here (expansion : Option Refiner.Expansion) (same : visit = .refiner expansion) :
      c.node = .refiner := by
    subst same
    exact (Option.ite_none_right_eq_some.mp stepped).1
  cases AgentGraph.step_stepped stepped with
  | upstream visit n t fromUpstream _ frame =>
    obtain ⟨_, _, _, _, _, _, _, rfl⟩ := frame
    have quiet : expandsIn env c visit = false := by
      cases visit with
      | refiner expansion =>
        rw [here expansion rfl] at fromUpstream
        exact absurd fromUpstream (by decide)
      | _ => rfl
    simp [quiet]
  | generator reply t _ visited =>
    obtain ⟨_, _, _, _, _, rfl⟩ := visited.frame
    simp [expandsIn]
  | guard t _ visited =>
    obtain ⟨_, _, _, _, rfl⟩ := visited.frame
    simp [expandsIn]
  | voter executions ballot performed t _ visit =>
    obtain ⟨_, _, rfl, -⟩ := Voter.node_reported visit
    simp [expandsIn]
  | semanticCheck reply t _ visited =>
    obtain ⟨_, _, _, _, _, _, _, rfl⟩ := visited.frame
    simp [expandsIn]
  | refiner expansion t _ _ =>
    obtain ⟨-, taken⟩ := Option.ite_none_right_eq_some.mp stepped
    obtain ⟨t', visit, same⟩ := Option.map_eq_some_iff.mp taken
    obtain rfl : t' = t := congrArg AgentGraph.Config.state same
    have marks := node_expansion visit
    split at marks
    next expands =>
      obtain ⟨-, -, -, unmarked, marked⟩ := marks
      simp [expandsIn, expands, unmarked, marked]
    next kept => simp [expandsIn, kept, marks.2]
  | postRefiner _ => simp [expandsIn, AgentGraph.afterRefiner]

/-- The mark of an expansion stays, so that no second one follows. -/
theorem expansions_le (env : Env) (c : AgentGraph.Config) (visits : List AgentGraph.Visit) :
    expansions env c visits + c.state.ragKExpanded.isSome.toNat ≤ 1 := by
  induction visits generalizing c with
  | nil =>
    have bit := Bool.toNat_le c.state.ragKExpanded.isSome
    simpa [expansions] using bit
  | cons visit rest ih =>
    have bit := Bool.toNat_le c.state.ragKExpanded.isSome
    unfold expansions
    split
    next next stepped =>
      have here := step_marks stepped
      have later := ih next
      omega
    next => omega

/-- Whatever the expanded retrieval finds, a refiner visit keeps the schema exactly when it
does not expand or what it finds covers the schema, and a run expands at most once. -/
theorem schema_kept_iff (env : Env) (r : Retrieval) (tables : List TableName) (s t : AgentState)
    (visit : Refiner.node env (some (r.expansion s.databaseUrl)) s = some t) :
    (KeepsSchema tables s t ↔ expandsAt env s = false ∨ Covers r tables s) ∧
      ∀ c visits, expansions env c visits ≤ 1 := by
  refine ⟨?_, fun c visits => (Nat.le_add_right _ _).trans (expansions_le env c visits)⟩
  have found := node_expansion visit
  cases expands : expandsAt env s with
  | true =>
    rw [if_pos expands] at found
    obtain ⟨x, given, expanded, -, -⟩ := found
    obtain rfl := Option.some.inj given
    simpa using expand_keeps_iff r tables expanded
  | false =>
    rw [if_neg (by simp [expands])] at found
    simp [KeepsSchema, found.1]

def orders : TableName := ⟨"orders", by decide⟩

def refusedState : AgentState :=
  { question := "How many orders?"
    dbId := some "shop"
    databaseUrl := some "sqlite:///shop.db"
    schemaText := some "CREATE TABLE orders(id)"
    lastSql := some (some "SELECT 1")
    semanticFeedback := some "it counts nothing" }

theorem schema_kept_by_chunk :
    let r : Retrieval := ⟨[⟨"CREATE TABLE clients(id)", some (some "schema", none)⟩],
      [⟨"orders", ["id"]⟩, ⟨"clients", ["id"]⟩]⟩
    ∃ t, Refiner.node .plain (some (r.expansion refusedState.databaseUrl)) refusedState = some t ∧
      KeepsSchema [orders] refusedState t := by
  intro r
  have visited : (Refiner.node .plain (some (r.expansion refusedState.databaseUrl))
      refusedState).isSome = true := by decide
  obtain ⟨t, visit⟩ := Option.isSome_iff_exists.mp visited
  refine ⟨t, visit, (schema_kept_iff .plain r [orders] refusedState t visit).1.mpr (.inr ?_)⟩
  apply covers_of_database rfl (by decide) (by decide)
  simp [orders, r]

/-- After a refusal the expanded retrieval finds no schema chunk, and the schema text that
named the table is replaced by an empty one. -/
theorem schema_lost :
    ∃ c t, (AgentGraph.machine .plain).exec (AgentGraph.fullStart AgentGraph.shopInput)
        AgentGraph.refusedVisits = some c ∧ c.node = .refiner ∧
      Refiner.node .plain (some (Retrieval.expansion ⟨[], [⟨"orders", ["id"]⟩]⟩ c.state.databaseUrl))
        c.state = some t ∧ t.schemaText = some "" ∧ ¬ KeepsSchema [orders] c.state t := by
  have ends : ((AgentGraph.machine .plain).exec (AgentGraph.fullStart AgentGraph.shopInput)
      AgentGraph.refusedVisits).any (fun c => c.node = .refiner ∧
        Mentions (c.state.schemaText.getD "") orders ∧
        (Refiner.node .plain (some (Retrieval.expansion ⟨[], [⟨"orders", ["id"]⟩]⟩
          c.state.databaseUrl)) c.state).any (fun t => t.schemaText = some "")) = true := by decide
  obtain ⟨c, run, facts⟩ := (Option.any_eq_true _ _).mp ends
  obtain ⟨here, mentioned, visited⟩ := of_decide_eq_true facts
  obtain ⟨t, visit, lost⟩ := (Option.any_eq_true _ _).mp visited
  have empty := of_decide_eq_true lost
  refine ⟨c, t, run, here, visit, empty, fun kept => ?_⟩
  have still := kept.1 orders List.mem_cons_self mentioned
  rw [empty] at still
  exact absurd still (by decide)

end SchemaExpansion
end Nl2SqlAgent

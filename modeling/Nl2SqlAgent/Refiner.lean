import Nl2SqlAgent.AgentState

/-! `agent/nodes/refiner.py`: the correction text for the next generation. The
retrieved chunks themselves, which no node reads back, are left out. -/
namespace Nl2SqlAgent

open Lib

namespace Refiner

/-- What the expanded retrieval gives; a missing one is an exception. -/
structure Expansion where
  schemaText : String
  notesText : String
  /-- `_build_expanded_catalog(database_url)`. -/
  catalog : String
  deriving DecidableEq, Repr

/-- `", ".join(str(v)[:width] for v in row[:n])` for each of the first rows. -/
def preview (env : Env) (rows columns width : Nat) (data : List Row) : String :=
  Py.join " | " ((data.take rows).map fun row =>
    Py.join ", " ((row.take columns).map fun v => Py.take width (env.showValue v)))

def failedSql (sql : String) : List String := ["\n## FAILED SQL — DO NOT REPEAT", Py.take 600 sql]

def formatSemanticFeedback (env : Env) (feedback sql : String) (result : Option ExecResult) :
    String :=
  let columns := (result.bind (·.columns)).getD []
  let data := (result.bind (·.data)).getD []
  let context :=
    if columns = [] then [] else
      ["Returned " ++ toString ((result.map (·.rowCount)).getD 0) ++ " rows, columns: " ++
        Py.join ", " (columns.take 8)] ++
      (if data = [] then [] else ["Preview: " ++ preview env 3 5 20 data])
  Py.join "\n" (
    ["## CORRECTION FEEDBACK", "Type: Semantic error", "Error: " ++ feedback,
      "Fix: Revise the SQL to correctly answer the user question. The syntax is valid but the " ++
        "query logic or returned data is wrong."] ++
    (if context = [] then [] else ["Context: " ++ Py.join "; " context]) ++
    failedSql sql)

def formatTurn (env : Env) (t : ConversationTurn) : List String :=
  let columns := (t.execResult.bind (·.columns)).getD []
  let data := (t.execResult.bind (·.data)).getD []
  ["Turn " ++ toString t.turn ++ " — \"" ++ t.userFeedback ++ "\""] ++
  (if t.sql = "" then [] else ["  → SQL: " ++ Py.take 200 t.sql]) ++
  (if columns = [] then [] else
    ["  → Result: " ++ toString ((t.execResult.map (·.rowCount)).getD 0) ++ " rows [" ++
      Py.join ", " (columns.take 8) ++ "]"] ++
    (if data = [] then [] else ["     Preview: " ++ preview env 2 4 15 data]))

def formatUserFeedback (env : Env) (feedback sql : String) (turns : List ConversationTurn) :
    String :=
  Py.join "\n" (
    ["## CORRECTION FEEDBACK"] ++
    (if turns = [] then [] else "\n## PREVIOUS ATTEMPTS" :: turns.flatMap (formatTurn env)) ++
    ["\n## CURRENT GUIDANCE", "User says: \"" ++ feedback ++ "\"",
      "Please revise the SQL according to the guidance above. " ++
        "Previous corrections from PREVIOUS ATTEMPTS should be preserved."] ++
    (if sql = "" then [] else ["\n## CURRENT SQL (for reference)", Py.take 600 sql]))

def formatUnknown (sql : String) : String :=
  "## CORRECTION FEEDBACK\n" ++
  "Type: Unknown error — no execution, guard, or semantic details available.\n" ++
  "\n## FAILED SQL — DO NOT REPEAT\n" ++ Py.take 600 sql

/-- `## CORRECTION k/n`; `max_retries` is the caller's and may be negative. -/
def header (s : AgentState) : String :=
  let attempt : Int := s.retryCount.getD 0 + 1
  let maxAttempts : Int := s.maxRetries.getD 2 + 1
  "## CORRECTION " ++ toString attempt ++ "/" ++ toString maxAttempts ++
    (if maxAttempts ≤ attempt then
      " (FINAL ATTEMPT — be conservative, prefer simpler queries)\n" else "\n")

/-- `state.get("last_sql", state.get("sql", ""))`: the default applies only while
the key is missing. -/
def previousSql (s : AgentState) : Option String :=
  match s.lastSql with
  | some stored => stored
  | none => some (s.sql.getD "")

def execError (s : AgentState) : Option String := s.execResult.bind (·.error)

/-- Where the correction text comes from, in order of priority. -/
inductive Source where
  | human
  | semantic
  | execution
  | guard
  | unknown
  deriving DecidableEq, Repr

def Source.name : Source → String
  | human => "human"
  | semantic => "semantic"
  | execution => "execution"
  | guard => "guard"
  | unknown => "unknown"

def source (s : AgentState) : Source :=
  if Py.truthy s.userFeedback then .human
  else if Py.truthy s.semanticFeedback && !Py.truthy (execError s) then .semantic
  else if Py.truthy (execError s) then .execution
  else if s.guardIssues.getD [] ≠ [] then .guard
  else .unknown

def errorFeedback (env : Env) (s : AgentState) (sql : String) : String :=
  match source s with
  | .human => formatUserFeedback env (s.userFeedback.getD "") sql (s.conversationTurns.getD [])
  | .semantic => formatSemanticFeedback env (s.semanticFeedback.getD "") sql s.execResult
  | .execution =>
    match s.execResult with
    | some result => env.formatExecFeedback result sql (s.schemaText.getD "")
    | none => ""
  | .guard => env.formatGuardFeedback (s.guardIssues.getD []) (s.schemaText.getD "") sql
  | .unknown => formatUnknown sql

/-- Retrieval is widened once, for a missing column or table or a semantic rejection. -/
def expands (hint : String) (s : AgentState) : Bool :=
  (hint = "missing_column" || hint = "missing_table" || Py.truthy s.semanticFeedback) &&
    s.ragKExpanded.isNone

/-- The update of the retrieval keys. -/
def expand (x : Expansion) (s : AgentState) : AgentState :=
  { s with
    ragKExpanded := some (s.ragK.getD 8 * 2)
    schemaText := some (if s.ragSchema.getD true ∧ x.schemaText ≠ "" then
      x.schemaText ++ "\n\n" ++ x.catalog else x.schemaText)
    notesText := if s.ragDomain.getD true ∧ x.notesText ≠ "" then some x.notesText else s.notesText }

def widen (hint : String) (expansion : Option Expansion) (s : AgentState) : Option AgentState :=
  if expands hint s then expansion.map fun x => expand x s else some s

/-- `refiner_node`. It raises on an SQL that is `None`, and where the classifier or
a needed retrieval does. -/
def node (env : Env) (expansion : Option Expansion) (s : AgentState) : Option AgentState := do
  let sql ← previousSql s
  let hint ← env.classifyExecError ((execError s).getD "")
  let widened ← widen hint expansion s
  some { widened with
    lastError := some (header s ++ errorFeedback env s sql)
    lastSql := some (some sql)
    repairHistory := some (s.repairHistory.getD [] ++ [
      { attempt := s.retryCount.getD 0 + 1
        errorSource := (source s).name
        errorType := if Py.truthy (execError s) then hint else ""
        failedSql := Py.take 300 sql
        fixStrategy := if s.ragKExpanded.getD 0 ≠ 0 then "rag_expand" else "feedback_only" }]) }

/-- What a visit does to the keys that other nodes read: a correction text that is
never empty, for the SQL it found. -/
structure Visited (s t : AgentState) : Prop where
  frame : ∃ text sql k schema notes history, t = { s with
    lastError := some text, lastSql := some (some sql), ragKExpanded := k, schemaText := schema,
    notesText := notes, repairHistory := history }
  text : ∃ text, t.lastError = some text ∧ text ≠ ""
  sql : ∃ sql, previousSql s = some sql ∧ t.lastSql = some (some sql)

theorem header_append_ne_empty (s : AgentState) (rest : String) : header s ++ rest ≠ "" := by
  intro empty
  have short := congrArg String.length empty
  unfold header at short
  repeat rw [String.length_append] at short
  have start : "## CORRECTION ".length = 14 := rfl
  have nothing : "".length = 0 := rfl
  omega

theorem node_visited (env : Env) (expansion : Option Expansion)
    (visit : node env expansion s = some t) : Visited s t := by
  simp only [node, Option.bind_eq_bind, Option.bind_eq_some_iff] at visit
  obtain ⟨sql, previous, hint, -, widened, expanded, same⟩ := visit
  have frame : ∃ k schema notes, widened = { s with
      ragKExpanded := k, schemaText := schema, notesText := notes } := by
    unfold widen at expanded
    split at expanded
    · obtain ⟨x, -, rfl⟩ := Option.map_eq_some_iff.mp expanded
      exact ⟨_, _, _, rfl⟩
    · obtain rfl := Option.some.inj expanded
      exact ⟨_, _, _, rfl⟩
  obtain ⟨k, schema, notes, rfl⟩ := frame
  obtain rfl := Option.some.inj same
  exact ⟨⟨_, sql, k, schema, notes, _, rfl⟩, ⟨_, rfl, header_append_ne_empty _ _⟩, sql, previous, rfl⟩

end Refiner
end Nl2SqlAgent

import Nl2SqlAgent.StoredHistory

/-! From a feedback message to the first nodes of the correction graph: the initial state of
`run_feedback_graph`, by the message and the document, and what the refiner makes of it. -/
namespace Nl2SqlAgent

open Lib

/-- The type that `classify_exec_error` gives. It raises where a missing table of MySQL has no
quote behind the last `Table` of its text. -/
def classifyExecError (m : Py.Case) (errorMsg : String) : Option String :=
  let mentions (part : String) : Bool := Py.contains part (m.lower errorMsg)
  let table := ((errorMsg.splitOn "Table").getLast?).getD ""
  if mentions "no such column:" || mentions "unknown column" ||
      (mentions "column" && mentions "does not exist") then some "missing_column"
  else if mentions "no such table:" then some "missing_table"
  else if mentions "doesn't exist" && mentions "table" then
    if Py.contains "'" errorMsg && !Py.contains "'" table then none else some "missing_table"
  else if mentions "relation" && mentions "does not exist" then some "missing_table"
  else if mentions "ambiguous column name:" || (mentions "column" && mentions "is ambiguous") then
    some "ambiguous_column"
  else if mentions "no such function:" || (mentions "function" && mentions "does not exist") then
    some "bad_function"
  else if mentions "syntax error" || mentions "near" ||
      mentions "you have an error in your sql syntax" then some "syntax_error"
  else if mentions "group by" || mentions "aggregate" then some "group_by_error"
  else some "execution_error"

/-- An environment with the classifier of the code. -/
def Env.classifying (env : Env) : Env :=
  { env with classifyExecError := Nl2SqlAgent.classifyExecError env.case }

theorem lower_empty (m : Py.Case) : m.lower "" = "" := by
  have nothing : m.lowerText [] = [] := m.lower_ascii [] (by simp)
  rw [Py.Case.lower, String.toList_empty, nothing]

theorem classifyExecError_empty (m : Py.Case) : classifyExecError m "" = some "execution_error" := by
  simp only [classifyExecError, lower_empty]
  decide

namespace FeedbackRounds

/-- `bool(value)`. -/
def truthy : Json → Bool
  | .null => false
  | .bool b => b
  | .int n => n ≠ 0
  | .float q => q ≠ 0
  | .nonFinite => true
  | .str s => s ≠ ""
  | .arr items => !items.isEmpty
  | .obj fields => !fields.isEmpty

def readString : Json → Option String
  | .str s => some s
  | _ => none

def readNullable : Json → Option (Option String)
  | .null => some none
  | .str s => some (some s)
  | _ => none

def readFlag : Json → Option Bool
  | .bool b => some b
  | _ => none

def readNat : Json → Option Nat
  | .int (.ofNat n) => some n
  | _ => none

def readCell : Json → Option Value
  | .null => some .null
  | .int n => some (.num n)
  | .float q => some (.num q)
  | .str s => some (.other s)
  | _ => none

def readRow : Json → Option Row
  | .arr cells => cells.mapM readCell
  | _ => none

def readRows : Json → Option (Option (List Row))
  | .null => some none
  | .arr rows => (rows.mapM readRow).map some
  | _ => none

def readColumns : Json → Option (Option (List String))
  | .null => some none
  | .arr names => (names.mapM readString).map some
  | _ => none

/-- An `exec_result`; the nodes test an empty one as they test none. -/
def readResult : Json → Option (Option ExecResult)
  | .null => some none
  | .obj [] => some none
  | .obj fields => do
    let field (key : String) : Json := (fields.lookup key).getD .null
    let success ← readFlag (field "success")
    let data ← readRows (field "data")
    let columns ← readColumns (field "columns")
    let error ← readNullable (field "error")
    let errorType ← readNullable (field "error_type")
    let rowCount ← readNat (field "row_count")
    let votedBy ← readNullable (field "_voted_by")
    let markedSql ← readNullable (field "_sql")
    some (some ⟨success, data, columns, error, errorType, rowCount, votedBy, markedSql⟩)
  | _ => none

/-- A turn of the history; the correction text prints a missing guidance as `None`. -/
def readTurn : Json → Option ConversationTurn
  | .obj fields => do
    let field (key : String) : Json := (fields.lookup key).getD .null
    let turn ← readNat (field "turn")
    let userFeedback ← readNullable (field "user_feedback")
    let sql ← readString (field "sql")
    let execResult ← readResult (field "exec_result")
    some ⟨turn, userFeedback.getD "None", sql, execResult⟩
  | _ => none

def readTurns : Json → Option (List ConversationTurn)
  | .null => some []
  | .obj [] => some []
  | .arr items => items.mapM readTurn
  | _ => none

/-- The initial state of `run_feedback_graph`. A default applies to a missing key only. -/
def readInput (payload : Doc) (taskState : Option Doc) : Option AgentGraph.FeedbackInput := do
  let taskState := taskState.getD ∅
  let given (key : String) : Json := get payload key (get taskState key (.str ""))
  let question ← readString (given "question")
  let dbId ← readNullable (given "db_id")
  let databaseUrl ← readNullable (given "database_url")
  let schemaText ← readString (get taskState "_schema_text" (.str ""))
  let notesText ← readString (get taskState "_notes_text" (.str ""))
  let fewshotText ← readString (get taskState "_fewshot_text" (.str ""))
  let sql ← readNullable (given "sql")
  let sent := get payload "exec_result" .null
  let execResult ← readResult (if truthy sent then sent else get taskState "exec_result" .null)
  let userFeedback ← readNullable (get payload "feedback" (.str ""))
  let conversationTurns ← readTurns (get payload "conversation_turns" (.arr []))
  let ragSchema ← readFlag (get payload "rag_schema" (.bool true))
  let ragDomain ← readFlag (get payload "rag_domain" (.bool true))
  let ragK ← readNat (get payload "rag_k" (.int 8))
  let fewshotEnabled ← readFlag (get payload "fewshot_enabled" (.bool true))
  some {
    question, dbId, databaseUrl, schemaText, notesText, fewshotText, sql, execResult
    userFeedback := userFeedback.getD ""
    conversationTurns
    ragSchema := some ragSchema
    ragDomain := some ragDomain
    ragK := some ragK
    fewshotEnabled := some fewshotEnabled
    maxRetries := 2 }

/-- The refiner's visit with which a round begins; `none` where it raises. -/
def firstVisit (env : Env) (expansion : Option Refiner.Expansion) (payload : Doc)
    (taskState : Option Doc) : Option AgentState :=
  (readInput payload taskState).bind fun i =>
    Refiner.node env expansion (AgentGraph.feedbackStart i).state

/-- How far a delivered message gets by the first two nodes, by what the handler has read
before and what the round reads; `none` where it is skipped or raises. -/
def delivered (env : Env) (expansion : Option Refiner.Expansion) (payload : Doc)
    (existing taskState : Option Doc) : Option AgentGraph.Config :=
  if TaskThreads.isRunning existing then none
  else (readInput payload taskState).bind fun i =>
    (AgentGraph.machine env).exec (AgentGraph.feedbackStart i) [.refiner expansion, .postRefiner]

theorem mapM_inverse {α β : Type} {f : α → β} {g : β → Option α} (inverse : ∀ a, g (f a) = some a)
    (items : List α) : (items.map f).mapM g = some items := by
  induction items with
  | nil => rfl
  | cons a rest ih => simp [inverse, ih]

theorem readCell_cellJson (v : Value) : readCell (TaskLifecycle.cellJson v) = some v := by
  cases v with
  | null => rfl
  | other shown => rfl
  | num q =>
    rw [TaskLifecycle.cellJson]
    split
    next whole =>
      have same : (q.num : Rat) = q := Rat.ext (by simp) (by simp [whole])
      rw [readCell, same]
    next => rfl

theorem readRows_rowsJson (rows : List Row) :
    readRows (TaskLifecycle.rowsJson rows) = some (some rows) := by
  have row (cells : Row) : readRow (.arr (cells.map TaskLifecycle.cellJson)) = some cells :=
    mapM_inverse readCell_cellJson cells
  rw [TaskLifecycle.rowsJson, readRows, mapM_inverse row, Option.map_some]

theorem readRows_data (data : Option (List Row)) :
    readRows ((data.map TaskLifecycle.rowsJson).getD .null) = some data := by
  cases data with
  | none => rfl
  | some rows => exact readRows_rowsJson rows

theorem readColumns_columns (columns : Option (List String)) :
    readColumns ((columns.map fun names => Json.arr (names.map Json.str)).getD .null) =
      some columns := by
  cases columns with
  | none => rfl
  | some names =>
    have string (s : String) : readString (.str s) = some s := rfl
    have read : (names.map Json.str).mapM readString = some names := mapM_inverse string names
    rw [Option.map_some, Option.getD_some, readColumns, read, Option.map_some]

@[simp] theorem readNullable_null : readNullable .null = some none := rfl

@[simp] theorem readNullable_str (s : String) : readNullable (.str s) = some (some s) := rfl

@[simp] theorem readNullable_text (t : Option String) : readNullable (TaskStore.text t) = some t := by
  cases t <;> rfl

/-- What the stored form of a result keeps: a record of the voter has neither an error type
nor a statement. -/
def asStored (r : ExecResult) : ExecResult :=
  match r.votedBy with
  | some _ => { r with errorType := none, markedSql := none }
  | none => r

theorem readResult_resultJson (r : ExecResult) :
    readResult (TaskLifecycle.resultJson (some r)) = some (some (asStored r)) := by
  obtain ⟨success, data, columns, error, errorType, rowCount, votedBy, markedSql⟩ := r
  cases votedBy with
  | some voter =>
    simp [TaskLifecycle.resultJson, readResult, asStored, readFlag, readRows_data,
      readColumns_columns, readNat, List.lookup_cons]
  | none =>
    cases markedSql <;>
    simp [TaskLifecycle.resultJson, readResult, asStored, readFlag, readRows_data,
      readColumns_columns, readNat, List.lookup_cons]

def Held.read : Held → Option ExecResult
  | .nothing => none
  | .empty => none
  | .result v => some (asStored v.result)

theorem readResult_held (held : Held) : readResult held.json = some held.read := by
  cases held with
  | nothing => rfl
  | empty => rfl
  | result v => exact readResult_resultJson v.result

/-- No result that is stored has an error. -/
theorem held_clean (held : Held) : Py.truthy (held.read.bind (·.error)) = false := by
  cases held with
  | nothing => rfl
  | empty => rfl
  | result v =>
    have error : (asStored v.result).error = v.result.error := by
      unfold asStored
      split <;> rfl
    rw [Held.read, Option.bind_some, error]
    exact v.clean

/-- A round as the refiner finds it in the history. -/
def Round.read (n : Nat) (r : Round) : ConversationTurn :=
  ⟨n, r.userFeedback.getD "None", r.sql, r.execResult.read⟩

theorem readTurn_turn (n : Nat) (r : Round) : readTurn (r.turn n) = some (r.read n) := by
  simp [Round.turn, readTurn, readNat, readString, readResult_held, Round.read, List.lookup_cons]

theorem readTurns_numbered (rounds : List Round) :
    readTurns (.arr (numbered rounds)) = some (rounds.mapIdx fun i r => r.read (i + 1)) := by
  rw [readTurns]
  induction rounds using List.reverseRecOn with
  | nil => rfl
  | append_singleton rest round ih =>
    rw [numbered_concat, List.mapM_append, ih]
    simp [readTurn_turn, List.mapIdx_append]

/-- The state's result has no error. -/
def Clean (s : AgentState) : Prop := Py.truthy (Refiner.execError s) = false

section Graphs

variable {env : Env} {c c' : AgentGraph.Config} {visit : AgentGraph.Visit}

theorem clean_step (clean : Clean c.state) (stepped : AgentGraph.Stepped env c visit c') :
    Clean c'.state := by
  cases stepped with
  | upstream _ n t _ _ frame =>
    obtain ⟨_, _, _, _, _, _, _, rfl⟩ := frame
    exact clean
  | generator reply t _ visited =>
    obtain ⟨_, _, _, _, _, rfl⟩ := visited.frame
    exact clean
  | guard t _ visited =>
    obtain ⟨_, _, _, _, rfl⟩ := visited.frame
    exact clean
  | voter executions ballot performed t _ visit =>
    obtain ⟨sql, result, rfl, reported, -, -⟩ := Voter.node_reported visit
    exact Voter.reported_clean reported
  | semanticCheck reply t _ visited =>
    obtain ⟨_, _, _, _, _, _, _, rfl⟩ := visited.frame
    exact clean
  | refiner expansion t _ visited =>
    obtain ⟨_, _, _, _, _, _, rfl⟩ := visited.frame
    exact clean
  | postRefiner => exact clean

/-- What a graph yields of a state without an error is stored as an `exec_result` is here. -/
theorem run_held {visits : List AgentGraph.Visit} (clean : Clean c.state)
    (run : (AgentGraph.machine env).exec c visits = some c') :
    ∃ held : Held, TaskLifecycle.resultJson c'.state.execResult = held.json := by
  have kept : Clean c'.state := Machine.invariant (fun c => Clean c.state)
    (fun _ _ _ keep stepped => clean_step keep (AgentGraph.step_stepped stepped)) clean run
  cases found : c'.state.execResult with
  | none => exact ⟨.nothing, rfl⟩
  | some r => exact ⟨.result ⟨r, by simpa [Clean, Refiner.execError, found] using kept⟩, rfl⟩

end Graphs

section Start

variable {payload : Doc} {taskState : Option Doc} {env : Env} {i : AgentGraph.FeedbackInput}

theorem context_get (context : ∀ d ∈ taskState, Stored d) (key : String) {initial : Json}
    (fallback : (kindOf key).Admits initial) :
    (kindOf key).Admits (get (taskState.getD ∅) key initial) := by
  cases taskState with
  | none => exact fallback
  | some d => exact (context d rfl).get key fallback

theorem get_missing {key : String} {initial : Json} (missing : payload.lookup key = none) :
    get payload key initial = initial := by
  rw [get, missing, Option.getD_none]

/-- What the first two nodes find in the initial state: the message's SQL, a result without
an error and the worker's own bound. -/
structure Begins (payload : Doc) (i : AgentGraph.FeedbackInput) : Prop where
  sql : i.sql = none ↔ payload.lookup "sql" = some .null
  clean : Py.truthy (i.execResult.bind (·.error)) = false
  retries : i.maxRetries = 2

/-- The message's result, or the document's where the message has none. -/
theorem result_held (carried : Carried payload) (context : ∀ d ∈ taskState, Stored d) :
    ∃ held : Held, (if truthy (get payload "exec_result" .null) then get payload "exec_result" .null
      else get (taskState.getD ∅) "exec_result" .null) = held.json := by
  split
  · exact carried.stored.get "exec_result" Held.nothing.admits
  · exact context_get context "exec_result" Held.nothing.admits

theorem turns_read (carried : Carried payload) :
    ∃ turns, readTurns (get payload "conversation_turns" (.arr [])) = some turns := by
  have initial : (kindOf "conversation_turns").Admits (.arr []) := .inr ⟨[], by decide, rfl⟩
  rcases carried.stored.get "conversation_turns" initial with empty | ⟨rounds, -, list⟩
  · exact ⟨[], by rw [empty]; rfl⟩
  · exact ⟨_, by rw [list, readTurns_numbered]⟩

theorem readInput_carried (carried : Carried payload) (context : ∀ d ∈ taskState, Stored d) :
    ∃ i, readInput payload taskState = some i ∧ Begins payload i := by
  have empty : Kind.Admits .text (.str "") := ⟨"", rfl⟩
  have blank : Kind.Admits .optional (.str "") := ⟨some "", rfl⟩
  obtain ⟨question, asked⟩ := carried.stored.get "question" (context_get context "question" empty)
  obtain ⟨dbId, id⟩ := carried.stored.get "db_id" (context_get context "db_id" blank)
  obtain ⟨url, place⟩ :=
    carried.stored.get "database_url" (context_get context "database_url" blank)
  obtain ⟨schemaText, schema⟩ := context_get context "_schema_text" empty
  obtain ⟨notesText, notes⟩ := context_get context "_notes_text" empty
  obtain ⟨fewshotText, fewshot⟩ := context_get context "_fewshot_text" empty
  obtain ⟨value, sent⟩ := Option.isSome_iff_exists.mp carried.sql
  obtain ⟨sql, rfl⟩ := carried.stored.admits sent
  have given (initial : Json) : get payload "sql" initial = TaskStore.text sql := by
    rw [get, sent, Option.getD_some]
  obtain ⟨held, result⟩ := result_held carried context
  obtain ⟨text, feedback⟩ := carried.feedback
  have guidance : get payload "feedback" (.str "") = TaskStore.text text := by
    rw [get, feedback, Option.getD_some]
  obtain ⟨turns, history⟩ := turns_read carried
  have bare (key : String) (initial : Json)
      (member : key ∈ ["rag_schema","rag_domain","rag_k","fewshot_enabled"]) :
      get payload key initial = initial := get_missing (carried.bare key member)
  refine ⟨{
    question, dbId, schemaText, notesText, fewshotText, sql
    databaseUrl := url
    execResult := held.read
    userFeedback := text.getD ""
    conversationTurns := turns
    ragSchema := some true
    ragDomain := some true
    ragK := some 8
    fewshotEnabled := some true
    maxRetries := 2 }, ?_, ?_, held_clean held, rfl⟩
  · simp [readInput, asked, id, place, schema, notes, fewshot, given, result, guidance, history,
      bare, readString, readFlag, readNat, readResult_held]
  · rw [sent]
    cases sql <;> simp [TaskStore.text]

/-- Without an error of an execution, the classifier takes the empty text. -/
theorem classifying_clean (env : Env) {s : AgentState} (clean : Clean s) :
    env.classifying.classifyExecError ((Refiner.execError s).getD "") = some "execution_error" := by
  have none_left : (Refiner.execError s).getD "" = "" := by
    cases error : Refiner.execError s with
    | none => rfl
    | some e => simpa [Clean, error, Py.truthy] using clean
  rw [none_left]
  exact classifyExecError_empty env.case

/-- Only an SQL that is `None` makes the refiner raise, and no retrieval is needed. -/
theorem node_returns_iff (env : Env) (expansion : Option Refiner.Expansion) (begins : Begins payload i) :
    (Refiner.node env.classifying expansion (AgentGraph.feedbackStart i).state).isSome = true ↔
      i.sql ≠ none := by
  have previous : Refiner.previousSql (AgentGraph.feedbackStart i).state = i.sql := rfl
  have hint := classifying_clean env (s := (AgentGraph.feedbackStart i).state) begins.clean
  have widened : Refiner.widen "execution_error" expansion (AgentGraph.feedbackStart i).state =
      some (AgentGraph.feedbackStart i).state := by
    simp [Refiner.widen, Refiner.expands, AgentGraph.feedbackStart]
  simp only [Refiner.node, previous, hint, Option.bind_eq_bind, Option.bind_some, widened]
  cases i.sql <;> simp

/-- After the refiner, the first round is always within its bound. -/
theorem afterRefiner_generates (begins : Begins payload i) {expansion : Option Refiner.Expansion}
    {t : AgentState} (visit : Refiner.node env expansion (AgentGraph.feedbackStart i).state = some t) :
    AgentGraph.routeAfterRefiner (AgentGraph.afterRefiner t) = .generator := by
  obtain ⟨text, sql, k, schema, notes, history, rfl⟩ := (Refiner.node_visited env expansion visit).frame
  simp [AgentGraph.routeAfterRefiner, AgentGraph.afterRefiner, AgentGraph.feedbackStart,
    begins.retries]

theorem exec_first (expansion : Option Refiner.Expansion) :
    (AgentGraph.machine env).exec (AgentGraph.feedbackStart i) [.refiner expansion, .postRefiner] =
      (Refiner.node env expansion (AgentGraph.feedbackStart i).state).map fun t =>
        ⟨AgentGraph.routeAfterRefiner (AgentGraph.afterRefiner t), AgentGraph.afterRefiner t, []⟩ := by
  have first : (AgentGraph.machine env).step (AgentGraph.feedbackStart i) (.refiner expansion) =
      (Refiner.node env expansion (AgentGraph.feedbackStart i).state).map fun t =>
        ⟨.postRefiner, t, []⟩ := rfl
  rw [Machine.exec_cons, first]
  cases Refiner.node env expansion (AgentGraph.feedbackStart i).state with
  | none => rfl
  | some t => rfl

end Start

/-- What the message asks for reaches the generator. -/
def Reaches (env : Env) (expansion : Option Refiner.Expansion) (payload : Doc)
    (existing taskState : Option Doc) : Prop :=
  ∃ c, delivered env expansion payload existing taskState = some c ∧ c.node = .generator

/-- In every run, whatever message was published by then and whatever the task's document is,
the initial state that the worker builds of them makes the refiner return exactly if the
message's SQL is not null, and then a message that is not skipped reaches the generator. -/
theorem feedback_total_iff (env : Env) (expansion : Option Refiner.Expansion)
    {events : List (Event Desc Choice Empty)} {c : Config Effect Effect.Answer World Desc}
    (run : system.machine.exec start events = some c) {payload : Doc}
    (published : payload ∈ c.world.payloads) (existing : Option Doc) :
    ((firstVisit env.classifying expansion payload c.world.task.doc).isSome = true ↔
      payload.lookup "sql" ≠ some .null) ∧
    (Reaches env.classifying expansion payload existing c.world.task.doc ↔
      TaskThreads.isRunning existing = false ∧ payload.lookup "sql" ≠ some .null) := by
  have kept := (run_kept events run).world
  obtain ⟨i, read, begins⟩ := readInput_carried (kept.payloads payload published) kept.doc
  have returns := node_returns_iff env expansion begins
  rw [ne_eq, begins.sql] at returns
  constructor
  · rw [firstVisit, read, Option.bind_some]
    exact returns
  · unfold Reaches delivered
    rw [read, Option.bind_some, exec_first]
    cases running : TaskThreads.isRunning existing with
    | true => simp
    | false =>
      simp only [Bool.false_eq_true, if_false, Option.map_eq_some_iff, true_and, ne_eq]
      rw [← returns, Option.isSome_iff_exists]
      constructor
      · rintro ⟨-, ⟨t, visit, -⟩, -⟩
        exact ⟨t, visit⟩
      · rintro ⟨t, visit⟩
        exact ⟨_, ⟨t, visit, rfl⟩, afterRefiner_generates begins visit⟩

/-- The feedback for an answered task, as long as the task is not running again. -/
theorem feedback_total_answered :
    ∃ c, system.machine.exec start (answered ++ asks 3 "by month") = some c ∧
      ∃ payload ∈ c.world.payloads,
        Reaches Env.plain.classifying none payload c.world.task.doc c.world.task.doc := by
  have ends : (system.machine.exec start (answered ++ asks 3 "by month")).any (fun c =>
      TaskThreads.isRunning c.world.task.doc = false ∧
        ∃ payload ∈ c.world.payloads, payload.lookup "sql" ≠ some .null) = true := by
    decide +kernel
  obtain ⟨c, run, found⟩ := (Option.any_eq_true _ _).mp ends
  obtain ⟨free, payload, published, sql⟩ := of_decide_eq_true found
  have total := feedback_total_iff Env.plain none run published c.world.task.doc
  exact ⟨c, run, payload, published, total.2.mpr ⟨free, sql⟩⟩

/-- An attempt of the worker that raises before any SQL is there. -/
def raises (retryCount : Fin 4) (before : Nat) : List (Event Desc Choice Empty) :=
  let pid := 2 * retryCount.val + 1
  [.arrive (.handleTask retryCount)] ++ List.replicate before (.run pid {}) ++
    [.run (pid + 1) {}] ++ List.replicate 5 (.run pid {})

/-- The last attempt of a task fails, and its user asks for a correction. -/
def unanswered : List (Event Desc Choice Empty) :=
  submitted ++ raises 0 5 ++ raises 1 3 ++ raises 2 3 ++ raises 3 3 ++ asks 9 "by month"

/-- The API accepts the feedback, and the refiner slices an SQL that is `None`. -/
theorem feedback_raises :
    ∃ c, system.machine.exec start unanswered = some c ∧
      c.world.task.doc.map TaskStore.status = some "FAILED" ∧
      ∃ payload ∈ c.world.payloads, feedback payload = some "by month" ∧
        firstVisit Env.plain.classifying none payload c.world.task.doc = none := by
  have ends : (system.machine.exec start unanswered).any (fun c =>
      c.world.task.doc.map TaskStore.status = some "FAILED" ∧
        ∃ payload ∈ c.world.payloads, feedback payload = some "by month" ∧
          firstVisit Env.plain.classifying none payload c.world.task.doc = none) = true := by
    decide +kernel
  obtain ⟨c, run, found⟩ := (Option.any_eq_true _ _).mp ends
  exact ⟨c, run, of_decide_eq_true found⟩

end FeedbackRounds
end Nl2SqlAgent

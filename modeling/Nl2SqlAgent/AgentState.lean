import Nl2SqlAgent.SafetyRules

/-! The state shared by the nodes of the LangGraph pipelines (`agent/state.py`).
A key is `none` while no node has written it. Timings and the trace logger, which
no node reads back, are left out. -/
namespace Nl2SqlAgent

open Lib

/-- One cell of a result row: what `isinstance` tests tell apart. Booleans are
numbers in Python; everything else is known by its `str`. -/
inductive Value where
  | null
  | num (q : Rat)
  | other (shown : String)
  deriving DecidableEq, Repr

abbrev Row := List Value

/-- The `exec_result` dictionary. `_voted_by` marks a result that no execution
gave, `_sql` the statement a result belongs to. -/
structure ExecResult where
  success : Bool
  data : Option (List Row)
  columns : Option (List String)
  error : Option String
  errorType : Option String
  rowCount : Nat
  votedBy : Option String
  markedSql : Option String
  deriving DecidableEq, Repr

/-- What `run_sql` returns: rows, or an error text (its own time-out included). -/
inductive RunOutcome where
  | rows (data : List Row) (columns : List String)
  | failed (error : String) (errorType : Option String)
  deriving DecidableEq, Repr

def RunOutcome.success : RunOutcome → Bool
  | .rows _ _ => true
  | .failed _ _ => false

def RunOutcome.result : RunOutcome → ExecResult
  | .rows data columns => ⟨true, some data, some columns, none, none, data.length, none, none⟩
  | .failed error errorType => ⟨false, none, none, some error, errorType, 0, none, none⟩

/-- `{**result, "_sql": sql}`. -/
def RunOutcome.marked (o : RunOutcome) (sql : String) : ExecResult :=
  { o.result with markedSql := some sql }

@[simp] theorem RunOutcome.marked_success (o : RunOutcome) (sql : String) :
    (o.marked sql).success = o.success := by cases o <;> rfl
@[simp] theorem RunOutcome.marked_votedBy (o : RunOutcome) (sql : String) :
    (o.marked sql).votedBy = none := by cases o <;> rfl
@[simp] theorem RunOutcome.marked_markedSql (o : RunOutcome) (sql : String) :
    (o.marked sql).markedSql = some sql := rfl

structure TokenUsage where
  prompt : Nat
  completion : Nat
  total : Nat
  deriving DecidableEq, Repr

def TokenUsage.zero : TokenUsage := ⟨0, 0, 0⟩

def TokenUsage.add (a b : TokenUsage) : TokenUsage :=
  ⟨a.prompt + b.prompt, a.completion + b.completion, a.total + b.total⟩

/-- One finished feedback round of the conversation. -/
structure ConversationTurn where
  turn : Nat
  userFeedback : String
  sql : String
  execResult : Option ExecResult
  deriving DecidableEq, Repr

/-- One entry of `repair_history`. -/
structure Repair where
  attempt : Nat
  errorSource : String
  errorType : String
  failedSql : String
  fixStrategy : String
  deriving DecidableEq, Repr

structure AgentState where
  question : String
  dbId : Option String := none
  databaseUrl : Option String := none
  ragSchema : Option Bool := none
  ragDomain : Option Bool := none
  ragK : Option Nat := none
  ragKExpanded : Option Nat := none
  fewshotEnabled : Option Bool := none
  complexity : Option String := none
  decomposerEnabled : Option Bool := none
  schemaText : Option String := none
  notesText : Option String := none
  sampleRowsText : Option String := none
  fewshotText : Option String := none
  /-- The sub-questions, each as `_format_sub_questions` prints it. -/
  subQuestions : Option (List String) := none
  sql : Option String := none
  rawResponse : Option String := none
  candidateSqls : Option (List String) := none
  guardPass : Option Bool := none
  guardIssues : Option (List Issue) := none
  astPass : Option Bool := none
  astIssues : Option (List Issue) := none
  execResult : Option ExecResult := none
  retryCount : Option Nat := none
  maxRetries : Option Int := none
  lastError : Option String := none
  /-- Written as `None` by a feedback round of a task that has no SQL. -/
  lastSql : Option (Option String) := none
  semanticPass : Option Bool := none
  semanticFeedback : Option String := none
  semRejectCount : Option Nat := none
  semLastRejectedSql : Option String := none
  userFeedback : Option String := none
  conversationTurns : Option (List ConversationTurn) := none
  tokenUsage : Option TokenUsage := none
  repairHistory : Option (List Repair) := none
  deriving DecidableEq, Repr

/-- What the nodes take from outside the modelled code, as functions of what they
are given: the interpreter's case mapping, the SQL parser, the schema check of a
statement against a database, the SQL extraction from a reply, the row hash and
the error classifier (`none` when they raise), `str` of a cell and the two
formatters that search the schema for hints. -/
structure Env where
  case : Py.Case
  sqlglot : Sqlglot
  checkHallucinations : (sql url : String) → List Issue
  extractSql : String → String
  normalizeRows : List Row → List String → Option String
  classifyExecError : String → Option String
  showValue : Value → String
  formatGuardFeedback : List Issue → String → String → String
  formatExecFeedback : ExecResult → String → String → String

/-- An environment to run the model in: every statement parses as a query of no
table, every result is the one-row result `1`. -/
def Env.plain : Env where
  case := .ascii
  sqlglot := ⟨fun _ _ => .ok [some ⟨⟨"select","",""⟩, []⟩],
    fun _ _ => some ⟨⟨"select","",""⟩, []⟩⟩
  checkHallucinations _ _ := []
  extractSql := id
  normalizeRows _ _ := some "[(1.0,)]"
  classifyExecError _ := some "execution_error"
  showValue _ := "1"
  formatGuardFeedback _ _ _ := "## CORRECTION FEEDBACK\nType: Guard failure"
  formatExecFeedback _ _ _ := "## CORRECTION FEEDBACK\nType: Execution error (execution_error)"

end Nl2SqlAgent

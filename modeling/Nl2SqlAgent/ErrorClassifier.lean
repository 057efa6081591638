import Nl2SqlAgent.Lib.PyPhrases
import Nl2SqlAgent.Lib.Regex
import Nl2SqlAgent.Refiner
import Nl2SqlAgent.SqlExecutor

/-! `guard/error_classifier.py`: the class and the hint of an execution error, on which texts
`classify_exec_error` raises, and what of a text decides the class. -/
namespace Nl2SqlAgent

open Lib

/-- `guard/error_types.py`. -/
inductive ErrorType where
  | emptySql
  | sqlValidation
  | invalidInput
  | permissionDenied
  | missingColumn
  | missingTable
  | ambiguousColumn
  | syntaxError
  | badFunction
  | groupByError
  | timeout
  | executionError
  | semanticMismatch
  deriving DecidableEq, Repr

def ErrorType.value : ErrorType → String
  | emptySql => "empty_sql"
  | sqlValidation => "sql_validation"
  | invalidInput => "invalid_input"
  | permissionDenied => "permission_denied"
  | missingColumn => "missing_column"
  | missingTable => "missing_table"
  | ambiguousColumn => "ambiguous_column"
  | syntaxError => "syntax_error"
  | badFunction => "bad_function"
  | groupByError => "group_by_error"
  | timeout => "timeout"
  | executionError => "execution_error"
  | semanticMismatch => "semantic_mismatch"

namespace ErrorClassifier

open Regex in
/-- `word\s+"?([^\s"]+)"?\s+does not exist`. -/
def absentPattern (word : String) : Pattern :=
  let quote := Pattern.optional (· = '"')
  .seq (.lit word) (.seq (.some_ Py.isSpace) (.seq quote
    (.seq (.group (.some_ fun c => !Py.isSpace c && c ≠ '"')) (.seq quote
      (.seq (.some_ Py.isSpace) (.lit "does not exist"))))))

open Regex in
/-- `function\s+(\S+)\(`. -/
def functionPattern : Pattern :=
  .seq (.lit "function") (.seq (.some_ Py.isSpace)
    (.seq (.group (.some_ fun c => !Py.isSpace c)) (.lit "(")))

/-- `m.group(1) if m else "?"`. -/
def groupOr (r : Regex.Pattern) (s : String) : String := (Regex.searchGroup r s).getD "?"

/-- The text behind the last such phrase. -/
def behind (phrase errorMsg : String) : String := Py.strip (Py.lastPiece phrase errorMsg)

/-- The name in the quotes behind the last `Table`; `none` is an `IndexError`. -/
def quotedTable (errorMsg : String) : Option String :=
  if Py.contains "'" errorMsg then (Py.splitChar '\'' (Py.lastPiece "Table" errorMsg))[1]?
  else some "?"

/-- The name behind the last `Unknown column`; of a text with a quote there are two pieces. -/
def unknownColumn (errorMsg : String) : String :=
  let col := Py.stripChars " '\":;" (Py.lastPiece "Unknown column" errorMsg)
  if Py.contains "'" col then ((Py.splitChar '\'' col)[1]?).getD "" else Py.take 40 col

def checkSchema (col : String) : String :=
  "Column '" ++ col ++ "' does not exist. Check the SCHEMA section — " ++
    "only use column names listed there."

def checkTable (tbl : String) : String :=
  "Table '" ++ tbl ++ "' does not exist. Check the SCHEMA section for the correct table name."

def syntaxHint : String :=
  "SQL syntax error. Check for: missing commas, unmatched parentheses, " ++
    "incomplete JOIN ... ON clauses, or missing keywords."

def classifyExecError (case : Py.Case) (errorMsg : String) : Option (ErrorType × String) :=
  let lower := case.lower errorMsg
  let mentions (phrase : String) : Bool := Py.contains phrase lower
  -- missing column
  if mentions "no such column:" then
    some (.missingColumn, checkSchema (behind "no such column:" errorMsg))
  else if mentions "unknown column" then
    some (.missingColumn, "Column '" ++ unknownColumn errorMsg ++ "' does not exist in the database. " ++
      "Check the SCHEMA section for the correct column name.")
  else if mentions "column" && mentions "does not exist" then
    some (.missingColumn, checkSchema (groupOr (absentPattern "column") lower))
  -- missing table
  else if mentions "no such table:" then
    some (.missingTable, checkTable (behind "no such table:" errorMsg))
  else if mentions "doesn't exist" && mentions "table" then
    (quotedTable errorMsg).map fun tbl => (.missingTable, checkTable tbl)
  else if mentions "relation" && mentions "does not exist" then
    some (.missingTable, "Table/relation '" ++ groupOr (absentPattern "relation") lower ++
      "' does not exist. Check the SCHEMA section.")
  -- ambiguous column
  else if mentions "ambiguous column name:" then
    let col := behind "ambiguous column name:" errorMsg
    some (.ambiguousColumn, "Column '" ++ col ++ "' exists in multiple tables. " ++
      "Qualify it with the table name or alias (e.g., orders." ++ col ++ ").")
  else if mentions "column" && mentions "is ambiguous" then
    some (.ambiguousColumn,
      "A column reference is ambiguous — qualify it with the table name or alias.")
  -- bad function
  else if mentions "no such function:" then
    some (.badFunction, "Function '" ++ behind "no such function:" errorMsg ++
      "' is not available. Use an equivalent built-in function for your dialect.")
  else if mentions "function" && mentions "does not exist" then
    some (.badFunction, "Function '" ++ groupOr functionPattern lower ++
      "()' does not exist. Use an equivalent built-in function for your dialect.")
  -- syntax error
  else if mentions "syntax error" || mentions "near" then some (.syntaxError, syntaxHint)
  else if mentions "you have an error in your sql syntax" then some (.syntaxError, syntaxHint)
  -- GROUP BY and aggregates
  else if mentions "group by" || mentions "aggregate" then
    some (.groupByError,
      "GROUP BY error: every non-aggregate column in SELECT must appear in GROUP BY.")
  else
    some (.executionError, "SQL execution failed: " ++ errorMsg ++ "\n" ++
      "Check column names, table names, JOIN conditions, and syntax.")

/-- One test of the chain: the class of the texts that have all of the phrases. -/
structure Rule where
  type : ErrorType
  phrases : List String

/-- The tests of `execute_sql` and of `classify_exec_error`, in their order. -/
def timeoutRules : List Rule := [⟨.timeout, ["timeout"]⟩, ⟨.timeout, ["timed out"]⟩]

def rules : List Rule :=
  [⟨.missingColumn, ["no such column:"]⟩, ⟨.missingColumn, ["unknown column"]⟩,
    ⟨.missingColumn, ["column","does not exist"]⟩,
    ⟨.missingTable, ["no such table:"]⟩, ⟨.missingTable, ["doesn't exist","table"]⟩,
    ⟨.missingTable, ["relation","does not exist"]⟩,
    ⟨.ambiguousColumn, ["ambiguous column name:"]⟩, ⟨.ambiguousColumn, ["column","is ambiguous"]⟩,
    ⟨.badFunction, ["no such function:"]⟩, ⟨.badFunction, ["function","does not exist"]⟩,
    ⟨.syntaxError, ["syntax error"]⟩, ⟨.syntaxError, ["near"]⟩,
    ⟨.syntaxError, ["you have an error in your sql syntax"]⟩,
    ⟨.groupByError, ["group by"]⟩, ⟨.groupByError, ["aggregate"]⟩]

def Rule.met (case : Py.Case) (text : String) (rule : Rule) : Bool :=
  rule.phrases.all fun phrase => Py.contains phrase (case.lower text)

/-- The class of the first test that is met. -/
def firstMet (case : Py.Case) (rules : List Rule) (text : String) : ErrorType :=
  ((rules.find? (Rule.met case text)).map Rule.type).getD .executionError

section

variable {case : Py.Case} {errorMsg : String}

/-- The branch that splits at `Table` is taken. -/
def SplitsTable (case : Py.Case) (errorMsg : String) : Prop :=
  (∀ rule ∈ rules.take 4, Rule.met case errorMsg rule = false) ∧
    Rule.met case errorMsg ⟨.missingTable, ["doesn't exist","table"]⟩ = true

/-- It is taken on a text that has an apostrophe, but none behind the last `Table`. -/
def Unquoted (case : Py.Case) (errorMsg : String) : Prop :=
  SplitsTable case errorMsg ∧ '\'' ∈ errorMsg.toList ∧
    '\'' ∉ (Py.lastPiece "Table" errorMsg).toList

instance : Decidable (SplitsTable case errorMsg) :=
  inferInstanceAs (Decidable ((∀ rule ∈ rules.take 4, _) ∧ _))

instance : Decidable (Unquoted case errorMsg) := inferInstanceAs (Decidable (_ ∧ _ ∧ _))

theorem contains_apostrophe (s : String) : Py.contains "'" s = true ↔ '\'' ∈ s.toList := by
  rw [Py.contains, decide_eq_true_iff]
  exact List.singleton_infix_iff _ _

theorem quotedTable_isSome : (quotedTable errorMsg).isSome = true ↔
    ¬ ('\'' ∈ errorMsg.toList ∧ '\'' ∉ (Py.lastPiece "Table" errorMsg).toList) := by
  unfold quotedTable
  split
  next quoted =>
    rw [Py.splitChar_second]
    simp [(contains_apostrophe _).mp quoted]
  next plain => simp [mt (contains_apostrophe _).mpr plain]

theorem firstMet_cons (case : Py.Case) (rule : Rule) (rest : List Rule) (text : String) :
    firstMet case (rule :: rest) text =
      if rule.met case text then rule.type else firstMet case rest text := by
  rw [firstMet, List.find?_cons]
  cases rule.met case text <;> rfl

theorem met_single (case : Py.Case) (text : String) (type : ErrorType) (phrase : String) :
    Rule.met case text ⟨type, [phrase]⟩ = Py.contains phrase (case.lower text) := Bool.and_true _

theorem met_pair (case : Py.Case) (text : String) (type : ErrorType) (phrase other : String) :
    Rule.met case text ⟨type, [phrase, other]⟩ =
      (Py.contains phrase (case.lower text) && Py.contains other (case.lower text)) := by
  simp [Rule.met]

theorem ite_either {α : Type} (a b : Bool) (x y : α) :
    (if a || b then x else y) = if a then x else if b then x else y := by
  cases a <;> rfl

theorem splits_iff : SplitsTable case errorMsg ↔
    (¬ Py.contains "no such column:" (case.lower errorMsg) = true ∧
      ¬ Py.contains "unknown column" (case.lower errorMsg) = true ∧
      ¬ (Py.contains "column" (case.lower errorMsg) &&
        Py.contains "does not exist" (case.lower errorMsg)) = true ∧
      ¬ Py.contains "no such table:" (case.lower errorMsg) = true) ∧
    (Py.contains "doesn't exist" (case.lower errorMsg) &&
      Py.contains "table" (case.lower errorMsg)) = true := by
  simp only [SplitsTable, rules, List.take_succ_cons, List.take_zero, List.forall_mem_cons,
    met_single, met_pair, Bool.not_eq_true, List.not_mem_nil, false_implies, implies_true, and_true]

/-- Which class is given, unless the text raises. -/
theorem classify_type (quotes : ¬ Unquoted case errorMsg) :
    (classifyExecError case errorMsg).map Prod.fst = some (firstMet case rules errorMsg) := by
  simp only [classifyExecError, rules, firstMet_cons, met_single, met_pair, ite_either,
    apply_ite some, apply_ite (Option.map Prod.fst)]
  -- the two chains make the same tests
  apply ite_congr rfl (fun _ => rfl)
  intro column
  apply ite_congr rfl (fun _ => rfl)
  intro unknown
  apply ite_congr rfl (fun _ => rfl)
  intro absent
  apply ite_congr rfl (fun _ => rfl)
  intro table
  refine ite_congr rfl (fun splits => ?_) fun _ => ?_
  · have reached := splits_iff.mpr ⟨⟨column, unknown, absent, table⟩, splits⟩
    obtain ⟨tbl, named⟩ := Option.isSome_iff_exists.mp
      (quotedTable_isSome.mpr fun none => quotes ⟨reached, none⟩)
    rw [named]
    rfl
  apply ite_congr rfl (fun _ => rfl)
  intro _
  apply ite_congr rfl (fun _ => rfl)
  intro _
  apply ite_congr rfl (fun _ => rfl)
  intro _
  apply ite_congr rfl (fun _ => rfl)
  intro _
  apply ite_congr rfl (fun _ => rfl)
  intro _
  apply ite_congr rfl (fun _ => rfl)
  intro _
  apply ite_congr rfl (fun _ => rfl)
  intro _
  apply ite_congr rfl (fun _ => rfl)
  intro _
  apply ite_congr rfl (fun _ => rfl)
  intro _
  exact ite_congr rfl (fun _ => rfl) fun _ => rfl

theorem classify_none (unquoted : Unquoted case errorMsg) : classifyExecError case errorMsg = none := by
  obtain ⟨splits, none⟩ := unquoted
  obtain ⟨⟨column, unknown, absent, table⟩, splits⟩ := splits_iff.mp splits
  have unnamed : quotedTable errorMsg = Option.none :=
    Option.not_isSome_iff_eq_none.mp fun named => quotedTable_isSome.mp named none
  simp only [classifyExecError]
  rw [if_neg column, if_neg unknown, if_neg absent, if_neg table, if_pos splits, unnamed]
  rfl

theorem classify_isSome_iff (case : Py.Case) (errorMsg : String) :
    (classifyExecError case errorMsg).isSome = true ↔ ¬ Unquoted case errorMsg := by
  constructor
  · intro given unquoted
    rw [classify_none unquoted] at given
    contradiction
  · intro quotes
    have given := classify_type quotes
    rw [← Option.isSome_map (f := Prod.fst), given]
    rfl

end

section

variable {case : Py.Case} {chars : List Char}

/-- A test of a text that is given by its characters: none of them is encoded and read again. -/
def Rule.metBy (case : Py.Case) (chars : List Char) (rule : Rule) : Bool :=
  rule.phrases.all fun phrase => decide (phrase.toList <:+: case.lowerText chars)

theorem met_ofList (case : Py.Case) (chars : List Char) :
    Rule.met case (.ofList chars) = Rule.metBy case chars := by
  funext rule
  simp only [Rule.met, Rule.metBy, Py.contains, Py.Case.lower, String.toList_ofList]

theorem firstMet_ofList (case : Py.Case) (rules : List Rule) (chars : List Char) :
    firstMet case rules (.ofList chars) =
      ((rules.find? (Rule.metBy case chars)).map Rule.type).getD .executionError := by
  rw [firstMet, met_ofList]

theorem unquoted_ofList : Unquoted case (.ofList chars) ↔
    ((∀ rule ∈ rules.take 4, Rule.metBy case chars rule = false) ∧
      Rule.metBy case chars ⟨.missingTable, ["doesn't exist","table"]⟩ = true) ∧
    '\'' ∈ chars ∧ '\'' ∉ (Py.splitFrom "Table".toList 0 [] chars).getLastD [] := by
  rw [Unquoted, SplitsTable, met_ofList, Py.lastPiece_ofList, String.toList_ofList]

/-- A text that names a missing column is split at no `Table`. -/
theorem not_unquoted {errorMsg : String}
    (met : Rule.met case errorMsg ⟨.missingColumn, ["no such column:"]⟩ = true) :
    ¬ Unquoted case errorMsg := by
  intro unquoted
  have unmet := unquoted.1.1 _ List.mem_cons_self
  rw [met] at unmet
  contradiction

end

/-- The environment whose classifier is this one. -/
def classifying (env : Env) : Env :=
  { env with classifyExecError := fun e => (classifyExecError env.case e).map fun given => given.1.value }

/-- `execute_sql` takes the error for a time-out. -/
def TimesOut (case : Py.Case) (error : String) : Prop := ∃ rule ∈ timeoutRules, rule.met case error = true

/-- `execute_sql` raises on the error. -/
def Raises (case : Py.Case) (error : String) : Prop := ¬ TimesOut case error ∧ Unquoted case error

/-- The class of an error in `execute_sql`. -/
def typeOf (case : Py.Case) (error : String) : ErrorType := firstMet case (timeoutRules ++ rules) error

section

variable {env : Env} {e : String}

theorem timesOut_iff : TimesOut env.case e ↔
    (Py.contains "timeout" (env.case.lower e) || Py.contains "timed out" (env.case.lower e)) = true := by
  simp only [TimesOut, timeoutRules, List.exists_mem_cons_iff, met_single, List.not_mem_nil,
    false_and, exists_false, or_false, Bool.or_eq_true]

theorem firstMet_append (case : Py.Case) {first : List Rule} (rest : List Rule)
    (none : ∀ rule ∈ first, rule.met case e = false) :
    firstMet case (first ++ rest) e = firstMet case rest e := by
  rw [firstMet, List.find?_append, List.find?_eq_none.mpr fun rule member => by simp [none rule member],
    Option.none_or, firstMet]

theorem errorType_timeout (times : TimesOut env.case e) :
    SqlExecutor.errorType (classifying env) e = some (typeOf env.case e).value := by
  have given : SqlExecutor.errorType (classifying env) e = some "timeout" :=
    if_pos (timesOut_iff.mp times)
  have both := timesOut_iff.mp times
  rw [given, typeOf, timeoutRules, List.cons_append, List.singleton_append, firstMet_cons,
    firstMet_cons, met_single, met_single, ← ite_either, if_pos both]
  rfl

/-- Unless it raises, `execute_sql` gives the class of the first test that is met. -/
theorem errorType_eq (given : ¬ Raises env.case e) :
    SqlExecutor.errorType (classifying env) e = some (typeOf env.case e).value := by
  by_cases times : TimesOut env.case e
  · exact errorType_timeout times
  · have quotes : ¬ Unquoted env.case e := fun unquoted => given ⟨times, unquoted⟩
    have classified : SqlExecutor.errorType (classifying env) e =
        (classifyExecError env.case e).map fun given => given.1.value := if_neg (mt timesOut_iff.mpr times)
    have unmet : ∀ rule ∈ timeoutRules, rule.met env.case e = false := fun rule member =>
      Bool.eq_false_iff.mpr fun met => times ⟨rule, member, met⟩
    rw [classified, typeOf, firstMet_append env.case rules unmet,
      show (fun given : ErrorType × String => given.1.value) = ErrorType.value ∘ Prod.fst from rfl,
      ← Option.map_map, classify_type quotes]
    rfl

theorem errorType_none (raises : Raises env.case e) :
    SqlExecutor.errorType (classifying env) e = none := by
  have classified : SqlExecutor.errorType (classifying env) e =
      (classifyExecError env.case e).map fun given => given.1.value :=
    if_neg (mt timesOut_iff.mpr raises.1)
  rw [classified, classify_none raises.2]
  rfl

theorem errorType_isSome_iff (env : Env) (e : String) :
    (SqlExecutor.errorType (classifying env) e).isSome = true ↔ ¬ Raises env.case e := by
  constructor
  · intro given raises
    rw [errorType_none raises] at given
    contradiction
  · intro given
    rw [errorType_eq given]
    rfl

/-- The record of an error, if `execute_sql` returns. -/
theorem executeSql_error {database : SqlExecutor.Database} {sql : String} {maxRows : ℕ}
    {url : Option String}
    (accepted : SafetyRules.Accepted env.case env.sqlglot sql (SqlExecutor.dialectOf url))
    (fails : database url (SqlExecutor.sqlToRun env sql maxRows) = .error e) :
    (SqlExecutor.executeSql env database sql maxRows url).2 =
      (SqlExecutor.errorType env e).map fun type => .failed e (some type) := by
  obtain ⟨safety, checked, valid⟩ := accepted
  simp only [SqlExecutor.executeSql, checked, valid, if_true, fails]

/-- A visit of the refiner fails where its classifier does. -/
theorem refiner_isSome {x : Refiner.Expansion} {s : AgentState} {sql : String}
    (previous : Refiner.previousSql s = some sql) : (Refiner.node env (some x) s).isSome = true ↔
      (env.classifyExecError ((Refiner.execError s).getD "")).isSome = true := by
  unfold Refiner.node
  rw [previous]
  cases env.classifyExecError ((Refiner.execError s).getD "") with
  | none => exact Iff.rfl
  | some hint =>
    have widened : ∃ t, Refiner.widen hint (some x) s = some t := by
      unfold Refiner.widen
      split
      · exact ⟨_, rfl⟩
      · exact ⟨_, rfl⟩
    obtain ⟨t, widened⟩ := widened
    simp [widened]

end

/-- The classifier, the executor on a statement that fails and the refiner on a failed result give
an answer on all texts but those that are split at `Table` and have no apostrophe behind it. -/
theorem classify_total_iff (env : Env) :
    (∀ errorMsg, (classifyExecError env.case errorMsg).isSome = true ↔ ¬ Unquoted env.case errorMsg) ∧
    (∀ (database : SqlExecutor.Database) sql maxRows url e,
      SafetyRules.Accepted env.case env.sqlglot sql (SqlExecutor.dialectOf url) →
      database url (SqlExecutor.sqlToRun env sql maxRows) = .error e →
      ((SqlExecutor.executeSql (classifying env) database sql maxRows url).2.isSome = true ↔
        TimesOut env.case e ∨ ¬ Unquoted env.case e)) ∧
    ∀ x s sql, Refiner.previousSql s = some sql →
      ((Refiner.node (classifying env) (some x) s).isSome = true ↔
        ¬ Unquoted env.case ((Refiner.execError s).getD "")) := by
  refine ⟨classify_isSome_iff env.case, ?_, ?_⟩
  · intro database sql maxRows url e accepted fails
    have record := @executeSql_error (classifying env) e database sql maxRows url accepted fails
    rw [record, Option.isSome_map, errorType_isSome_iff, Raises, not_and_or, not_not]
  · intro x s sql previous
    rw [refiner_isSome previous, ← classify_isSome_iff]
    exact Bool.eq_iff_iff.mp (Option.isSome_map ..)

/-- What MySQL reports for a missing table, with a statement that names a table in capitals and
the code at the end of the link. -/
def missingTableError : String :=
  "(pymysql.err.ProgrammingError) (1146, \"Table 'shop.Table1' doesn't exist\")\n" ++
    "[SQL: SELECT * FROM (SELECT * FROM Table1) AS _sub LIMIT 1000]\n" ++
    "(Background on this error at: f405)"

set_option maxRecDepth 2000 in
theorem missing_table_raises : classifyExecError .ascii missingTableError = none ∧
    SqlExecutor.errorType (classifying Env.plain) missingTableError = none := by
  have text : missingTableError = .ofList _ := Py.append_ofList₃ _ _ _
  have unquoted : Unquoted .ascii missingTableError := by
    rw [text, unquoted_ofList]
    decide
  have times : ¬ TimesOut .ascii missingTableError := by
    rw [text, TimesOut, met_ofList]
    decide
  exact ⟨classify_none unquoted, @errorType_none Env.plain _ ⟨times, unquoted⟩⟩

theorem classify_total_iff_column :
    (classifyExecError .ascii "no such column: total").isSome = true :=
  ((classify_total_iff Env.plain).1 _).mpr (not_unquoted (by decide))

/-- `str` of an SQLAlchemy error: the driver's message, the statement, and then the parameters
and a link. -/
def errorText (message sql rest : String) : String := message ++ "\n[SQL: " ++ sql ++ "]" ++ rest

theorem errorText_ofList (message sql rest : List Char) :
    errorText (.ofList message) (.ofList sql) (.ofList rest) =
      .ofList (message ++ "\n[SQL: ".toList ++ sql ++ "]".toList ++ rest) := by
  simp only [errorText, String.ofList_append, String.ofList_toList]

/-- The place of a class in the chain. -/
def ErrorType.stage : ErrorType → ℕ
  | .timeout => 0
  | .missingColumn => 1
  | .missingTable => 2
  | .ambiguousColumn => 3
  | .badFunction => 4
  | .syntaxError => 5
  | .groupByError => 6
  | _ => 7

/-- The whole text meets a test, and the message none of that class or of an earlier one. -/
def Overtaken (case : Py.Case) (message text : String) : Prop :=
  ∃ rule ∈ timeoutRules ++ rules, rule.met case text = true ∧
    ∀ other ∈ timeoutRules ++ rules, ErrorType.stage other.type ≤ ErrorType.stage rule.type →
      other.met case message = false

/-- The text of the error has the class of its message. -/
def SameType (env : Env) (message text : String) : Prop :=
  ∃ type, SqlExecutor.errorType (classifying env) message = some type ∧
    SqlExecutor.errorType (classifying env) text = some type

section

variable {env : Env} {case : Py.Case} {message text : String} {chain : List Rule}

theorem firstMet_cases (chain : List Rule) (case : Py.Case) (text : String) :
    (∃ rule ∈ chain, rule.met case text = true ∧ rule.type = firstMet case chain text) ∨
      (firstMet case chain text = .executionError ∧ ∀ rule ∈ chain, rule.met case text = false) := by
  unfold firstMet
  cases found : chain.find? (Rule.met case text) with
  | none =>
    refine .inr ⟨rfl, fun rule member => ?_⟩
    exact Bool.eq_false_iff.mpr (List.find?_eq_none.mp found rule member)
  | some rule => exact .inl ⟨rule, List.mem_of_find?_eq_some found, List.find?_some found, rfl⟩

/-- No test that is met is of an earlier class. -/
theorem firstMet_le (case : Py.Case) (text : String)
    (ordered : chain.Pairwise fun a b => ErrorType.stage a.type ≤ ErrorType.stage b.type) :
    ∀ rule ∈ chain, rule.met case text = true →
      ErrorType.stage (firstMet case chain text) ≤ ErrorType.stage rule.type := by
  induction chain with
  | nil => simp
  | cons first rest ih =>
    obtain ⟨least, later⟩ := List.pairwise_cons.mp ordered
    intro rule member met
    rw [firstMet_cons]
    split
    · rcases List.mem_cons.mp member with rfl | inside
      · exact le_rfl
      · exact least rule inside
    next unmet =>
      rcases List.mem_cons.mp member with rfl | inside
      · exact absurd met unmet
      · exact ih later rule inside met

theorem chain_ordered : (timeoutRules ++ rules).Pairwise fun a b =>
    ErrorType.stage a.type ≤ ErrorType.stage b.type := by decide

theorem typeOf_mem (case : Py.Case) (text : String) : typeOf case text ∈
    [ErrorType.timeout, .missingColumn, .missingTable, .ambiguousColumn, .badFunction,
      .syntaxError, .groupByError, .executionError] := by
  rcases firstMet_cases (timeoutRules ++ rules) case text with ⟨rule, member, -, type⟩ | ⟨none, -⟩
  · have all : ∀ rule ∈ timeoutRules ++ rules, rule.type ∈
        [ErrorType.timeout, .missingColumn, .missingTable, .ambiguousColumn, .badFunction,
          .syntaxError, .groupByError, .executionError] := by decide
    rw [typeOf, ← type]
    exact all rule member
  · rw [typeOf, none]
    decide

theorem stage_inj (first second : String)
    (same : ErrorType.stage (typeOf case first) = ErrorType.stage (typeOf case second)) :
    typeOf case first = typeOf case second := by
  have distinct : ∀ a ∈ [ErrorType.timeout, .missingColumn, .missingTable, .ambiguousColumn,
      .badFunction, .syntaxError, .groupByError, .executionError],
      ∀ b ∈ [ErrorType.timeout, .missingColumn, .missingTable, .ambiguousColumn,
        .badFunction, .syntaxError, .groupByError, .executionError],
      ErrorType.stage a = ErrorType.stage b → a = b := by decide
  exact distinct _ (typeOf_mem case first) _ (typeOf_mem case second) same

theorem stage_le (case : Py.Case) (text : String) : ErrorType.stage (typeOf case text) ≤ 7 := by
  cases typeOf case text <;> decide

/-- The message has a later class than the test. -/
theorem later_iff {rule : Rule} (member : rule ∈ timeoutRules ++ rules) :
    ErrorType.stage rule.type < ErrorType.stage (typeOf case message) ↔
      ∀ other ∈ timeoutRules ++ rules, ErrorType.stage other.type ≤ ErrorType.stage rule.type →
        other.met case message = false := by
  constructor
  · intro later other inside no
    apply Bool.eq_false_iff.mpr
    intro met
    have least := firstMet_le case message chain_ordered other inside met
    exact absurd (later.trans_le (least.trans no)) (lt_irrefl _)
  · intro unmet
    rcases firstMet_cases (timeoutRules ++ rules) case message with ⟨other, inside, met, type⟩ | ⟨none, -⟩
    · apply not_le.mp
      intro no
      rw [typeOf, ← type] at no
      rw [unmet other inside no] at met
      contradiction
    · have early : ∀ rule ∈ timeoutRules ++ rules, ErrorType.stage rule.type < 7 := by decide
      rw [typeOf, none]
      exact early rule member

/-- A text that meets the tests of its message has its class unless an earlier test is met. -/
theorem typeOf_eq_iff (more : ∀ rule ∈ timeoutRules ++ rules, rule.met case message = true →
      rule.met case text = true) :
    typeOf case text = typeOf case message ↔ ¬ Overtaken case message text := by
  constructor
  · rintro same ⟨rule, member, met, unmet⟩
    have earlier := (later_iff member).mpr unmet
    have least := firstMet_le case text chain_ordered rule member met
    rw [← same] at earlier
    exact absurd least earlier.not_ge
  · intro kept
    apply stage_inj
    apply le_antisymm
    · rcases firstMet_cases (timeoutRules ++ rules) case message with ⟨rule, member, met, type⟩ | ⟨none, -⟩
      · have least := firstMet_le case text chain_ordered rule member
          (more rule member met)
        rwa [type] at least
      · have last : ErrorType.stage (typeOf case message) = 7 := by
          rw [typeOf, none]
          rfl
        exact last ▸ stage_le case text
    · rcases firstMet_cases (timeoutRules ++ rules) case text with ⟨rule, member, met, type⟩ | ⟨none, -⟩
      · refine not_lt.mp fun earlier => kept ⟨rule, member, met, (later_iff member).mp ?_⟩
        rwa [type]
      · have last : ErrorType.stage (typeOf case text) = 7 := by
          rw [typeOf, none]
          rfl
        exact last ▸ stage_le case message

theorem phrases_ascii : ∀ rule ∈ timeoutRules ++ rules, ∀ phrase ∈ rule.phrases,
    phrase.toList.all (·.val < 128) = true := by decide

/-- What the message mentions the whole text mentions. -/
theorem met_errorText (loc : case.Local) (message sql rest : String) :
    ∀ rule ∈ timeoutRules ++ rules, rule.met case message = true →
      rule.met case (errorText message sql rest) = true := by
  intro rule member met
  apply List.all_eq_true.mpr
  intro phrase inside
  have found := of_decide_eq_true (List.all_eq_true.mp met phrase inside)
  have ascii := List.all_eq_true.mp (phrases_ascii rule member phrase inside)
  rw [Py.Case.lower, String.toList_ofList] at found
  have later := loc.infix_lower (by simpa using ascii) [] message.toList
    ("\n[SQL: ".toList ++ (sql.toList ++ ("]".toList ++ rest.toList))) found
  rw [Py.contains, Py.Case.lower, String.toList_ofList, errorText]
  simpa [String.toList_append] using later

theorem value_inj {a b : ErrorType} (same : a.value = b.value) : a = b := by
  revert same
  cases a <;> cases b <;> decide

theorem sameType_iff : SameType env message text ↔
    ¬ Raises env.case message ∧ ¬ Raises env.case text ∧
      typeOf env.case text = typeOf env.case message := by
  constructor
  · rintro ⟨type, own, whole⟩
    have given : ¬ Raises env.case message :=
      (errorType_isSome_iff env message).mp (Option.isSome_iff_exists.mpr ⟨type, own⟩)
    have given' : ¬ Raises env.case text :=
      (errorType_isSome_iff env text).mp (Option.isSome_iff_exists.mpr ⟨type, whole⟩)
    rw [errorType_eq given] at own
    rw [errorType_eq given'] at whole
    exact ⟨given, given', value_inj (Option.some.inj (whole.trans own.symm))⟩
  · rintro ⟨given, given', same⟩
    exact ⟨_, errorType_eq given, same ▸ errorType_eq given'⟩

theorem typeOf_timeout : typeOf case message = .timeout ↔ TimesOut case message := by
  constructor
  · intro type
    rcases firstMet_cases (timeoutRules ++ rules) case message with ⟨rule, member, met, own⟩ | ⟨none, -⟩
    · have others : ∀ rule ∈ rules, rule.type ≠ .timeout := by decide
      rcases List.mem_append.mp member with early | late
      · exact ⟨rule, early, met⟩
      · exact absurd (own.trans type) (others rule late)
    · exact absurd (none.symm.trans type) (by decide)
  · rintro ⟨rule, member, met⟩
    have least := firstMet_le case message chain_ordered rule
      (List.mem_append_left _ member) met
    have first : ∀ rule ∈ timeoutRules, ErrorType.stage rule.type = 0 := by decide
    rw [first rule member] at least
    have stage : ErrorType.stage (typeOf case message) = 0 := Nat.le_zero.mp least
    have only : ∀ type ∈ [ErrorType.timeout, .missingColumn, .missingTable, .ambiguousColumn,
        .badFunction, .syntaxError, .groupByError, .executionError],
        ErrorType.stage type = 0 → type = .timeout := by decide
    exact only _ (typeOf_mem case message) stage

theorem timesOut_errorText (loc : case.Local) (message rest : String) :
    TimesOut case (errorText message "timeout" rest) := by
  have ascii : ∀ c ∈ "timeout".toList, c.val < 128 := by simp
  refine ⟨⟨.timeout, ["timeout"]⟩, List.mem_cons_self, ?_⟩
  rw [met_single, Py.contains, decide_eq_true_iff, Py.Case.lower, String.toList_ofList]
  have own : "timeout".toList <:+: case.lowerText "timeout".toList := by
    rw [case.lower_ascii _ ascii]
    exact (by decide : "timeout".toList.map Char.toLower = "timeout".toList) ▸ List.infix_refl _
  have later := loc.infix_lower ascii (message.toList ++ "\n[SQL: ".toList) "timeout".toList
    ("]".toList ++ rest.toList) own
  rw [errorText]
  simpa [String.toList_append] using later

end

/-- The statement and the parameters leave the class of the message alone exactly if nothing
raises and the whole text meets no test of a class before those that the message meets; and all
statements and parameters do so exactly for the messages that mention a time-out. -/
theorem message_decides_iff (env : Env) (loc : env.case.Local) (message : String) :
    (∀ sql rest, SameType env message (errorText message sql rest) ↔
      ¬ Raises env.case message ∧ ¬ Raises env.case (errorText message sql rest) ∧
        ¬ Overtaken env.case message (errorText message sql rest)) ∧
    ((∀ sql₁ rest₁ sql₂ rest₂, SameType env message (errorText message sql₁ rest₁) ∧
      SameType env message (errorText message sql₂ rest₂)) ↔ TimesOut env.case message) := by
  have each (sql rest : String) : SameType env message (errorText message sql rest) ↔
      ¬ Raises env.case message ∧ ¬ Raises env.case (errorText message sql rest) ∧
        ¬ Overtaken env.case message (errorText message sql rest) := by
    rw [sameType_iff, typeOf_eq_iff (met_errorText loc message sql rest)]
  refine ⟨each, ?_, ?_⟩
  · intro all
    obtain ⟨same, -⟩ := all "timeout" "" "timeout" ""
    obtain ⟨-, -, type⟩ := sameType_iff.mp same
    rw [typeOf_timeout.mpr (timesOut_errorText loc message "")] at type
    exact typeOf_timeout.mp type.symm
  · intro times
    have kept (sql rest : String) : SameType env message (errorText message sql rest) := by
      obtain ⟨rule, member, met⟩ := times
      have times' : TimesOut env.case (errorText message sql rest) :=
        ⟨rule, member, met_errorText loc message sql rest rule (List.mem_append_left _ member) met⟩
      refine sameType_iff.mpr ⟨fun raises => raises.1 ⟨rule, member, met⟩,
        fun raises => raises.1 times', ?_⟩
      rw [typeOf_timeout.mpr times', typeOf_timeout.mpr ⟨rule, member, met⟩]
    exact fun sql₁ rest₁ sql₂ rest₂ => ⟨kept sql₁ rest₁, kept sql₂ rest₂⟩

/-- SQLite's message for a missing column. -/
def missingTotal : String := "(sqlite3.OperationalError) no such column: totl"

theorem missingTotal_met :
    Rule.met .ascii missingTotal ⟨.missingColumn, ["no such column:"]⟩ = true := by decide

theorem missingTotal_given (sql : String) : ¬ Raises .ascii (errorText missingTotal sql "") := fun raises =>
  not_unquoted (met_errorText Py.Case.ascii_local missingTotal sql "" _
    (List.mem_append_right _ List.mem_cons_self) missingTotal_met) raises.2

theorem missingTotal_in_time :
    ¬ TimesOut .ascii (errorText missingTotal "SELECT totl FROM jobs" "") := by
  have text : errorText missingTotal "SELECT totl FROM jobs" "" = .ofList _ := errorText_ofList _ _ _
  rw [text, TimesOut, met_ofList]
  decide +kernel

theorem message_decides_total :
    SameType Env.plain missingTotal (errorText missingTotal "SELECT totl FROM jobs" "") := by
  refine ((message_decides_iff Env.plain Py.Case.ascii_local missingTotal).1 _ _).mpr
    ⟨fun raises => not_unquoted missingTotal_met raises.2, missingTotal_given _, ?_⟩
  rintro ⟨rule, member, met, unmet⟩
  rcases List.mem_append.mp member with early | late
  · exact missingTotal_in_time ⟨rule, early, met⟩
  -- every other test is of the class of the message's own, or of a later one
  have later : ∀ rule ∈ rules, ErrorType.stage .missingColumn ≤ ErrorType.stage rule.type := by decide
  have own := unmet _ (List.mem_append_right _ List.mem_cons_self) (later rule late)
  rw [show Rule.met Env.plain.case missingTotal ⟨.missingColumn, ["no such column:"]⟩ = true from
    missingTotal_met] at own
  contradiction

/-- A column of the statement makes a time-out of a missing column. -/
theorem column_decides :
    SqlExecutor.errorType (classifying Env.plain) missingTotal = some "missing_column" ∧
    SqlExecutor.errorType (classifying Env.plain)
      (errorText missingTotal "SELECT totl FROM jobs" "") = some "missing_column" ∧
    SqlExecutor.errorType (classifying Env.plain)
      (errorText missingTotal "SELECT totl, timeout_s FROM jobs" "") = some "timeout" := by
  have own : missingTotal = .ofList _ := rfl
  have whole : errorText missingTotal "SELECT totl FROM jobs" "" = .ofList _ := errorText_ofList _ _ _
  have overtaken : errorText missingTotal "SELECT totl, timeout_s FROM jobs" "" = .ofList _ :=
    errorText_ofList _ _ _
  refine ⟨?_, ?_, ?_⟩
  · rw [@errorType_eq Env.plain _ fun raises => not_unquoted missingTotal_met raises.2, typeOf, own,
      firstMet_ofList]
    decide
  · rw [@errorType_eq Env.plain _ (missingTotal_given _), typeOf, whole, firstMet_ofList]
    decide +kernel
  · rw [@errorType_eq Env.plain _ (missingTotal_given _), typeOf, overtaken, firstMet_ofList]
    decide +kernel

end ErrorClassifier
end Nl2SqlAgent

import Nl2SqlAgent.Lib.PyText
import Mathlib.Data.List.Sort

/-! `guard/safety_rules.py`: the checks on the text and on the parsed statement
(`check_safety`). The parser is a parameter; of its trees the checks read the
nodes, with their kind, name and alias. -/
namespace Nl2SqlAgent

open Lib

structure Issue where
  type : String
  detail : String
  deriving DecidableEq, Repr

/-- One node of an expression tree; `key` is the class name in lower case. -/
structure Node where
  key : String
  name : String
  aliasName : String
  deriving DecidableEq, Repr

/-- A parsed statement, as `find_all` walks it: the root, then every other node. -/
structure Expression where
  root : Node
  below : List Node
  deriving DecidableEq, Repr

def Expression.nodes (e : Expression) : List Node := e.root :: e.below

/-- `parse` raises with a text or returns statements, `None` where there is none
between two semicolons; `parse_one` raises or returns one. -/
structure Sqlglot where
  parse : (sql dialect : String) → Except String (List (Option Expression))
  parseOne : (sql dialect : String) → Option Expression

namespace SafetyRules

structure Verdict where
  valid : Bool
  issues : List Issue
  statementType : String
  tableReferences : List String
  deriving DecidableEq, Repr

/-- `sorted(_FORBIDDEN_KEYWORDS)`. -/
def forbiddenKeywords : List String :=
  ["ALTER","CREATE","DELETE","DROP","INSERT","PRAGMA","TRUNCATE","UPDATE"]

def astForbidden : List String :=
  ["insert","delete","drop","alter","create","truncate","update","pragma"]

def pieces (sql : String) : List String :=
  ((Py.splitChar ';' sql).map Py.strip).filter (· ≠ "")

/-- `Multiple statements detected (…)`, reported by both levels. -/
def multipleStatements (type : String) (count : Nat) : Issue :=
  ⟨type, "Multiple statements detected (" ++ toString count ++
    "). Only single SELECT/WITH allowed."⟩

def missingSelect (case : Py.Case) (sql : String) : Bool :=
  !Py.contains "SELECT" (case.upper sql) && !Py.startsWith "WITH" (case.upper sql)

def textIssues (case : Py.Case) (sql : String) : List Issue :=
  (if missingSelect case sql then
    [⟨"missing_select","SQL does not contain SELECT or WITH."⟩] else []) ++
  ((forbiddenKeywords.filter fun kw => Py.contains kw (case.upper sql)).map fun kw =>
    ⟨"forbidden_keyword","Forbidden keyword: " ++ kw ++ ". Only SELECT/WITH allowed."⟩) ++
  (if 1 < (pieces sql).length then
    [multipleStatements "multi_statement" (pieces sql).length] else [])

/-- `_statement_kind(stmt).upper()`. -/
def statementType (case : Py.Case) (e : Expression) : String := case.upper e.root.key

def forbiddenKind (case : Py.Case) (e : Expression) : Bool :=
  case.lower (statementType case e) ∈ astForbidden

/-- The tables named anywhere in the tree, without the names of its CTEs. -/
def tableNames (case : Py.Case) (e : Expression) : List String :=
  let cteAliases := (e.nodes.filter fun n => n.key = "cte" ∧ n.aliasName ≠ "").map fun n =>
    case.lower n.aliasName
  let names := (e.nodes.filter fun n => n.key = "table" ∧ n.name ≠ "").map fun n =>
    case.lower n.name
  ((names.filter (· ∉ cteAliases)).dedup).insertionSort (· ≤ ·)

/-- `_ast_check`; `none` is the `IndexError` of a text in which nothing was parsed. -/
def astCheck (case : Py.Case) (sqlglot : Sqlglot) (sql dialect : String) :
    Option (List Issue × String × List String) :=
  match sqlglot.parse sql dialect with
  | .error e => some ([⟨"ast_syntax","SQL parse error: " ++ Py.take 200 e⟩], "", [])
  | .ok [] => some ([⟨"ast_syntax","SQL parsed to empty AST."⟩], "", [])
  | .ok parsed =>
    match parsed.filterMap id with
    | [] => none
    | [stmt] =>
      some (
        if forbiddenKind case stmt then
          [⟨"ast_forbidden","Forbidden statement type: " ++ statementType case stmt ++
            ". Only SELECT/WITH allowed."⟩]
        else [],
        statementType case stmt,
        ((sqlglot.parseOne sql dialect).map (tableNames case)).getD [])
    | stmts => some ([multipleStatements "ast_structure" stmts.length], "", [])

/-- `check_safety`; `none` where it raises. -/
def checkSafety (case : Py.Case) (sqlglot : Sqlglot) (sql dialect : String) : Option Verdict :=
  if Py.strip sql = "" then
    some ⟨false, [⟨"empty_sql","SQL is empty or whitespace only."⟩], "", []⟩
  else
    (astCheck case sqlglot sql dialect).map fun (astIssues, stmtType, tables) =>
      let issues := textIssues case sql ++ astIssues
      ⟨issues.isEmpty, issues, stmtType, tables⟩

def Accepted (case : Py.Case) (sqlglot : Sqlglot) (sql dialect : String) : Prop :=
  ∃ verdict, checkSafety case sqlglot sql dialect = some verdict ∧ verdict.valid = true

/-- Everything the text-level rules ask of a text. -/
structure TextPasses (case : Py.Case) (sql : String) : Prop where
  nonblank : Py.strip sql ≠ ""
  query : Py.contains "SELECT" (case.upper sql) = true ∨ Py.startsWith "WITH" (case.upper sql) = true
  keywords : ∀ kw ∈ forbiddenKeywords, Py.contains kw (case.upper sql) = false
  single : (pieces sql).length ≤ 1

/-- The text parses to `e` and to no other statement. -/
def ParsesTo (sqlglot : Sqlglot) (sql dialect : String) (e : Expression) : Prop :=
  ∃ parsed, sqlglot.parse sql dialect = .ok parsed ∧ parsed.filterMap id = [e]

theorem ParsesTo.unique (first : ParsesTo sqlglot sql dialect e)
    (second : ParsesTo sqlglot sql dialect e') : e = e' := by
  obtain ⟨parsed, ok, only⟩ := first
  obtain ⟨parsed', ok', only'⟩ := second
  obtain rfl := Except.ok.inj (ok.symm.trans ok')
  exact List.head_eq_of_cons_eq (only.symm.trans only')

theorem textIssues_empty (case : Py.Case) (sql : String) (nonblank : Py.strip sql ≠ "") :
    textIssues case sql = [] ↔ TextPasses case sql := by
  have select : missingSelect case sql = false ↔ Py.contains "SELECT" (case.upper sql) = true ∨
      Py.startsWith "WITH" (case.upper sql) = true := by
    cases h : Py.contains "SELECT" (case.upper sql) <;> simp [missingSelect, h]
  simp only [textIssues, List.append_eq_nil_iff, List.map_eq_nil_iff, List.filter_eq_nil_iff]
  constructor
  · rintro ⟨⟨present, clean⟩, few⟩
    refine ⟨nonblank, select.mp ?_, ?_, ?_⟩
    · by_cases missing : missingSelect case sql = true
      · simp [missing] at present
      · exact Bool.eq_false_iff.mpr missing
    · exact fun kw member => Bool.eq_false_iff.mpr (clean kw member)
    · by_cases many : 1 < (pieces sql).length
      · simp [many] at few
      · omega
  · intro passes
    refine ⟨⟨by simp [select.mpr passes.query], ?_⟩, ?_⟩
    · exact fun kw member => Bool.eq_false_iff.mp (passes.keywords kw member)
    · have few := passes.single
      simp [Nat.not_lt.mpr few]

theorem astCheck_clean (case : Py.Case) (sqlglot : Sqlglot) (sql dialect : String) :
    (∃ type tables, astCheck case sqlglot sql dialect = some ([], type, tables)) ↔
      ∃ e, ParsesTo sqlglot sql dialect e ∧ forbiddenKind case e = false := by
  unfold astCheck
  constructor
  · rintro ⟨type, tables, clean⟩
    split at clean
    · simp at clean
    · simp at clean
    next parsed nonempty parsedOk =>
      split at clean
      · simp at clean
      next stmt only =>
        refine ⟨stmt, ⟨parsed, parsedOk, only⟩, ?_⟩
        by_cases forbidden : forbiddenKind case stmt = true
        · simp [forbidden] at clean
        · exact Bool.eq_false_iff.mpr forbidden
      · simp at clean
  · rintro ⟨e, ⟨parsed, parsedOk, only⟩, allowed⟩
    cases parsed with
    | nil => simp at only
    | cons first rest =>
      refine ⟨statementType case e,
        ((sqlglot.parseOne sql dialect).map (tableNames case)).getD [], ?_⟩
      simp only [parsedOk]
      rw [only]
      simp only [allowed, Bool.false_eq_true, if_false]

/-- `check_safety` accepts exactly the texts that pass the first level and parse to
one statement of a kind that is not on its list. -/
theorem accepted_iff (case : Py.Case) (sqlglot : Sqlglot) (sql dialect : String) :
    Accepted case sqlglot sql dialect ↔ TextPasses case sql ∧
      ∃ e, ParsesTo sqlglot sql dialect e ∧ forbiddenKind case e = false := by
  rw [← astCheck_clean]
  by_cases blank : Py.strip sql = ""
  · constructor
    · rintro ⟨verdict, checked, valid⟩
      simp only [checkSafety, blank, if_pos] at checked
      obtain rfl := Option.some.inj checked
      contradiction
    · exact fun ⟨passes, _⟩ => absurd blank passes.nonblank
  · rw [← textIssues_empty case sql blank]
    constructor
    · rintro ⟨verdict, checked, valid⟩
      rw [checkSafety, if_neg blank] at checked
      obtain ⟨⟨astIssues, type, tables⟩, ast, rfl⟩ := Option.map_eq_some_iff.mp checked
      simp only [List.isEmpty_iff, List.append_eq_nil_iff] at valid
      obtain ⟨noText, noAst⟩ := valid
      exact ⟨noText, type, tables, by rw [ast, noAst]⟩
    · rintro ⟨noText, type, tables, ast⟩
      refine ⟨⟨true, [], type, tables⟩, ?_, rfl⟩
      rw [checkSafety, if_neg blank, ast, noText]
      rfl

/-- Kinds of a statement that only reads: SELECT, the set operations and a
parenthesised one. A leading WITH belongs to the statement it introduces. -/
def queryKinds : List String := ["select","union","intersect","except","subquery"]

/-- Kinds of the parts that make a query write: an INTO target, a writing CTE. -/
def writingKinds : List String := ["into","insert","update","delete","merge"]

def IsQuery (e : Expression) : Prop :=
  e.root.key ∈ queryKinds ∧ ∀ n ∈ e.below, n.key ∉ writingKinds

instance : Decidable (IsQuery e) := inferInstanceAs (Decidable (_ ∧ _))

end SafetyRules
end Nl2SqlAgent

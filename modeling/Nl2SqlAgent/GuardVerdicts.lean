import Nl2SqlAgent.Checks

/-! Which queries `check_safety` rejects, and on which texts it gives no verdict at all. -/
namespace Nl2SqlAgent

open Lib

namespace SafetyRules

/-- The parser found no statement: it raised, or every statement is `None`. -/
def Unparsed (sqlglot : Sqlglot) (sql dialect : String) : Prop :=
  ∀ parsed, sqlglot.parse sql dialect = .ok parsed → ∀ p ∈ parsed, p = none

/-- The parser returned a list of nothing but `None`, as for a text of semicolons or comments. -/
def OnlyGaps (sqlglot : Sqlglot) (sql dialect : String) : Prop :=
  ∃ parsed, sqlglot.parse sql dialect = .ok parsed ∧ parsed ≠ [] ∧ ∀ p ∈ parsed, p = none

section

variable {case : Py.Case} {sqlglot : Sqlglot} {sql dialect : String} {e : Expression} {env : Env}
  {s : AgentState}

theorem filterMap_id_eq_nil {parsed : List (Option Expression)} :
    parsed.filterMap id = [] ↔ ∀ p ∈ parsed, p = none := List.filterMap_eq_nil_iff

theorem query_allowed (query : IsQuery e) : forbiddenKind case e = false := by
  have ascii : ∀ key ∈ queryKinds, key.toList.all (·.val < 128) = true ∧
      (key.toList.map Char.toUpper).all (·.val < 128) = true := by decide
  obtain ⟨plain, upper⟩ := ascii _ query.1
  have allowed : ∀ key ∈ queryKinds,
      String.ofList ((key.toList.map Char.toUpper).map Char.toLower) ∉ astForbidden := by decide
  rw [forbiddenKind, statementType, case.upper_of_ascii (by simpa using plain),
    case.lower_of_ascii (by simpa using upper), String.toList_ofList]
  exact decide_eq_false (allowed _ query.1)

/-- Of the texts that parse to a pure query, those are accepted that pass the rules on the text. -/
theorem query_accepted_iff (parses : ParsesTo sqlglot sql dialect e) (query : IsQuery e) :
    Accepted case sqlglot sql dialect ↔ TextPasses case sql := by
  rw [accepted_iff]
  exact ⟨And.left, fun passes => ⟨passes, e, parses, query_allowed query⟩⟩

theorem astCheck_eq_none_iff : astCheck case sqlglot sql dialect = none ↔ OnlyGaps sqlglot sql dialect := by
  unfold astCheck OnlyGaps
  cases outcome : sqlglot.parse sql dialect with
  | error e => simp
  | ok parsed =>
    cases parsed with
    | nil => simp
    | cons first rest =>
      simp only [Except.ok.injEq, exists_eq_left', ne_eq, reduceCtorEq, not_false_eq_true, true_and]
      rw [← filterMap_id_eq_nil]
      rcases (first :: rest).filterMap id with _ | ⟨stmt, _ | ⟨second, others⟩⟩ <;> simp

theorem checkSafety_eq_none_iff (case : Py.Case) : checkSafety case sqlglot sql dialect = none ↔
    Py.strip sql ≠ "" ∧ OnlyGaps sqlglot sql dialect := by
  unfold checkSafety
  split
  next blank => simp [blank]
  next nonblank => simp [nonblank, astCheck_eq_none_iff]

theorem valid_eq {verdict : Verdict} (checked : checkSafety case sqlglot sql dialect = some verdict) :
    verdict.valid = verdict.issues.isEmpty := by
  unfold checkSafety at checked
  split at checked
  · obtain rfl := Option.some.inj checked
    rfl
  · obtain ⟨⟨astIssues, type, tables⟩, -, rfl⟩ := Option.map_eq_some_iff.mp checked
    simp only

theorem unparsed_invalid (unparsed : Unparsed sqlglot sql dialect) {verdict : Verdict}
    (checked : checkSafety case sqlglot sql dialect = some verdict) : verdict.valid = false := by
  apply Bool.eq_false_iff.mpr
  intro valid
  obtain ⟨-, e, ⟨parsed, ok, only⟩, -⟩ := (accepted_iff ..).mp ⟨verdict, checked, valid⟩
  rw [filterMap_id_eq_nil.mpr (unparsed parsed ok)] at only
  contradiction

theorem guard_eq_none_iff : Guard.node env s = none ↔
    Py.strip (s.sql.getD "") ≠ "" ∧
      OnlyGaps env.sqlglot (s.sql.getD "") (Guard.getSqlglotDialect s.databaseUrl) := by
  simp only [Guard.node, Option.map_eq_none_iff, checkSafety_eq_none_iff]

/-- The check and the node that calls it give a verdict, and a bad one where no statement was
parsed, if and only if it is not that a text that is not blank parses to nothing but `None`. -/
theorem verdict_given_iff (env : Env) :
    (∀ sql dialect,
      (∃ verdict, checkSafety env.case env.sqlglot sql dialect = some verdict ∧
        (Unparsed env.sqlglot sql dialect → verdict.valid = false)) ↔
      ¬ (Py.strip sql ≠ "" ∧ OnlyGaps env.sqlglot sql dialect)) ∧
    ∀ s : AgentState,
      let sql := s.sql.getD ""
      let dialect := Guard.getSqlglotDialect s.databaseUrl
      (∃ t, Guard.node env s = some t ∧
        (Unparsed env.sqlglot sql dialect → t.guardPass = some false)) ↔
      ¬ (Py.strip sql ≠ "" ∧ OnlyGaps env.sqlglot sql dialect) := by
  constructor
  · intro sql dialect
    rw [← checkSafety_eq_none_iff env.case]
    constructor
    · rintro ⟨verdict, checked, -⟩ none
      rw [none] at checked
      contradiction
    · intro given
      obtain ⟨verdict, checked⟩ := Option.ne_none_iff_exists'.mp given
      exact ⟨verdict, checked, fun unparsed => unparsed_invalid unparsed checked⟩
  · intro s sql dialect
    rw [← guard_eq_none_iff]
    constructor
    · rintro ⟨t, visit, -⟩ none
      rw [none] at visit
      contradiction
    · intro given
      obtain ⟨t, visit⟩ := Option.ne_none_iff_exists'.mp given
      refine ⟨t, visit, fun unparsed => ?_⟩
      obtain ⟨safety, checked, rfl⟩ := Option.map_eq_some_iff.mp visit
      have reported : safety.issues ≠ [] := by
        have invalid := unparsed_invalid unparsed checked
        rw [valid_eq checked] at invalid
        simpa using invalid
      simp [reported]

end

/-- `SELECT column FROM orders`. -/
def ofOrders (column : String) : Expression :=
  ⟨⟨"select","",""⟩, [⟨"column",column,""⟩, ⟨"table","orders",""⟩]⟩

def shopParse : String → Option Expression
  | "SELECT total FROM orders" => some (ofOrders "total")
  | "SELECT total FROM orders;" => some (ofOrders "total")
  | "SELECT created_at FROM orders" => some (ofOrders "created_at")
  | _ => none

/-- A parser that knows these texts only. -/
def shopParser : Sqlglot where
  parse sql _ := ((shopParse sql).map fun e => .ok [some e]).getD (.error "Invalid expression")
  parseOne sql _ := shopParse sql

theorem query_accepted_shop :
    Accepted .ascii shopParser "SELECT total FROM orders;" "sqlite" :=
  (query_accepted_iff (e := ofOrders "total") ⟨_, rfl, rfl⟩ (by decide)).mpr
    ⟨by decide +kernel, .inl (by decide +kernel), by decide +kernel, by decide +kernel⟩

theorem created_at_rejected :
    ParsesTo shopParser "SELECT created_at FROM orders" "sqlite" (ofOrders "created_at") ∧
    IsQuery (ofOrders "created_at") ∧
    ∃ verdict, checkSafety .ascii shopParser "SELECT created_at FROM orders" "sqlite" = some verdict ∧
      verdict.valid = false ∧
      verdict.issues = [⟨"forbidden_keyword","Forbidden keyword: CREATE. Only SELECT/WITH allowed."⟩] :=
  ⟨⟨_, rfl, rfl⟩, by decide, _, rfl, by decide +kernel, by decide +kernel⟩

def emptyParser : Sqlglot where
  parse _ _ := .ok [none]
  parseOne _ _ := none

/-- A text of one semicolon raises, in the check and in the node. -/
theorem semicolon_raises :
    checkSafety .ascii emptyParser ";" "sqlite" = none ∧
    Guard.node { Env.plain with sqlglot := emptyParser }
      { question := "How many?", sql := some ";" } = none := by
  decide +kernel

end SafetyRules
end Nl2SqlAgent

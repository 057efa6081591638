import Nl2SqlAgent.SafetyRules

/-! `guard/ast_validator.py`, the other copy of the check on the parsed statement. -/
namespace Nl2SqlAgent

open Lib

namespace AstValidator

open SafetyRules

/-- `_FORBIDDEN_KEYWORDS`, in the source's spelling. -/
def forbiddenKeywords : List String :=
  ["insert","delete","drop","alter","create","truncate","update","pragama"]

def kind (case : Py.Case) (e : Expression) : String := case.lower e.root.key

/-- The loop over the statements: the first one on the list ends it. -/
def kindIssues (case : Py.Case) : List Expression → List Issue
  | [] => []
  | stmt :: rest =>
    if kind case stmt ∈ forbiddenKeywords then
      [⟨"ast_forbidden","Forbidden statement type: " ++ case.upper (kind case stmt) ++
        ". Only SELECT/WITH allowed."⟩]
    else kindIssues case rest

def validateSqlAst (case : Py.Case) (sqlglot : Sqlglot) (sql dialect : String) : Bool × List Issue :=
  if Py.strip sql = "" then (false, [⟨"ast_syntax","Empty SQL"⟩])
  else
    match sqlglot.parse sql dialect with
    | .error e => (false, [⟨"ast_syntax","SQL parse error: " ++ Py.take 200 e⟩])
    | .ok [] => (false, [⟨"ast_syntax","SQL parsed to empty AST"⟩])
    | .ok parsed =>
      let statements := parsed.filterMap id
      if 1 < statements.length then (false, [multipleStatements "ast_structure" statements.length])
      else
        let issues := kindIssues case statements
        (issues.isEmpty, issues)

/-- Both return, the one reports valid when the other reports nothing, and they report issues
of the same types. -/
def Agree (case : Py.Case) (sqlglot : Sqlglot) (sql dialect : String) : Prop :=
  let validated := validateSqlAst case sqlglot sql dialect
  ∃ issues type tables, astCheck case sqlglot sql dialect = some (issues, type, tables) ∧
    (validated.1 = true ↔ issues = []) ∧ validated.2.map Issue.type = issues.map Issue.type

def SameList (case : Py.Case) (e : Expression) : Prop :=
  forbiddenKind case e = true ↔ kind case e ∈ forbiddenKeywords

/-- Nothing parsed at all, or a text that is not blank parsed to several statements or to one that
both lists have or neither has. -/
inductive Agreeable (case : Py.Case) (sqlglot : Sqlglot) (sql dialect : String) : Prop where
  | raised (e : String) (outcome : sqlglot.parse sql dialect = .error e)
  | empty (outcome : sqlglot.parse sql dialect = .ok [])
  | several (parsed : List (Option Expression)) (nonblank : Py.strip sql ≠ "")
      (outcome : sqlglot.parse sql dialect = .ok parsed) (many : 1 < (parsed.filterMap id).length)
  | one (e : Expression) (nonblank : Py.strip sql ≠ "") (parses : ParsesTo sqlglot sql dialect e)
      (listed : SameList case e)

section

variable {case : Py.Case} {sqlglot : Sqlglot} {sql dialect : String}

theorem kindIssues_one (e : Expression) : kindIssues case [e] =
    if kind case e ∈ forbiddenKeywords then
      [⟨"ast_forbidden","Forbidden statement type: " ++ case.upper (kind case e) ++
        ". Only SELECT/WITH allowed."⟩]
    else [] := rfl

theorem validateSqlAst_blank (blank : Py.strip sql = "") :
    validateSqlAst case sqlglot sql dialect = (false, [⟨"ast_syntax","Empty SQL"⟩]) := if_pos blank

theorem agree_one_iff {e : Expression} (nonblank : Py.strip sql ≠ "")
    (parses : ParsesTo sqlglot sql dialect e) :
    Agree case sqlglot sql dialect ↔ SameList case e := by
  obtain ⟨parsed, outcome, only⟩ := parses
  rcases parsed with _ | ⟨first, rest⟩
  · cases only
  · simp only [Agree, validateSqlAst, if_neg nonblank, astCheck, outcome, only, List.length_singleton,
      Nat.lt_irrefl, if_false, kindIssues_one, SameList]
    by_cases forbidden : forbiddenKind case e = true <;>
      by_cases listed : kind case e ∈ forbiddenKeywords <;> simp [forbidden, listed]

theorem agree_several {parsed : List (Option Expression)} (nonblank : Py.strip sql ≠ "")
    (outcome : sqlglot.parse sql dialect = .ok parsed) (many : 1 < (parsed.filterMap id).length) :
    Agree case sqlglot sql dialect := by
  rcases parsed with _ | ⟨first, rest⟩
  · cases many
  · simp only [Agree, validateSqlAst, if_neg nonblank, astCheck, outcome, many, if_true]
    rcases shape : (first :: rest).filterMap id with _ | ⟨a, _ | ⟨b, others⟩⟩
    · exact absurd many (by rw [shape]; decide)
    · exact absurd many (by rw [shape]; simp)
    · simp [multipleStatements]

/-- No check of what was parsed reports a syntax error. -/
theorem astCheck_parsed {first : Option Expression} {rest : List (Option Expression)} {issues : List Issue}
    {type : String} {tables : List String} (outcome : sqlglot.parse sql dialect = .ok (first :: rest))
    (checked : astCheck case sqlglot sql dialect = some (issues, type, tables)) :
    (first :: rest).filterMap id ≠ [] ∧ issues.map Issue.type ≠ ["ast_syntax"] := by
  simp only [astCheck, outcome] at checked
  rcases shape : (first :: rest).filterMap id with _ | ⟨e, _ | ⟨second, others⟩⟩
  · rw [shape] at checked
    contradiction
  · rw [shape] at checked
    obtain ⟨rfl, -⟩ := Prod.mk.inj (Option.some.inj checked)
    refine ⟨nofun, ?_⟩
    split <;> simp
  · rw [shape] at checked
    obtain ⟨rfl, -⟩ := Prod.mk.inj (Option.some.inj checked)
    exact ⟨nofun, by simp [multipleStatements]⟩

/-- The two validators agree in these cases and in no other. -/
theorem validators_agree_iff (case : Py.Case) (sqlglot : Sqlglot) (sql dialect : String) :
    Agree case sqlglot sql dialect ↔ Agreeable case sqlglot sql dialect := by
  constructor
  · intro agree
    cases outcome : sqlglot.parse sql dialect with
    | error e => exact .raised e outcome
    | ok parsed =>
      rcases parsed with _ | ⟨first, rest⟩
      · exact .empty outcome
      · obtain ⟨issues, type, tables, checked, -, types⟩ := id agree
        obtain ⟨found, structural⟩ := astCheck_parsed outcome checked
        by_cases blank : Py.strip sql = ""
        · -- the validator calls a blank text a syntax error
          rw [validateSqlAst_blank blank] at types
          exact absurd types.symm structural
        · rcases shape : (first :: rest).filterMap id with _ | ⟨e, _ | ⟨second, others⟩⟩
          · exact absurd shape found
          · have parses : ParsesTo sqlglot sql dialect e := ⟨_, outcome, shape⟩
            exact .one e blank parses ((agree_one_iff blank parses).mp agree)
          · exact .several _ blank outcome (by rw [shape]; simp)
  · intro agreeable
    cases agreeable with
    | raised e outcome =>
      have checked : astCheck case sqlglot sql dialect =
          some ([⟨"ast_syntax","SQL parse error: " ++ Py.take 200 e⟩], "", []) := by
        simp only [astCheck, outcome]
      refine ⟨_, _, _, checked, ?_⟩
      by_cases blank : Py.strip sql = "" <;> simp [validateSqlAst, blank, outcome]
    | empty outcome =>
      have checked : astCheck case sqlglot sql dialect =
          some ([⟨"ast_syntax","SQL parsed to empty AST."⟩], "", []) := by
        simp only [astCheck, outcome]
      refine ⟨_, _, _, checked, ?_⟩
      by_cases blank : Py.strip sql = "" <;> simp [validateSqlAst, blank, outcome]
    | several parsed nonblank outcome many => exact agree_several nonblank outcome many
    | one e nonblank parses listed => exact (agree_one_iff nonblank parses).mpr listed

end

theorem lower_letter {c : Char} (letter : c.isLower = true) :
    c.val < 128 ∧ c.toUpper.val < 128 ∧ c.toUpper.toLower = c ∧ c.toLower = c := by
  have ascii : c.val < 128 := by
    have upper : c.val ≤ 122 := of_decide_eq_true (Bool.and_eq_true_iff.mp letter).2
    exact UInt32.lt_of_le_of_lt upper (by decide)
  have table := Py.ascii_table (P := fun c => c.isLower = true → c.toUpper.val < 128 ∧
    c.toUpper.toLower = c ∧ c.toLower = c) (by decide) ascii
  exact ⟨ascii, table letter⟩

/-- The two lists differ in one entry, as the one misspells it. -/
theorem sameList_iff {case : Py.Case} {e : Expression} (letters : ∀ c ∈ e.root.key.toList, c.isLower = true) :
    SameList case e ↔ e.root.key ≠ "pragma" ∧ e.root.key ≠ "pragama" := by
  have ascii : ∀ c ∈ e.root.key.toList, c.val < 128 := fun c member => (lower_letter (letters c member)).1
  have uppers : ∀ c ∈ e.root.key.toList.map Char.toUpper, c.val < 128 := by
    intro c member
    obtain ⟨d, inside, rfl⟩ := List.mem_map.mp member
    exact (lower_letter (letters d inside)).2.1
  have back : case.lower (case.upper e.root.key) = e.root.key := by
    have chars : e.root.key.toList.map (Char.toLower ∘ Char.toUpper) = e.root.key.toList.map id :=
      List.map_congr_left fun c member => (lower_letter (letters c member)).2.2.1
    rw [case.upper_of_ascii ascii, case.lower_of_ascii (by simpa using uppers), String.toList_ofList,
      List.map_map, chars]
    simp
  have same : case.lower e.root.key = e.root.key := by
    have chars : e.root.key.toList.map Char.toLower = e.root.key.toList.map id :=
      List.map_congr_left fun c member => (lower_letter (letters c member)).2.2.2
    rw [case.lower_of_ascii ascii, chars]
    simp
  simp only [SameList, forbiddenKind, statementType, kind, back, same, decide_eq_true_eq]
  by_cases first : e.root.key = "pragma"
  · rw [first]
    decide
  · by_cases second : e.root.key = "pragama"
    · rw [second]
      decide
    · simp [astForbidden, forbiddenKeywords, first, second]

theorem pragma_disagree :
    let sqlglot : Sqlglot := ⟨fun _ _ => .ok [some ⟨⟨"pragma","",""⟩, []⟩],
      fun _ _ => some ⟨⟨"pragma","",""⟩, []⟩⟩
    let sql := "PRAGMA table_info(users)"
    validateSqlAst .ascii sqlglot sql "sqlite" = (true, []) ∧
      astCheck .ascii sqlglot sql "sqlite" =
        some ([⟨"ast_forbidden","Forbidden statement type: PRAGMA. Only SELECT/WITH allowed."⟩], "PRAGMA", []) ∧
      ¬ Agree .ascii sqlglot sql "sqlite" := by
  intro sqlglot sql
  have valid : validateSqlAst .ascii sqlglot sql "sqlite" = (true, []) := by decide +kernel
  have checked : astCheck .ascii sqlglot sql "sqlite" =
      some ([⟨"ast_forbidden","Forbidden statement type: PRAGMA. Only SELECT/WITH allowed."⟩],
        "PRAGMA", []) := by
    decide +kernel
  refine ⟨valid, checked, ?_⟩
  rintro ⟨issues, type, tables, reported, passes, -⟩
  have nothing := passes.mp (congrArg Prod.fst valid)
  rw [checked, nothing] at reported
  cases reported

end AstValidator
end Nl2SqlAgent

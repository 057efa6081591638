import Mathlib.Data.List.Perm.Subperm
import Nl2SqlAgent.Lib.SqlNesting
import Nl2SqlAgent.SqlExecutor

/-! `execute_sql` of `tools/sql_executor.py`: which statements keep their rows, and at most
`max_rows` of them, once they are put into a derived table. -/
namespace Nl2SqlAgent

open Lib

namespace CappedExecution

open SafetyRules SqlExecutor
open Lib.Sql (Lexis)

/-- `sql.strip().rstrip(";")`. -/
def bare (sql : String) : String := Py.rstripChar ';' (Py.strip sql)

def mentionsLimit (case : Py.Case) (sql : String) : Bool :=
  Py.contains "LIMIT" (case.upper (bare sql))

/-- The statement as a derived table. -/
def derivedText (statement : String) : String := "SELECT * FROM (" ++ statement ++ ") AS _sub"

def limitedText (statement : String) (maxRows : ℤ) : String :=
  "SELECT * FROM (" ++ statement ++ ") AS _sub LIMIT " ++ toString maxRows

/-- `sql_to_run`, for any integer. -/
def sqlToRun (env : Env) (sql : String) (maxRows : ℤ) : String :=
  if mentionsLimit env.case sql then bare sql else limitedText (bare sql) maxRows

/-- `execute_sql`, for any integer. `database` is `conn.execute(text(..))` with what it makes of
a text before the server sees it: a word behind a colon is a parameter, for which there is no
value, and such a text raises. -/
def executeSql (env : Env) (database : Database) (sql : String) (maxRows : ℤ)
    (databaseUrl : Option String) : Option String × Option RunOutcome :=
  match checkSafety env.case env.sqlglot sql (dialectOf databaseUrl) with
  | none => (none, none)
  | some safety =>
    if safety.valid then
      let text := sqlToRun env sql maxRows
      match database databaseUrl text with
      | .ok (data, columns) => (some text, some (.rows data columns))
      | .error e => (some text, (errorType env e).map fun type => .failed e (some type))
    else
      let reason := (safety.issues.head?.map Issue.detail).getD "Unknown validation error"
      (none, some (.failed reason (some "sql_validation")))

/-- For the callers' row caps it is the executor of the other modules. -/
theorem executeSql_natCast (env : Env) (database : Database) (sql : String) (maxRows : ℕ)
    (url : Option String) : executeSql env database sql maxRows url =
      SqlExecutor.executeSql env database sql maxRows url := rfl

/-- `conn.execute(text(..))` at one address. -/
abbrev Runs := String → Except String (List Row × List String)

/-- The text is executed, with these rows in some order. -/
def Answers (run : Runs) (text : String) (rows : List Row) : Prop :=
  ∃ data columns, run text = .ok (data, columns) ∧ data.Perm rows

def Executes (run : Runs) (text : String) : Prop := ∃ rows, Answers run text rows

/-- At most `maxRows` of the rows, and all where they are no more. -/
structure Capped (rows : List Row) (maxRows : ℤ) (data : List Row) : Prop where
  few : (data.length : ℤ) ≤ maxRows
  part : data.Subperm rows
  all : (rows.length : ℤ) ≤ maxRows → data.Perm rows

/-- The call succeeds and keeps to the cap and the rows. -/
def CappedFaithful (outcome : Option RunOutcome) (rows : List Row) (maxRows : ℤ) : Prop :=
  ∃ data columns, outcome = some (.rows data columns) ∧ Capped rows maxRows data

/-- What the executor relies on in the database, for one statement: what `strip` takes away has no
meaning, parentheses match in all that is executed, and a derived table has the rows of its
statement, of which a limit keeps as many as it says. -/
structure Reads (L : Lexis) (run : Runs) (sql : String) (rows : List Row) (maxRows : ℤ) : Prop where
  opens : L.read L.start "SELECT * FROM (".toList = (L.start, [.opening])
  nested : ∀ text, Executes run text → Sql.nested 0 (L.marks text.toList) = true
  trimmed : Answers run sql rows → Answers run (bare sql) rows
  derived : ∀ found, L.Closed (bare sql).toList → Answers run (bare sql) rows →
    Answers run (derivedText (bare sql)) found → found.Perm rows
  limited : ∀ found, 0 ≤ maxRows → Answers run (derivedText (bare sql)) found →
    ∃ kept, Answers run (limitedText (bare sql) maxRows) kept ∧ kept.Subperm found ∧
      (kept.length : ℤ) = min maxRows found.length
  invalid : Executes run (limitedText (bare sql) maxRows) → Executes run (derivedText (bare sql))

section

variable {env : Env} {database : Database} {sql : String} {maxRows : ℤ} {url : Option String}
  {L : Lexis} {run : Runs} {rows : List Row}

/-- What is returned for an accepted statement is what the database gives for the text. -/
theorem executeSql_rows_iff (accepted : Accepted env.case env.sqlglot sql (dialectOf url)) :
    (executeSql env database sql maxRows url).2 = some (.rows data columns) ↔
      database url (sqlToRun env sql maxRows) = .ok (data, columns) := by
  obtain ⟨safety, checked, valid⟩ := accepted
  simp only [executeSql, checked, valid, if_true]
  cases database url (sqlToRun env sql maxRows) with
  | ok answer => simp [Prod.ext_iff]
  | error e => cases errorType env e <;> simp

theorem capped_iff (accepted : Accepted env.case env.sqlglot sql (dialectOf url)) :
    CappedFaithful (executeSql env database sql maxRows url).2 rows maxRows ↔
      ∃ data, Answers (database url) (sqlToRun env sql maxRows) data ∧ Capped rows maxRows data := by
  constructor
  · rintro ⟨data, columns, given, capped⟩
    exact ⟨data, ⟨data, columns, (executeSql_rows_iff accepted).mp given, .refl _⟩, capped⟩
  · rintro ⟨data, ⟨found, columns, ran, same⟩, few, part, all⟩
    refine ⟨found, columns, (executeSql_rows_iff accepted).mpr ran, ?_, ?_, ?_⟩
    · rwa [same.length_eq]
    · exact same.subperm.trans part
    · exact fun fits => same.trans (all fits)

theorem not_capped (given : outcome = some (.rows data columns)) (many : maxRows < data.length) :
    ¬ CappedFaithful outcome rows maxRows := by
  rintro ⟨data', columns', returned, capped⟩
  cases given.symm.trans returned
  exact absurd capped.few (not_le.mpr many)

theorem not_faithful (given : outcome = some (.failed e type)) : ¬ CappedFaithful outcome rows maxRows := by
  rintro ⟨data, columns, returned, -⟩
  cases given.symm.trans returned

theorem Answers.unique (first : Answers run text rows) (second : Answers run text rows') :
    rows.Perm rows' := by
  obtain ⟨data, columns, ran, same⟩ := first
  obtain ⟨data', columns', ran', same'⟩ := second
  obtain ⟨rfl, rfl⟩ := Prod.mk.inj (Except.ok.inj (ran.symm.trans ran'))
  exact same.symm.trans same'

/-- A statement that is executed as a derived table can be read as one. -/
theorem Reads.closed (reads : Reads L run sql rows maxRows) (alone : Executes run (bare sql))
    (inside : Executes run (derivedText (bare sql))) : L.Closed (bare sql).toList := by
  have wrapped := reads.nested _ inside
  change Sql.nested 0 (L.marks ("SELECT * FROM (" ++ bare sql ++ ") AS _sub").toList) = true at wrapped
  rw [String.toList_append, String.toList_append] at wrapped
  exact Sql.Lexis.closed_of_nested reads.opens (by decide) (by decide) (by decide)
    (reads.nested _ alone) wrapped

theorem bare_capped_iff (answer : Answers run (bare sql) rows) :
    (∃ data, Answers run (bare sql) data ∧ Capped rows maxRows data) ↔ (rows.length : ℤ) ≤ maxRows := by
  constructor
  · rintro ⟨data, given, capped⟩
    rw [← (given.unique answer).length_eq]
    exact capped.few
  · intro few
    exact ⟨rows, answer, few, (List.Perm.refl _).subperm, fun _ => .refl _⟩

/-- The wrapped statement keeps the cap, and its rows, where the database takes it. -/
theorem limited_capped_iff (reads : Reads L run sql rows maxRows)
    (answer : Answers run (bare sql) rows) :
    (∃ data, Answers run (limitedText (bare sql) maxRows) data ∧ Capped rows maxRows data) ↔
      0 ≤ maxRows ∧ L.Closed (bare sql).toList ∧ Executes run (derivedText (bare sql)) := by
  constructor
  · rintro ⟨data, given, capped⟩
    have inside := reads.invalid ⟨data, given⟩
    exact ⟨le_trans (Int.natCast_nonneg _) capped.few, reads.closed ⟨rows, answer⟩ inside, inside⟩
  · rintro ⟨positive, closed, found, inside⟩
    have same := reads.derived found closed answer inside
    obtain ⟨kept, given, part, count⟩ := reads.limited found positive inside
    have short : kept.Subperm rows := part.trans same.subperm
    rw [same.length_eq] at count
    refine ⟨kept, given, ?_, short, fun fits => ?_⟩
    · omega
    · exact short.perm_of_length_le (by omega)

end

/-- `execute_sql` is capped and faithful exactly for the statements with few enough rows among those
that mention a limit, and among the others for those that the database takes as a derived table,
which end outside of comments and have no semicolon left. -/
theorem executeSql_capped_iff (env : Env) (database : Database) (L : Lexis) (sql : String)
    (maxRows : ℤ) (url : Option String) (rows : List Row)
    (accepted : Accepted env.case env.sqlglot sql (dialectOf url))
    (executed : Answers (database url) sql rows) (reads : Reads L (database url) sql rows maxRows) :
    CappedFaithful (executeSql env database sql maxRows url).2 rows maxRows ↔
      (mentionsLimit env.case sql = true ∧ (rows.length : ℤ) ≤ maxRows) ∨
      (mentionsLimit env.case sql = false ∧ 0 ≤ maxRows ∧ L.Closed (bare sql).toList ∧
        Executes (database url) (derivedText (bare sql))) := by
  have answer := reads.trimmed executed
  rw [capped_iff accepted, sqlToRun]
  cases mentions : mentionsLimit env.case sql with
  | true => simpa using bare_capped_iff answer
  | false => simpa using limited_capped_iff reads answer

/-- What three customers may owe. -/
def credits : List Row := [[.num 100],[.num 250],[.num 400]]

/-- A database that runs one query, alone or also as a derived table. -/
def shopDatabase (query column : String) (derivable : Bool) : Database := fun _ text =>
  if text = query then .ok (credits, [column])
  else if derivable = true ∧ text = derivedText query then .ok (credits, [column])
  else if derivable = true ∧ text = limitedText query 2 then .ok (credits.take 2, [column])
  else .error "incomplete input"

theorem derivedText_length (query : String) : (derivedText query).length = query.length + 24 := by
  have front : "SELECT * FROM (".length = 15 := by decide
  have back : ") AS _sub".length = 9 := by decide
  change ("SELECT * FROM (" ++ query ++ ") AS _sub").length = _
  simp only [String.length_append, front, back]
  omega

theorem limitedText_length (query : String) : (limitedText query 2).length = query.length + 32 := by
  have front : "SELECT * FROM (".length = 15 := by decide
  have back : ") AS _sub LIMIT ".length = 16 := by decide
  have digits : (toString (2 : ℤ)).length = 1 := by decide
  change ("SELECT * FROM (" ++ query ++ ") AS _sub LIMIT " ++ toString (2 : ℤ)).length = _
  simp only [String.length_append, front, back, digits]
  omega

theorem ne_of_longer {s t : String} (longer : s.length < t.length) : t ≠ s := by
  rintro rfl
  exact lt_irrefl _ longer

section

variable {query column : String} {derivable : Bool} {url : Option String}

theorem shop_query : shopDatabase query column derivable url query = .ok (credits, [column]) :=
  if_pos rfl

theorem shop_derived : shopDatabase query column derivable url (derivedText query) =
    if derivable then .ok (credits, [column]) else .error "incomplete input" := by
  have apart : derivedText query ≠ query := ne_of_longer (by rw [derivedText_length]; omega)
  cases derivable <;> simp [shopDatabase, apart]

theorem shop_limited : shopDatabase query column derivable url (limitedText query 2) =
    if derivable then .ok (credits.take 2, [column]) else .error "incomplete input" := by
  have apart : limitedText query 2 ≠ query := ne_of_longer (by rw [limitedText_length]; omega)
  have longer : limitedText query 2 ≠ derivedText query :=
    ne_of_longer (by rw [limitedText_length, derivedText_length]; omega)
  cases derivable <;> simp [shopDatabase, apart, longer]

theorem shop_executes (executed : Executes (shopDatabase query column derivable url) text) :
    text = query ∨ derivable = true ∧ (text = derivedText query ∨ text = limitedText query 2) := by
  obtain ⟨rows, data, columns, ran, -⟩ := executed
  unfold shopDatabase at ran
  split at ran
  next equal => exact .inl equal
  split at ran
  next equal => exact .inr ⟨equal.1, .inl equal.2⟩
  split at ran
  next equal => exact .inr ⟨equal.1, .inr equal.2⟩
  cases ran

theorem shop_answers : Answers (shopDatabase query column derivable url) query credits :=
  ⟨credits, [column], shop_query, .refl _⟩

/-- The database is as the executor takes it to be, for its query and two rows. -/
theorem shop_reads (own : bare query = query)
    (alone : Sql.nested 0 (Sql.ansi.marks query.toList) = true)
    (wrapped : derivable = true → Sql.nested 0 (Sql.ansi.marks (derivedText query).toList) = true ∧
      Sql.nested 0 (Sql.ansi.marks (limitedText query 2).toList) = true) :
    Reads Sql.ansi (shopDatabase query column derivable url) query credits 2 where
  opens := by decide
  nested text executed := by
    rcases shop_executes executed with rfl | ⟨derivable, rfl | rfl⟩
    · exact alone
    · exact (wrapped derivable).1
    · exact (wrapped derivable).2
  trimmed answers := by rwa [own]
  derived _ _ _ inside := by
    rw [own] at inside
    obtain ⟨data, columns, ran, same⟩ := inside
    rw [shop_derived] at ran
    cases derivable with
    | false => cases ran
    | true =>
      cases ran
      exact same.symm
  limited _ _ inside := by
    rw [own] at inside ⊢
    obtain ⟨data, columns, ran, same⟩ := inside
    rw [shop_derived] at ran
    cases derivable with
    | false => cases ran
    | true =>
      cases ran
      refine ⟨credits.take 2, ⟨_, _, shop_limited, .refl _⟩, ?_, ?_⟩
      · exact (List.take_sublist 2 credits).subperm.trans same.subperm
      · rw [← same.length_eq]
        rfl
  invalid executed := by
    rw [own] at executed ⊢
    obtain ⟨rows, data, columns, ran, -⟩ := executed
    rw [shop_limited] at ran
    cases derivable with
    | false => cases ran
    | true => exact ⟨credits, credits, [column], shop_derived, .refl _⟩

end

theorem executeSql_capped_iff_credit : CappedFaithful
    (executeSql Env.plain (shopDatabase "SELECT credit FROM customers" "credit" true)
      "SELECT credit FROM customers" 2 (some "sqlite:///shop.db")).2 credits 2 := by
  have reads : Reads Sql.ansi
      (shopDatabase "SELECT credit FROM customers" "credit" true (some "sqlite:///shop.db"))
      "SELECT credit FROM customers" credits 2 :=
    shop_reads (by decide +kernel) (by decide +kernel) (fun _ => by decide +kernel)
  have accepted : Accepted Env.plain.case Env.plain.sqlglot "SELECT credit FROM customers"
      (dialectOf (some "sqlite:///shop.db")) := ⟨_, rfl, by decide +kernel⟩
  apply (executeSql_capped_iff Env.plain _ Sql.ansi _ 2 _ credits accepted shop_answers reads).mpr
  refine .inr ⟨by decide +kernel, by decide, ⟨by decide +kernel, by decide +kernel⟩, credits, ?_⟩
  rw [show bare "SELECT credit FROM customers" = "SELECT credit FROM customers" by decide +kernel]
  exact ⟨credits, ["credit"], shop_derived, .refl _⟩

def namedColumn : String := "SELECT credit_limit FROM customers"

def largerLimit : String := "SELECT credit FROM customers LIMIT 5000"

def lastComment : String := "SELECT credit FROM customers -- all of them"

/-- Two statements lose the cap of two rows, one fails. -/
theorem cap_lost :
    (Accepted .ascii Env.plain.sqlglot namedColumn "sqlite" ∧
      Reads Sql.ansi (shopDatabase namedColumn "credit_limit" true none) namedColumn credits 2 ∧
      ¬ CappedFaithful (executeSql Env.plain (shopDatabase namedColumn "credit_limit" true)
        namedColumn 2 none).2 credits 2) ∧
    (Accepted .ascii Env.plain.sqlglot largerLimit "sqlite" ∧
      Reads Sql.ansi (shopDatabase largerLimit "credit" true none) largerLimit credits 2 ∧
      ¬ CappedFaithful (executeSql Env.plain (shopDatabase largerLimit "credit" true)
        largerLimit 2 none).2 credits 2) ∧
    (Accepted .ascii Env.plain.sqlglot lastComment "sqlite" ∧
      Reads Sql.ansi (shopDatabase lastComment "credit" false none) lastComment credits 2 ∧
      (executeSql Env.plain (shopDatabase lastComment "credit" false) lastComment 2 none).2 =
        some (.failed "incomplete input" (some "execution_error")) ∧
      ¬ CappedFaithful (executeSql Env.plain (shopDatabase lastComment "credit" false)
        lastComment 2 none).2 credits 2) := by
  have failed : (executeSql Env.plain (shopDatabase lastComment "credit" false) lastComment 2 none).2 =
      some (.failed "incomplete input" (some "execution_error")) := by decide +kernel
  refine ⟨⟨⟨_, rfl, by decide +kernel⟩, ?_, ?_⟩, ⟨⟨_, rfl, by decide +kernel⟩, ?_, ?_⟩,
    ⟨_, rfl, by decide +kernel⟩, ?_, failed, not_faithful failed⟩
  · exact shop_reads (by decide +kernel) (by decide +kernel) (fun _ => by decide +kernel)
  · have given : (executeSql Env.plain (shopDatabase namedColumn "credit_limit" true)
        namedColumn 2 none).2 = some (.rows credits ["credit_limit"]) := by decide +kernel
    exact not_capped given (by decide)
  · exact shop_reads (by decide +kernel) (by decide +kernel) (fun _ => by decide +kernel)
  · have given : (executeSql Env.plain (shopDatabase largerLimit "credit" true)
        largerLimit 2 none).2 = some (.rows credits ["credit"]) := by decide +kernel
    exact not_capped given (by decide)
  · exact shop_reads (by decide +kernel) (by decide +kernel) (fun derivable => by cases derivable)

end CappedExecution
end Nl2SqlAgent

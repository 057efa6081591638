import Nl2SqlAgent.AgentState

/-! `tools/sql_executor.py`: the gate in front of the database, and what of a
generated text gets through it. -/
namespace Nl2SqlAgent

open Lib

namespace SqlExecutor

open SafetyRules

/-- The dialect in which a statement for this database is checked. -/
def dialectOf (databaseUrl : Option String) : String :=
  if Py.startsWith "postgresql" (databaseUrl.getD "") then "postgres"
  else if Py.startsWith "mysql" (databaseUrl.getD "") then "mysql"
  else "sqlite"

/-- The text for the database: capped, unless it mentions a limit itself. -/
def sqlToRun (env : Env) (sql : String) (maxRows : Nat) : String :=
  let bare := Py.rstripChar ';' (Py.strip sql)
  if Py.contains "LIMIT" (env.case.upper bare) then bare
  else "SELECT * FROM (" ++ bare ++ ") AS _sub LIMIT " ++ toString maxRows

/-- A database answers a text with rows and columns or with an error. -/
abbrev Database := Option String → String → Except String (List Row × List String)

def errorType (env : Env) (error : String) : Option String :=
  if Py.contains "timeout" (env.case.lower error) || Py.contains "timed out" (env.case.lower error)
  then some "timeout" else env.classifyExecError error

/-- `execute_sql`: the text the database was given, if any, and what the call
returns, if it does not raise. -/
def executeSql (env : Env) (database : Database) (sql : String) (maxRows : Nat)
    (databaseUrl : Option String) : Option String × Option RunOutcome :=
  match checkSafety env.case env.sqlglot sql (dialectOf databaseUrl) with
  | none => (none, none)
  | some safety =>
    if safety.valid then
      let text := sqlToRun env sql maxRows
      match database databaseUrl text with
      | .ok (data, columns) => (some text, some (.rows data columns))
      | .error e => (some text, (errorType env e).map fun type => .failed e (some type))
    else
      let reason := (safety.issues.head?.map Issue.detail).getD "Unknown validation error"
      (none, some (.failed reason (some "sql_validation")))

theorem executeSql_handed (env : Env) (database : Database) (sql : String) (maxRows : Nat)
    (databaseUrl : Option String) :
    (executeSql env database sql maxRows databaseUrl).1 = some text ↔
      Accepted env.case env.sqlglot sql (dialectOf databaseUrl) ∧ text = sqlToRun env sql maxRows := by
  unfold executeSql Accepted
  cases checked : checkSafety env.case env.sqlglot sql (dialectOf databaseUrl) with
  | none => simp
  | some safety =>
    by_cases valid : safety.valid = true
    · simp only [valid, if_true]
      constructor
      · intro handed
        refine ⟨⟨safety, rfl, valid⟩, ?_⟩
        split at handed <;> simp only [Option.some.injEq] at handed <;> exact handed.symm
      · rintro ⟨-, same⟩
        rw [same]
        split <;> simp only
    · simp only [valid]
      constructor
      · simp
      · rintro ⟨⟨other, same, otherValid⟩, -⟩
        obtain rfl := Option.some.inj same
        contradiction

/-- The statement that the text stands for is one query and nothing else. -/
def OneQuery (sqlglot : Sqlglot) (sql dialect : String) : Prop :=
  ∃ e, ParsesTo sqlglot sql dialect e ∧ IsQuery e

/-- Neither list has the statement: the text passes the first level and is one
statement that is no query, of a kind the second level does not name. -/
structure Overlooked (env : Env) (sql dialect : String) : Prop where
  text : TextPasses env.case sql
  statement : ∃ e, ParsesTo env.sqlglot sql dialect e ∧ forbiddenKind env.case e = false ∧
    ¬ IsQuery e

theorem accepted_query_iff (env : Env) (sql dialect : String) :
    (Accepted env.case env.sqlglot sql dialect → OneQuery env.sqlglot sql dialect) ↔
      ¬ Overlooked env sql dialect := by
  rw [accepted_iff]
  constructor
  · rintro sound ⟨text, e, parses, allowed, other⟩
    obtain ⟨e', parses', query⟩ := sound ⟨text, e, parses, allowed⟩
    rw [parses.unique parses'] at other
    exact other query
  · rintro complete ⟨text, e, parses, allowed⟩
    refine ⟨e, parses, ?_⟩
    by_contra other
    exact complete ⟨text, e, parses, allowed, other⟩

/-- What reaches the database is one query, in every dialect and for every database,
exactly for the statements that are not overlooked. -/
theorem only_queries_pass_iff (env : Env) (database : Database) (sql : String) (maxRows : Nat) :
    (∀ dialect, (Accepted env.case env.sqlglot sql dialect → OneQuery env.sqlglot sql dialect) ↔
      ¬ Overlooked env sql dialect) ∧
    (∀ url, (∀ text, (executeSql env database sql maxRows url).1 = some text →
      OneQuery env.sqlglot sql (dialectOf url)) ↔ ¬ Overlooked env sql (dialectOf url)) := by
  refine ⟨accepted_query_iff env sql, fun url => ?_⟩
  rw [← accepted_query_iff]
  constructor
  · intro sound accepted
    exact sound (sqlToRun env sql maxRows) ((executeSql_handed ..).mpr ⟨accepted, rfl⟩)
  · intro sound text handed
    exact sound ((executeSql_handed ..).mp handed).1

/-- An export to a file of the server: no query, and on neither list. -/
def copyOut : String := "COPY (SELECT name FROM users LIMIT 5) TO '/tmp/out'"

def copyParsed : Expression :=
  ⟨⟨"copy","",""⟩, [⟨"select","",""⟩, ⟨"column","name",""⟩, ⟨"from","users",""⟩,
    ⟨"limit","",""⟩, ⟨"literal","/tmp/out",""⟩, ⟨"identifier","name",""⟩, ⟨"table","users",""⟩,
    ⟨"literal","5",""⟩, ⟨"identifier","users",""⟩]⟩

def copyEnv : Env :=
  { Env.plain with sqlglot := ⟨fun _ _ => .ok [some copyParsed], fun _ _ => some copyParsed⟩ }

theorem copy_reaches_database :
    Accepted copyEnv.case copyEnv.sqlglot copyOut "postgres" ∧
    (executeSql copyEnv (fun _ _ => .ok ([], [])) copyOut 1000
      (some "postgresql://db/shop")).1 = some copyOut ∧
    ¬ OneQuery copyEnv.sqlglot copyOut "postgres" := by
  refine ⟨⟨⟨true, [], "COPY", ["users"]⟩, by decide, rfl⟩, by decide, ?_⟩
  rintro ⟨e, ⟨parsed, parsedOk, only⟩, query, -⟩
  obtain rfl := Except.ok.inj parsedOk
  obtain rfl := List.head_eq_of_cons_eq only
  revert query
  decide

end SqlExecutor
end Nl2SqlAgent

import Nl2SqlAgent.SqlExecutor

/-! The two nodes that judge a candidate: `agent/nodes/guard.py` before it is
executed and `agent/nodes/semantic_check.py` after. Latencies and trace calls are
left out; so is the prompt of the semantic check, whose reply is a parameter. -/
namespace Nl2SqlAgent

open Lib

namespace Guard

def getDialectFromUrl (databaseUrl : String) : String :=
  if Py.startsWith "postgresql" databaseUrl then "postgresql"
  else if Py.startsWith "mysql" databaseUrl then "mysql"
  else "sqlite"

def getSqlglotDialect (databaseUrl : Option String) : String :=
  if Py.truthy databaseUrl then
    let d := getDialectFromUrl (databaseUrl.getD "")
    if d = "postgresql" then "postgres" else d
  else "sqlite"

def hallucinations (env : Env) (sql : String) (databaseUrl : Option String) : List Issue :=
  if Py.truthy databaseUrl then env.checkHallucinations sql (databaseUrl.getD "") else []

/-- `guard_node`; it raises where `check_safety` does. -/
def node (env : Env) (s : AgentState) : Option AgentState :=
  let dialect := getSqlglotDialect s.databaseUrl
  (SafetyRules.checkSafety env.case env.sqlglot (s.sql.getD "") dialect).map fun safety =>
    let issues := safety.issues ++ hallucinations env (s.sql.getD "") s.databaseUrl
    { s with
      guardPass := some issues.isEmpty
      guardIssues := some issues
      astPass := some (safety.issues.all fun i => Py.startsWith "ast_" i.type)
      astIssues := some issues }

/-- Guard and executor check a statement in the same dialect. -/
theorem dialect_agrees (databaseUrl : Option String) :
    getSqlglotDialect databaseUrl = SqlExecutor.dialectOf databaseUrl := by
  cases databaseUrl with
  | none => decide
  | some url =>
    by_cases empty : url = ""
    · subst empty
      decide
    · have present : Py.truthy (some url) = true := by simp [Py.truthy, empty]
      simp only [getSqlglotDialect, present, getDialectFromUrl, SqlExecutor.dialectOf,
        Option.getD_some, if_true]
      by_cases postgres : Py.startsWith "postgresql" url = true
      · simp [postgres]
      · by_cases mysql : Py.startsWith "mysql" url = true
        · simp [postgres, mysql]
        · simp [postgres, mysql]

structure Accepts (env : Env) (sql : String) (databaseUrl : Option String) : Prop where
  safe : SafetyRules.Accepted env.case env.sqlglot sql (SqlExecutor.dialectOf databaseUrl)
  known : hallucinations env sql databaseUrl = []

/-- What a visit does to the keys that other nodes read. -/
structure Visited (env : Env) (s t : AgentState) : Prop where
  frame : ∃ pass issues ast astIssues, t = { s with
    guardPass := some pass, guardIssues := some issues, astPass := ast, astIssues := astIssues }
  passed : t.guardPass = some true → Accepts env (s.sql.getD "") s.databaseUrl

theorem node_visited (visit : node env s = some t) : Visited env s t := by
  obtain ⟨safety, checked, rfl⟩ := Option.map_eq_some_iff.mp visit
  refine ⟨⟨_, _, _, _, rfl⟩, ?_⟩
  intro passed
  have empty := Option.some.inj passed
  simp only [List.isEmpty_iff, List.append_eq_nil_iff] at empty
  refine ⟨⟨safety, dialect_agrees s.databaseUrl ▸ checked, ?_⟩, empty.2⟩
  -- The verdict of `check_safety` is the emptiness of its own list.
  unfold SafetyRules.checkSafety at checked
  split at checked
  · obtain rfl := Option.some.inj checked
    simp at empty
  · obtain ⟨parts, -, rfl⟩ := Option.map_eq_some_iff.mp checked
    simpa using empty.1

theorem Accepts.nonempty (accepts : Accepts env sql databaseUrl) : sql ≠ "" := by
  rintro rfl
  exact ((SafetyRules.accepted_iff ..).mp accepts.safe).1.nonblank (by decide)

end Guard

namespace SemanticCheck

structure Reply where
  content : String
  usage : List (String × Nat)
  deriving DecidableEq, Repr

/-- `_normalize_sql` of the semantic check: case and white space. -/
def normalizeSql (env : Env) (sql : String) : String := Py.join " " (Py.words (env.case.lower sql))

def verdict (env : Env) (content : String) : Bool × String :=
  let raw := Py.strip content
  if Py.startsWith "YES" (env.case.upper raw) then (true, "")
  else if Py.startsWith "NO" (env.case.upper raw) then
    (false, Py.strip (Py.lstripChar ':' (Py.strip (Py.drop 2 raw))))
  else (false, Py.take 200 raw)

/-- `token_usage[k] += tu.get(k, 0)` over the keys of the state's own dictionary. -/
def addUsage (usage : TokenUsage) (reported : List (String × Nat)) : TokenUsage :=
  ⟨usage.prompt + (reported.lookup "prompt").getD 0,
   usage.completion + (reported.lookup "completion").getD 0,
   usage.total + (reported.lookup "total").getD 0⟩

/-- The same statement was rejected twice in a row: it passes unchecked. -/
def escapes (env : Env) (s : AgentState) : Bool :=
  normalizeSql env (s.sql.getD "") == s.semLastRejectedSql.getD "" && 2 ≤ s.semRejectCount.getD 0

def judged (env : Env) (reply : Reply) (s : AgentState) : AgentState :=
  let sql := s.sql.getD ""
  let normalized := normalizeSql env sql
  let passed := (verdict env reply.content).1
  let reason := (verdict env reply.content).2
  let count := if normalized = s.semLastRejectedSql.getD "" then s.semRejectCount.getD 0 + 1 else 1
  { s with
    semanticPass := some passed
    semanticFeedback := some reason
    tokenUsage := some (addUsage (s.tokenUsage.getD .zero) reply.usage)
    semRejectCount := some (if passed then 0 else count)
    semLastRejectedSql := some (if passed then "" else normalized)
    lastError := if passed then s.lastError else some ("Semantic check failed: " ++ reason)
    lastSql := if passed then s.lastSql else some (some sql) }

/-- `semantic_check_node`; a call that raises is an error text, and passes. -/
def node (env : Env) (reply : Except String Reply) (s : AgentState) : AgentState :=
  if s.sql.getD "" = "" ∨ s.question = "" then
    { s with semanticPass := some true, semanticFeedback := some "" }
  else if escapes env s then
    { s with
      semanticPass := some true
      semanticFeedback := some ("(escape hatch: same SQL rejected " ++
        toString (s.semRejectCount.getD 0) ++ " times, passing)") }
  else
    match reply with
    | .error e =>
      { s with semanticPass := some true, semanticFeedback := some ("(check skipped: " ++ e ++ ")") }
    | .ok r => judged env r s

theorem judged_semanticPass (env : Env) (reply : Reply) (s : AgentState) :
    (judged env reply s).semanticPass = some (verdict env reply.content).1 := by
  simp only [judged]

/-- What a visit does to the keys that other nodes read: after a rejection the
rejected statement stands in `last_sql`. -/
structure Visited (s t : AgentState) : Prop where
  frame : ∃ pass feedback usage count rejected lastError lastSql, t = { s with
    semanticPass := some pass, semanticFeedback := some feedback, tokenUsage := usage,
    semRejectCount := count, semLastRejectedSql := rejected, lastError := lastError,
    lastSql := lastSql }
  rejected : t.semanticPass = some false →
    t.lastSql = some (some (s.sql.getD "")) ∧ s.sql.getD "" ≠ ""

theorem node_visited (env : Env) (reply : Except String Reply) (s : AgentState) :
    Visited s (node env reply s) := by
  unfold node
  split
  · exact ⟨⟨_, _, _, _, _, _, _, rfl⟩, by simp⟩
  next present =>
    have nonempty : s.sql.getD "" ≠ "" := fun empty => present (.inl empty)
    split
    · exact ⟨⟨_, _, _, _, _, _, _, rfl⟩, by simp⟩
    · cases reply with
      | error e => exact ⟨⟨_, _, _, _, _, _, _, rfl⟩, by simp⟩
      | ok r =>
        refine ⟨⟨_, _, _, _, _, _, _, rfl⟩, ?_⟩
        intro rejected
        simp only [judged_semanticPass, Option.some.injEq] at rejected
        exact ⟨by simp [judged, rejected], nonempty⟩

example : verdict .plain " no: wrong table" = (false,"wrong table") := by decide

end SemanticCheck
end Nl2SqlAgent

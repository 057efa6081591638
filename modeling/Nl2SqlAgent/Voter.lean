import Nl2SqlAgent.AgentState
import Mathlib.Data.List.Sort

/-! `agent/nodes/voter.py`: execute the candidates, vote by result hash, ask the LLM
where execution does not decide. The executions of one visit are given in the order
in which they complete. -/
namespace Nl2SqlAgent

open Lib

/-- One completed execution of `run_sql(sql, database_url=url)`. -/
structure Execution where
  url : String
  sql : String
  outcome : RunOutcome
  deriving DecidableEq, Repr

namespace Voter

/-- The first integer of the LLM's reply, if it has one; a failed call has none. -/
abbrev Ballot := Option Nat

/-- `_llm_vote`: the indexed candidate, or the first. -/
def llmVote (ballot : Ballot) : List String → Option String
  | [] => none
  | [only] => some only
  | candidates =>
    match ballot.bind (candidates[·]?) with
    | some chosen => some chosen
    | none => candidates.head?

/-- One entry of `results`. -/
structure Entry where
  sql : String
  outcome : RunOutcome
  hash : Option String
  deriving DecidableEq, Repr

/-- Hash of a successful outcome; the outer `none` is `_normalize` raising. -/
def hashOf (env : Env) : RunOutcome → Option (Option String)
  | .rows data columns =>
    if data.isEmpty then some (some "EMPTY") else (env.normalizeRows data columns).map some
  | .failed _ _ => some none

def entry (env : Env) (e : Execution) : Option Entry :=
  (hashOf env e.outcome).map fun hash => ⟨e.sql, e.outcome, hash⟩

/-- `results.sort(key=lambda r: sqls.index(r["sql"]))`, a stable sort. -/
def inOrder (sqls : List String) (results : List Entry) : List Entry :=
  results.insertionSort fun a b => sqls.idxOf a.sql ≤ sqls.idxOf b.sql

/-- The executions a visit performs: one of each candidate, in any order. -/
def Completes (sqls : List String) (url : String) (executions : List Execution) : Prop :=
  (executions.map Execution.sql).Perm sqls ∧ ∀ e ∈ executions, e.url = url

instance : Decidable (Completes sqls url executions) :=
  inferInstanceAs (Decidable (_ ∧ _))

/-- `Counter(...).most_common()[0]`: the largest count, first seen on a tie. -/
def mostCommon (hashes : List (Option String)) : Option (Option String × Nat) :=
  hashes.foldl (fun best h =>
    match best with
    | none => some (h, hashes.count h)
    | some (b, n) => if n < hashes.count h then some (h, hashes.count h) else some (b, n)) none

def timedOut : RunOutcome → Bool
  | .failed error _ => Py.contains "timed out" error
  | .rows _ _ => false

/-- The record of a vote that rests on no execution. -/
def votedRecord (voter : String) : ExecResult :=
  ⟨true, some [], some [], some "", none, 0, some voter, none⟩

/-- `winner or sql`. -/
def orElse (winner : Option String) (sql : String) : String :=
  match winner with
  | some w => if w = "" then sql else w
  | none => sql

def candidates (s : AgentState) : List String :=
  if s.candidateSqls.getD [] ≠ [] then s.candidateSqls.getD [] else [s.sql.getD ""]

/-- The vote among at least two successful results. -/
def vote (ballot : Ballot) (successful : List Entry) : Option Entry :=
  match mostCommon (successful.map Entry.hash) with
  | none => none
  | some (winnerHash, count) =>
    if 2 ≤ count then successful.find? fun r => r.hash == winnerHash
    else
      match successful.find? (fun r => some r.sql == llmVote ballot (successful.map Entry.sql)) with
      | some r => some r
      | none => successful.head?

/-- What a visit decides: a statement with the result it is reported with. -/
def decideResult (ballot : Ballot) (s : AgentState) (results : List Entry) :
    Option (String × ExecResult) :=
  let sql := s.sql.getD ""
  match results.filter (·.outcome.success) with
  | [] =>
    let reason := if results.any (timedOut ·.outcome) then "timeout" else "exec_fail"
    some (orElse (llmVote ballot (candidates s)) sql, votedRecord ("llm_" ++ reason))
  | [r] => some (r.sql, r.outcome.marked r.sql)
  | successful => (vote ballot successful).map fun r => (r.sql, r.outcome.marked r.sql)

/-- `voter_node`. Without a database nothing is executed and the LLM decides. -/
def node (env : Env) (executions : List Execution) (ballot : Ballot) (s : AgentState) :
    Option (AgentState × List Execution) :=
  match s.databaseUrl with
  | some url =>
    if url = "" then offline
    else if Completes (candidates s) url executions then do
      let results ← executions.mapM (entry env)
      let (sql, result) ← decideResult ballot s (inOrder (candidates s) results)
      some ({ s with sql := some sql, execResult := some result }, executions)
    else none
  | none => offline
where
  offline : Option (AgentState × List Execution) :=
    some ({ s with
      sql := some (orElse (llmVote ballot (candidates s)) (s.sql.getD ""))
      execResult := some (votedRecord "llm_nodb") }, [])

variable {env : Env} {s t : AgentState} {ballot : Ballot} {sqls : List String}
  {executions performed : List Execution} {results successful : List Entry} {e : Execution}
  {r : Entry} {sql place : String} {result : ExecResult} {url : Option String}

@[simp] theorem votedRecord_success (voter : String) : (votedRecord voter).success = true := rfl
@[simp] theorem votedRecord_votedBy (voter : String) :
    (votedRecord voter).votedBy = some voter := rfl

theorem llmVote_mem (chosen : llmVote ballot sqls = some w) : w ∈ sqls := by
  match sqls with
  | [] => contradiction
  | [only] =>
    obtain rfl := Option.some.inj chosen
    simp
  | first :: second :: rest =>
    simp only [llmVote] at chosen
    split at chosen
    next w' picked =>
      obtain rfl := Option.some.inj chosen
      obtain ⟨i, -, at_i⟩ := Option.bind_eq_some_iff.mp picked
      exact List.mem_of_getElem? at_i
    next => exact List.mem_of_mem_head? chosen

theorem vote_mem (voted : vote ballot successful = some r) : r ∈ successful := by
  simp only [vote] at voted
  split at voted
  · contradiction
  · split at voted
    · exact List.mem_of_find?_eq_some voted
    · split at voted
      next found =>
        obtain rfl := Option.some.inj voted
        exact List.mem_of_find?_eq_some found
      next => exact List.mem_of_mem_head? voted

theorem entry_origin (made : entry env e = some r) : r.sql = e.sql ∧ r.outcome = e.outcome := by
  obtain ⟨hash, -, rfl⟩ := Option.map_eq_some_iff.mp made
  exact ⟨rfl, rfl⟩

theorem entries_origin (made : executions.mapM (entry env) = some results) (member : r ∈ results) :
    ∃ e ∈ executions, r.sql = e.sql ∧ r.outcome = e.outcome := by
  induction executions generalizing results with
  | nil =>
    obtain rfl : [] = results := by simpa using made
    contradiction
  | cons e rest ih =>
    simp only [List.mapM_cons, Option.bind_eq_bind, Option.bind_eq_some_iff, Option.pure_def] at made
    obtain ⟨first, firstMade, others, othersMade, same⟩ := made
    obtain rfl := Option.some.inj same
    rcases List.mem_cons.mp member with rfl | later
    · exact ⟨e, by simp, entry_origin firstMade⟩
    · obtain ⟨e', inside, origin⟩ := ih othersMade later
      exact ⟨e', List.mem_cons_of_mem _ inside, origin⟩

theorem entries_complete (made : executions.mapM (entry env) = some results)
    (member : e ∈ executions) : ∃ r ∈ results, r.sql = e.sql ∧ r.outcome = e.outcome := by
  induction executions generalizing results with
  | nil => contradiction
  | cons first rest ih =>
    simp only [List.mapM_cons, Option.bind_eq_bind, Option.bind_eq_some_iff, Option.pure_def] at made
    obtain ⟨r, firstMade, others, othersMade, same⟩ := made
    obtain rfl := Option.some.inj same
    rcases List.mem_cons.mp member with rfl | later
    · exact ⟨r, by simp, entry_origin firstMade⟩
    · obtain ⟨r', inside, origin⟩ := ih othersMade later
      exact ⟨r', List.mem_cons_of_mem _ inside, origin⟩

@[simp] theorem mem_inOrder : r ∈ inOrder sqls results ↔ r ∈ results :=
  (List.perm_insertionSort _ _).mem_iff

/-- What the result of a visit can be: a successful execution of the reported
statement, marked with it, or a record that rests on no execution. -/
inductive Reported (executions : List Execution) (url : Option String) (sql : String) :
    ExecResult → Prop where
  | executed (e : Execution) (member : e ∈ executions) (same : e.sql = sql)
      (success : e.outcome.success = true) : Reported executions url sql (e.outcome.marked sql)
  | offline (nowhere : Py.truthy url = false) (nothing : executions = []) :
      Reported executions url sql (votedRecord "llm_nodb")
  | failed (reason : String) (allFailed : ∀ e ∈ executions, e.outcome.success = false) :
      Reported executions url sql (votedRecord ("llm_" ++ reason))

theorem decideResult_reported (made : executions.mapM (entry env) = some results)
    (decided : decideResult ballot s (inOrder sqls results) = some (sql, result)) :
    Reported executions url sql result := by
  have executed (r : Entry) (member : r ∈ (inOrder sqls results).filter (·.outcome.success)) :
      Reported executions url r.sql (r.outcome.marked r.sql) := by
    obtain ⟨inside, success⟩ := List.mem_filter.mp member
    obtain ⟨e, eMember, sameSql, sameOutcome⟩ := entries_origin made (mem_inOrder.mp inside)
    rw [sameOutcome] at success ⊢
    exact .executed e eMember sameSql.symm success
  simp only [decideResult] at decided
  split at decided
  next none_succeeded =>
    obtain ⟨rfl, rfl⟩ := Prod.mk.inj (Option.some.inj decided)
    apply Reported.failed
    intro e member
    obtain ⟨r, inside, -, sameOutcome⟩ := entries_complete made member
    have excluded := List.filter_eq_nil_iff.mp none_succeeded r (mem_inOrder.mpr inside)
    rw [← sameOutcome]
    exact Bool.eq_false_iff.mpr excluded
  next r only =>
    obtain ⟨rfl, rfl⟩ := Prod.mk.inj (Option.some.inj decided)
    exact executed r (by simp [only])
  next =>
    obtain ⟨r, voted, same⟩ := Option.map_eq_some_iff.mp decided
    obtain ⟨rfl, rfl⟩ := Prod.mk.inj same
    exact executed r (vote_mem voted)

theorem orElse_llmVote (s : AgentState) (primary : s.sql.getD "" ∈ candidates s) :
    orElse (llmVote ballot (candidates s)) (s.sql.getD "") ∈ candidates s := by
  cases chosen : llmVote ballot (candidates s) with
  | none => exact primary
  | some w =>
    simp only [orElse]
    split
    · exact primary
    · exact llmVote_mem chosen

theorem decideResult_candidate (made : executions.mapM (entry env) = some results)
    (complete : Completes (candidates s) place executions)
    (primary : s.sql.getD "" ∈ candidates s)
    (decided : decideResult ballot s (inOrder sqls results) = some (sql, result)) :
    sql ∈ candidates s := by
  have fromResults (r : Entry) (member : r ∈ (inOrder sqls results).filter (·.outcome.success)) :
      r.sql ∈ candidates s := by
    obtain ⟨e, eMember, sameSql, -⟩ :=
      entries_origin made (mem_inOrder.mp (List.mem_filter.mp member).1)
    rw [sameSql]
    exact complete.1.mem_iff.mp (List.mem_map_of_mem eMember)
  simp only [decideResult] at decided
  split at decided
  next =>
    obtain ⟨rfl, -⟩ := Prod.mk.inj (Option.some.inj decided)
    exact orElse_llmVote s primary
  next r only =>
    obtain ⟨rfl, -⟩ := Prod.mk.inj (Option.some.inj decided)
    exact fromResults r (by simp [only])
  next =>
    obtain ⟨r, voted, same⟩ := Option.map_eq_some_iff.mp decided
    obtain ⟨rfl, -⟩ := Prod.mk.inj same
    exact fromResults r (vote_mem voted)

/-- What a visit performs: nothing without a database, else each candidate once. -/
inductive Performed (s : AgentState) (executions : List Execution) : Prop where
  | nothing (nowhere : Py.truthy s.databaseUrl = false) (empty : executions = [])
  | candidates (url : String) (there : s.databaseUrl = some url)
      (complete : Completes (candidates s) url executions)

theorem node_reported (visit : node env executions ballot s = some (t, performed)) :
    ∃ sql result, t = { s with sql := some sql, execResult := some result } ∧
      Reported performed s.databaseUrl sql result ∧ Performed s performed ∧
      (s.sql.getD "" ∈ candidates s → sql ∈ candidates s) := by
  have offline (nowhere : Py.truthy s.databaseUrl = false)
      (visit : node.offline ballot s = some (t, performed)) :
      ∃ sql result, t = { s with sql := some sql, execResult := some result } ∧
        Reported performed s.databaseUrl sql result ∧ Performed s performed ∧
        (s.sql.getD "" ∈ candidates s → sql ∈ candidates s) := by
    obtain ⟨rfl, rfl⟩ := Prod.mk.inj (Option.some.inj visit)
    exact ⟨_, _, rfl, .offline nowhere rfl, .nothing nowhere rfl, orElse_llmVote s⟩
  unfold node at visit
  split at visit
  next url hasUrl =>
    split at visit
    next empty => exact offline (by simp [hasUrl, empty]) visit
    next =>
      split at visit
      next complete =>
        simp only [Option.bind_eq_bind, Option.bind_eq_some_iff] at visit
        obtain ⟨results, made, ⟨sql, result⟩, decided, same⟩ := visit
        obtain ⟨rfl, rfl⟩ := Prod.mk.inj (Option.some.inj same)
        exact ⟨sql, result, rfl, decideResult_reported made decided,
          .candidates url hasUrl complete,
          fun primary => decideResult_candidate made complete primary decided⟩
      next => contradiction
  next noUrl => exact offline (by simp [noUrl]) visit

theorem reported_clean (reported : Reported executions url sql result) :
    Py.truthy result.error = false := by
  cases reported with
  | executed e _ _ success =>
    cases outcome : e.outcome with
    | rows data columns => rfl
    | failed error errorType => simp [outcome, RunOutcome.success] at success
  | offline => exact Py.truthy_empty
  | failed => exact Py.truthy_empty

theorem reported_success (reported : Reported executions url sql result) :
    result.success = true := by
  cases reported with
  | executed e _ _ success => simpa using success
  | offline => rfl
  | failed => rfl

end Voter
end Nl2SqlAgent

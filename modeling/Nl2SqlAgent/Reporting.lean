import Nl2SqlAgent.AgentGraph

/-! What the graphs report: how `sql` and `exec_result` belong together wherever an
attempt that passed the guard has been voted on. -/
namespace Nl2SqlAgent

open Lib

namespace AgentGraph

/-- The statement the guard judges: the first candidate, or the only one. -/
def primary (s : AgentState) : String := (s.candidateSqls.getD []).head?.getD (s.sql.getD "")

/-- The nodes behind the voter. -/
def settled : List Node := [.semanticCheck, .refiner, .postRefiner, .finish]

/-- The reported pair, and the executions of the attempt that it rests on. -/
structure Reports (c : Config) (sql : String) (result : ExecResult) : Prop where
  statement : c.state.sql = some sql
  outcome : c.state.execResult = some result
  reported : Voter.Reported c.attempt c.state.databaseUrl sql result
  performed : Voter.Performed c.state c.attempt
  candidate : sql ∈ Voter.candidates c.state

structure Consistent (env : Env) (c : Config) : Prop where
  drafted : c.node = .guard ∨ c.node = .voter →
    c.attempt = [] ∧ c.state.sql.getD "" = primary c.state
  guarded : c.node ∈ .voter :: settled → c.state.guardPass = some true →
    Guard.Accepts env (primary c.state) c.state.databaseUrl
  reported : c.node ∈ settled → c.state.guardPass = some true → ∃ sql result, Reports c sql result

theorem primary_mem (drafted : s.sql.getD "" = primary s) : s.sql.getD "" ∈ Voter.candidates s := by
  unfold Voter.candidates
  split
  next several =>
    rw [drafted]
    unfold primary
    cases listed : s.candidateSqls.getD [] with
    | nil => contradiction
    | cons first rest => simp
  next => simp

theorem candidates_kept (member : sql ∈ Voter.candidates s) (result : Option ExecResult) :
    Voter.candidates { s with sql := some sql, execResult := result } = Voter.candidates s := by
  unfold Voter.candidates at member ⊢
  by_cases several : s.candidateSqls.getD [] ≠ []
  · rw [if_pos several, if_pos several]
  · rw [if_neg several] at member
    rw [if_neg several, if_neg several, Option.getD_some, List.mem_singleton.mp member]

theorem primary_kept (member : sql ∈ Voter.candidates s) (result : Option ExecResult) :
    primary { s with sql := some sql, execResult := result } = primary s := by
  unfold Voter.candidates at member
  unfold primary
  cases listed : s.candidateSqls.getD [] with
  | nil =>
    simp only [listed, ne_eq, not_true_eq_false, if_false, List.mem_singleton] at member
    simp [member]
  | cons first rest => simp

/-- A rejected attempt goes back; only a passed one is voted on. -/
theorem routeAfterGuard_settled (behind : routeAfterGuard s ∈ settled) :
    s.guardPass ≠ some true := by
  intro passed
  simp [routeAfterGuard, passed, settled] at behind

theorem routeAfterRefiner_cases (s : AgentState) :
    routeAfterRefiner s = .finish ∨ routeAfterRefiner s = .generator := by
  unfold routeAfterRefiner
  split <;> simp

theorem primary_generated (visited : Generator.Visited s t) : t.sql.getD "" = primary t := by
  obtain ⟨sql, written, first⟩ := visited.sql
  obtain ⟨candidates, listed⟩ := Option.isSome_iff_exists.mp visited.candidates
  simp only [primary, written, listed, Option.getD_some]
  rcases first candidates listed with rfl | head
  · simp
  · simp [head]

/-- What a node that keeps `sql`, `exec_result`, `candidate_sqls`, `guard_pass` and
`database_url` passes on. -/
theorem Consistent.pass {c : Config} (consistent : Consistent env c) (here : c.node ∈ settled) (n : Node)
    (t : AgentState) (elsewhere : n ≠ .guard ∧ n ≠ .voter) (sql : t.sql = c.state.sql)
    (result : t.execResult = c.state.execResult)
    (candidates : t.candidateSqls = c.state.candidateSqls)
    (guard : t.guardPass = c.state.guardPass) (url : t.databaseUrl = c.state.databaseUrl) :
    Consistent env ⟨n, t, c.attempt⟩ := by
  have samePrimary : primary t = primary c.state := by simp only [primary, sql, candidates]
  have sameCandidates : Voter.candidates t = Voter.candidates c.state := by
    simp only [Voter.candidates, sql, candidates]
  refine ⟨?_, ?_, ?_⟩
  · rintro (atGuard | atVoter)
    · exact absurd atGuard elsewhere.1
    · exact absurd atVoter elsewhere.2
  · intro _ passed
    have kept := consistent.guarded (List.mem_cons_of_mem _ here) (guard ▸ passed)
    simpa only [samePrimary, url] using kept
  · intro _ passed
    obtain ⟨chosen, reported, holds⟩ := consistent.reported here (guard ▸ passed)
    refine ⟨chosen, reported, sql.trans holds.statement, result.trans holds.outcome, ?_, ?_, ?_⟩
    · simpa only [url] using holds.reported
    · cases holds.performed with
      | nothing nowhere empty => exact .nothing (by rw [url]; exact nowhere) empty
      | candidates place there complete =>
        exact .candidates place (url.trans there) (by rw [sameCandidates]; exact complete)
    · rw [sameCandidates]
      exact holds.candidate

theorem consistent_step {c c' : Config} (consistent : Consistent env c)
    (stepped : Stepped env c visit c') :
    Consistent env c' := by
  cases stepped with
  | upstream visit n t fromUpstream toUpstream frame =>
    -- Nothing is claimed before the guard.
    have outside : n ∉ Node.voter :: settled ∧ n ≠ .guard := by
      simp only [List.mem_cons, List.not_mem_nil, or_false] at toUpstream
      rcases toUpstream with rfl | rfl | rfl | rfl <;> decide
    refine ⟨?_, fun behind => absurd behind outside.1,
      fun behind => absurd (List.mem_cons_of_mem _ behind) outside.1⟩
    rintro (atGuard | atVoter)
    · exact absurd atGuard outside.2
    · exact absurd (by simp [show n = .voter from atVoter]) outside.1
  | generator reply t here visited =>
    refine ⟨fun _ => ⟨rfl, primary_generated visited⟩, ?_, ?_⟩
    · intro behind
      simp [settled] at behind
    · intro behind
      simp [settled] at behind
  | guard t here visited =>
    obtain ⟨empty, drafted⟩ := consistent.drafted (.inl here)
    obtain ⟨pass, issues, ast, astIssues, frame⟩ := visited.frame
    have accepts (passed : t.guardPass = some true) :
        Guard.Accepts env (primary t) t.databaseUrl := by
      have judged := visited.passed passed
      rw [drafted] at judged
      subst frame
      exact judged
    refine ⟨?_, fun _ passed => accepts passed, ?_⟩
    · subst frame
      exact fun _ => ⟨empty, drafted⟩
    · intro behind passed
      exact absurd passed (routeAfterGuard_settled behind)
  | voter executions ballot performed t here visit =>
    obtain ⟨empty, drafted⟩ := consistent.drafted (.inr here)
    have guarded := consistent.guarded (by simp [here])
    obtain ⟨sql, result, rfl, reported, done, chosen⟩ := Voter.node_reported visit
    have member := chosen (primary_mem drafted)
    refine ⟨by simp, ?_, ?_⟩
    · intro _ passed
      simpa only [primary_kept member] using guarded passed
    · intro _ passed
      refine ⟨sql, result, rfl, rfl, ?_, ?_, ?_⟩
      · simpa only [empty, List.nil_append] using reported
      · simp only [empty, List.nil_append]
        cases done with
        | nothing nowhere none => exact .nothing nowhere none
        | candidates place there complete =>
          exact .candidates place there (by rw [candidates_kept member]; exact complete)
      · rw [candidates_kept member]
        exact member
  | semanticCheck reply t here visited =>
    obtain ⟨pass, feedback, usage, count, rejected, lastError, lastSql, rfl⟩ := visited.frame
    refine consistent.pass (by simp [here, settled]) _ _ ?_ rfl rfl rfl rfl rfl
    unfold routeAfterSemantic
    split <;> simp
  | refiner expansion t here visited =>
    obtain ⟨text, sql, k, schema, notes, history, rfl⟩ := visited.frame
    exact consistent.pass (by simp [here, settled]) _ _ (by simp) rfl rfl rfl rfl rfl
  | postRefiner here =>
    refine consistent.pass (by simp [here, settled]) _ _ ?_ rfl rfl rfl rfl rfl
    rcases routeAfterRefiner_cases (afterRefiner c.state) with route | route <;> simp [route]

theorem start_consistent (start : Start c) : Consistent env c := by
  cases start with
  | full i => exact ⟨by simp [fullStart], by simp [fullStart], by simp [fullStart, settled]⟩
  | feedback i =>
    exact ⟨by simp [feedbackStart], by simp [feedbackStart], by simp [feedbackStart]⟩

theorem run_consistent (start : Start c₀) (run : (machine env).exec c₀ visits = some c) :
    Consistent env c :=
  invariant (Consistent env) (fun _ => start_consistent) (fun _ _ _ => consistent_step) start run

theorem address_step {c c' : Config} (stepped : Stepped env c visit c') :
    c'.state.databaseUrl = c.state.databaseUrl ∧ c'.state.dbId = c.state.dbId := by
  cases stepped with
  | upstream visit n t _ _ frame =>
    obtain ⟨_, _, _, _, _, _, _, rfl⟩ := frame
    exact ⟨rfl, rfl⟩
  | generator reply t _ visited =>
    obtain ⟨_, _, _, _, _, rfl⟩ := visited.frame
    exact ⟨rfl, rfl⟩
  | guard t _ visited =>
    obtain ⟨_, _, _, _, rfl⟩ := visited.frame
    exact ⟨rfl, rfl⟩
  | voter executions ballot performed t _ visit =>
    obtain ⟨sql, result, rfl, -⟩ := Voter.node_reported visit
    exact ⟨rfl, rfl⟩
  | semanticCheck reply t _ visited =>
    obtain ⟨_, _, _, _, _, _, _, rfl⟩ := visited.frame
    exact ⟨rfl, rfl⟩
  | refiner expansion t _ visited =>
    obtain ⟨_, _, _, _, _, _, rfl⟩ := visited.frame
    exact ⟨rfl, rfl⟩
  | postRefiner => exact ⟨rfl, rfl⟩

theorem run_databaseUrl {c₀ c : Config} (run : (machine env).exec c₀ visits = some c) :
    c.state.databaseUrl = c₀.state.databaseUrl :=
  Machine.invariant (fun c => c.state.databaseUrl = c₀.state.databaseUrl)
    (fun _ _ _ kept stepped => (address_step (step_stepped stepped)).1.trans kept) rfl run

/-- The result is what executing the returned statement on the database gave, in the
attempt that the run ended with. -/
def Genuine (c : Config) (result : ExecResult) : Prop :=
  ∃ e ∈ c.attempt, some e.url = c.state.databaseUrl ∧ some e.sql = c.state.sql ∧
    e.outcome.success = true ∧ result = e.outcome.marked e.sql

/-- The record of a vote without a database, or over candidates that all failed when
this attempt executed them. -/
def Voted (c : Config) (result : ExecResult) : Prop :=
  (∃ voter, result = Voter.votedRecord voter) ∧
    (Py.truthy c.state.databaseUrl = false ∨
      ((∃ e ∈ c.attempt, some e.sql = c.state.sql) ∧
        ∀ e ∈ c.attempt, some e.url = c.state.databaseUrl ∧ e.outcome.success = false))

theorem Reports.genuine_or_voted {c : Config} (reports : Reports c sql result) :
    Genuine c result ∨ Voted c result := by
  have performed := reports.performed
  cases reports.reported with
  | executed e member same success =>
    refine .inl ⟨e, member, ?_, ?_, success, by rw [same]⟩
    · cases performed with
      | nothing _ empty =>
        rw [empty] at member
        contradiction
      | candidates url there complete => rw [there, complete.2 e member]
    · rw [reports.statement, same]
  | offline nowhere => exact .inr ⟨⟨_, rfl⟩, .inl nowhere⟩
  | failed reason allFailed =>
    refine .inr ⟨⟨_, rfl⟩, ?_⟩
    cases performed with
    | nothing nowhere _ => exact .inl nowhere
    | candidates url there complete =>
      right
      constructor
      · obtain ⟨e, member, same⟩ := List.mem_map.mp (complete.1.mem_iff.mpr reports.candidate)
        exact ⟨e, member, by rw [reports.statement, same]⟩
      · exact fun e member => ⟨by rw [there, complete.2 e member], allFailed e member⟩

/-- Where a run of the full graph ends with an attempt that passed the guard, a success
it reports is genuine, or marked as a vote that rests on no execution. -/
theorem final_success_reported (i : FullInput)
    (run : (machine env).exec (fullStart i) visits = some c) (ended : c.node = .finish)
    (passed : c.state.guardPass = some true) :
    c.state.databaseUrl = i.databaseUrl ∧
    ∃ result, c.state.execResult = some result ∧ (Genuine c result ∨ Voted c result) := by
  have consistent := run_consistent (.full i) run
  obtain ⟨sql, result, reports⟩ := consistent.reported (by simp [ended, settled]) passed
  exact ⟨run_databaseUrl run, result, reports.outcome, reports.genuine_or_voted⟩

def offlineInput : FullInput := { question := "How many orders?", dbId := some "shop" }

/-- The LLM answers with one statement and then approves it. -/
def offlineVisits : List Visit :=
  [.router "simple" .zero, .schemaRetriever "CREATE TABLE orders(id)" "" "", .fewshotSelector "",
    .generator fun _ => some ⟨"SELECT COUNT(*) FROM orders", .zero⟩, .guard, .voter [] none,
    .semanticCheck (.ok ⟨"YES", []⟩)]

def onlineInput : FullInput := { offlineInput with databaseUrl := some "sqlite:///shop.db" }

/-- The same answers with a database that executes the statement. -/
def onlineVisits : List Visit :=
  [.router "simple" .zero, .schemaRetriever "CREATE TABLE orders(id)" "" "", .fewshotSelector "",
    .generator fun _ => some ⟨"SELECT COUNT(*) FROM orders", .zero⟩, .guard,
    .voter [⟨"sqlite:///shop.db", "SELECT COUNT(*) FROM orders", .rows [[.num 1]] ["1"]⟩] none,
    .semanticCheck (.ok ⟨"YES", []⟩)]

theorem final_success_reported_runs :
    (∃ c, (machine .plain).exec (fullStart offlineInput) offlineVisits = some c ∧
      ∃ result, c.state.execResult = some result ∧ (Genuine c result ∨ Voted c result)) ∧
    ∃ c, (machine .plain).exec (fullStart onlineInput) onlineVisits = some c ∧
      ∃ result, c.state.execResult = some result ∧ Genuine c result := by
  constructor
  · have ends : ((machine .plain).exec (fullStart offlineInput) offlineVisits).any
        (fun c => c.node = .finish ∧ c.state.guardPass = some true) = true := by decide
    obtain ⟨c, run, final⟩ := (Option.any_eq_true _ _).mp ends
    obtain ⟨ended, passed⟩ := of_decide_eq_true final
    exact ⟨c, run, (final_success_reported offlineInput run ended passed).2⟩
  · have ends : ((machine .plain).exec (fullStart onlineInput) onlineVisits).any
        (fun c => c.node = .finish ∧ c.state.guardPass = some true ∧
          ∃ e ∈ c.attempt, e.outcome.success = true) = true := by decide
    obtain ⟨c, run, final⟩ := (Option.any_eq_true _ _).mp ends
    obtain ⟨ended, passed, e, member, success⟩ := of_decide_eq_true final
    obtain ⟨url, result, outcome, genuine | ⟨-, offline | ⟨-, failed⟩⟩⟩ :=
      final_success_reported onlineInput run ended passed
    · exact ⟨c, run, result, outcome, genuine⟩
    · rw [url] at offline
      contradiction
    · exact absurd success (by simp [(failed e member).2])

/-- The semantic check refuses the executed statement and the retry yields none. -/
def staleInput : FullInput :=
  { offlineInput with databaseUrl := some "sqlite:///shop.db", maxRetries := some 1 }

def staleVisits : List Visit :=
  [.router "simple" .zero, .schemaRetriever "CREATE TABLE orders(id)" "" "", .fewshotSelector "",
    .generator fun _ => some ⟨"SELECT 1", .zero⟩, .guard,
    .voter [⟨"sqlite:///shop.db", "SELECT 1", .rows [[.num 1]] ["1"]⟩] none,
    .semanticCheck (.ok ⟨"NO: it counts nothing", []⟩), .refiner (some ⟨"", "", ""⟩), .postRefiner,
    .generator fun _ => some ⟨"", .zero⟩, .guard, .refiner none, .postRefiner]

/-- A run that ends with a success that its last attempt executed nothing for. -/
def endsUnexecuted (i : FullInput) (visits : List Visit) : Bool :=
  ((machine .plain).exec (fullStart i) visits).any fun c =>
    c.node = .finish ∧ c.attempt = [] ∧ c.state.execResult.any (·.success) = true

theorem endsUnexecuted_not_genuine (ends : endsUnexecuted i visits = true) :
    ∃ c result, (machine .plain).exec (fullStart i) visits = some c ∧ c.node = .finish ∧
      c.state.execResult = some result ∧ result.success = true ∧ ¬ Genuine c result := by
  obtain ⟨c, run, final⟩ := (Option.any_eq_true _ _).mp ends
  obtain ⟨ended, nothing, reported⟩ := of_decide_eq_true final
  obtain ⟨result, outcome, success⟩ := (Option.any_eq_true _ _).mp reported
  refine ⟨c, result, run, ended, outcome, success, ?_⟩
  rintro ⟨e, member, -⟩
  rw [nothing] at member
  contradiction

/-- Two runs end with a success that is not genuine: one has no database, the other
keeps the result of a statement it gave up. -/
theorem success_not_genuine :
    (∃ c result, (machine .plain).exec (fullStart offlineInput) offlineVisits = some c ∧
      c.node = .finish ∧ c.state.execResult = some result ∧ result.success = true ∧
      ¬ Genuine c result) ∧
    (∃ c result, (machine .plain).exec (fullStart staleInput) staleVisits = some c ∧
      c.node = .finish ∧ c.state.execResult = some result ∧ result.success = true ∧
      ¬ Genuine c result) :=
  ⟨endsUnexecuted_not_genuine (by decide), endsUnexecuted_not_genuine (by decide)⟩

end AgentGraph
end Nl2SqlAgent

import Nl2SqlAgent.Correction

/-! Which failure the refiner reports in the full graph, beside the verdicts of the
attempt that has just failed. -/
namespace Nl2SqlAgent

open Lib

namespace AgentGraph

/-- What the nodes said of the attempt so far: noted beside the run, which only keeps
the keys that the next visit overwrites. -/
structure Attempt where
  sql : String := ""
  issues : Option (List Issue) := none
  result : Option ExecResult := none
  reason : Option String := none
  deriving DecidableEq, Repr

/-- The note of a visit that led to the state: a generation begins a new attempt. -/
def noteVerdict (_ : Config) (visit : Visit) (c : Config) (a : Attempt) : Attempt :=
  match visit with
  | .generator _ => { sql := c.state.sql.getD "" }
  | .guard => { a with issues := c.state.guardIssues }
  | .voter _ _ => { a with sql := c.state.sql.getD "", result := c.state.execResult }
  | .semanticCheck _ => { a with reason := c.state.semanticFeedback }
  | _ => a

def judgedMachine (env : Env) : Machine (Config × Attempt) Visit :=
  (machine env).noted noteVerdict

def report (env : Env) (schema : String) (a : Attempt) : Refiner.Source × String :=
  match a.reason, a.result with
  | some reason, result => (.semantic, Refiner.formatSemanticFeedback env reason a.sql result)
  | none, some result => (.execution, env.formatExecFeedback result a.sql schema)
  | none, none => (.guard, env.formatGuardFeedback (a.issues.getD []) schema a.sql)

/-- A refiner visit from `s` to `t` reports the last verdict on the attempt and quotes the
attempt's statement. -/
def ReportsFailure (env : Env) (a : Attempt) (s t : AgentState) : Prop :=
  t.lastError = some (Refiner.header s ++ (report env (s.schemaText.getD "") a).2) ∧
    ∃ entry, t.repairHistory = some (s.repairHistory.getD [] ++ [entry]) ∧
      entry.errorSource = (report env (s.schemaText.getD "") a).1.name ∧
      entry.failedSql = Py.take 300 a.sql

/-- The attempt was refused with a reason, or the guard rejected an attempt without SQL
and no reason of an earlier attempt is left. -/
def Attributable (a : Attempt) (s : AgentState) : Prop :=
  match a.reason with
  | some reason => reason ≠ ""
  | none => a.sql = "" ∧ Py.truthy s.semanticFeedback = false

/-- What a refiner visit finds, by the node that failed the attempt. -/
inductive Failed (s : AgentState) : Attempt → Prop where
  | rejected (sql : String) (issues : List Issue) (found : issues ≠ [])
      (stored : s.guardIssues = some issues) (cleared : s.lastSql = some (some "")) :
      Failed s { sql := sql, issues := some issues }
  | refused (sql reason : String) (result : ExecResult) (refusal : s.semanticFeedback = some reason)
      (executed : s.execResult = some result) (clean : s.guardIssues = some [])
      (kept : s.lastSql = some (some sql)) :
      Failed s ⟨sql, some [], some result, some reason⟩

/-- The verdicts noted of the attempt are those in the state, wherever a node of the
retry loop is about to be visited. -/
structure Current (c : Config) (a : Attempt) : Prop where
  nobody : c.state.userFeedback = none
  noError : Py.truthy (Refiner.execError c.state) = false
  drafted : c.node = .guard → a = { sql := c.state.sql.getD "" } ∧ c.state.lastSql = some (some "")
  passed : c.node = .voter → a.issues = some [] ∧ a.reason = none ∧ c.state.guardIssues = some []
  executed : c.node = .semanticCheck → ∃ result, c.state.execResult = some result ∧
    a = ⟨c.state.sql.getD "", some [], some result, none⟩ ∧ c.state.guardIssues = some []
  failed : c.node = .refiner → Failed c.state a

theorem reported_error (reported : Voter.Reported executions url sql result) :
    Py.truthy result.error = false := by
  cases reported with
  | executed e _ _ success =>
    cases outcome : e.outcome with
    | rows data columns => rfl
    | failed error errorType => simp [outcome, RunOutcome.success] at success
  | offline => rfl
  | failed => rfl

theorem guard_issues (visit : Guard.node env s = some t) :
    ∃ issues, t.guardIssues = some issues ∧ t.guardPass = some issues.isEmpty := by
  obtain ⟨safety, -, rfl⟩ := Option.map_eq_some_iff.mp visit
  exact ⟨_, rfl, rfl⟩

theorem fullStart_current (i : FullInput) : Current (fullStart i) {} :=
  ⟨rfl, rfl, by simp [fullStart], by simp [fullStart], by simp [fullStart], by simp [fullStart]⟩

theorem current_elsewhere {c : Config} (nobody : c.state.userFeedback = none)
    (noError : Py.truthy (Refiner.execError c.state) = false)
    (elsewhere : c.node ∉ [Node.guard, .voter, .semanticCheck, .refiner]) : Current c a := by
  simp only [List.mem_cons, List.not_mem_nil, or_false, not_or] at elsewhere
  obtain ⟨noGuard, noVoter, noCheck, noRefiner⟩ := elsewhere
  exact ⟨nobody, noError, fun here => absurd here noGuard, fun here => absurd here noVoter,
    fun here => absurd here noCheck, fun here => absurd here noRefiner⟩

theorem current_step (current : Current c a) (stepped : (machine env).step c visit = some c') :
    Current c' (noteVerdict c visit c' a) := by
  cases step_stepped stepped with
  | upstream visit n t _ toUpstream frame =>
    obtain ⟨_, _, _, _, _, _, _, rfl⟩ := frame
    refine current_elsewhere ?_ ?_ ?_
    · exact current.nobody
    · exact current.noError
    · simp only [List.mem_cons, List.not_mem_nil, or_false] at toUpstream
      rcases toUpstream with rfl | rfl | rfl | rfl <;> simp
  | generator reply t here visited =>
    obtain ⟨sql, _, _, _, _, rfl⟩ := visited.frame
    exact ⟨current.nobody, current.noError, fun _ => ⟨rfl, rfl⟩, by simp, by simp, by simp⟩
  | guard t here visited =>
    obtain ⟨rfl, cleared⟩ := current.drafted here
    obtain ⟨-, taken⟩ := Option.ite_none_right_eq_some.mp stepped
    obtain ⟨t', visit, same⟩ := Option.map_eq_some_iff.mp taken
    obtain rfl : t' = t := congrArg Config.state same
    obtain ⟨issues, stored, verdict⟩ := guard_issues visit
    obtain ⟨_, _, _, _, frame⟩ := visited.frame
    have nobody : t'.userFeedback = none := by rw [frame]; exact current.nobody
    have noError : Py.truthy (Refiner.execError t') = false := by rw [frame]; exact current.noError
    have kept : t'.lastSql = some (some "") := by rw [frame]; exact cleared
    cases issues with
    | nil =>
      have onward : routeAfterGuard t' = .voter := by simp [routeAfterGuard, verdict]
      rw [onward]
      exact ⟨nobody, noError, by simp, fun _ => ⟨stored, rfl, stored⟩, by simp, by simp⟩
    | cons first rest =>
      have back : routeAfterGuard t' = .refiner := by simp [routeAfterGuard, verdict]
      rw [back]
      refine ⟨nobody, noError, by simp, by simp, by simp, fun _ => ?_⟩
      simp only [noteVerdict, stored]
      exact .rejected _ _ (by simp) stored kept
  | voter executions ballot performed t here visit =>
    obtain ⟨issues, reason, clean⟩ := current.passed here
    obtain ⟨sql, result, rfl, reported, -, -⟩ := Voter.node_reported visit
    refine ⟨current.nobody, reported_error reported, by simp, by simp, fun _ => ?_, by simp⟩
    refine ⟨result, rfl, ?_, clean⟩
    simp only [noteVerdict, issues, reason]
  | semanticCheck reply t here visited =>
    obtain ⟨result, executed, rfl, clean⟩ := current.executed here
    obtain ⟨pass, reason, _, _, _, _, _, rfl⟩ := visited.frame
    cases pass with
    | true =>
      refine current_elsewhere ?_ ?_ (by simp [routeAfterSemantic])
      · exact current.nobody
      · exact current.noError
    | false =>
      have kept := (visited.rejected rfl).1
      refine ⟨current.nobody, current.noError, by simp [routeAfterSemantic],
        by simp [routeAfterSemantic], by simp [routeAfterSemantic], fun _ => ?_⟩
      exact .refused _ reason result rfl executed clean kept
  | refiner expansion t here visited =>
    obtain ⟨_, _, _, _, _, _, rfl⟩ := visited.frame
    refine current_elsewhere ?_ ?_ (by simp)
    · exact current.nobody
    · exact current.noError
  | postRefiner here =>
    refine current_elsewhere ?_ ?_ ?_
    · exact current.nobody
    · exact current.noError
    · unfold routeAfterRefiner
      split <;> simp

theorem run_current (run : (judgedMachine env).exec (fullStart i, {}) visits = some (c, a)) :
    Current c a := by
  refine Machine.invariant (fun s => Current s.1 s.2) (fun s visit t current stepped => ?_)
    (fullStart_current i) run
  obtain ⟨taken, noted⟩ := Machine.noted_step.mp stepped
  rw [noted]
  exact current_step current taken

theorem refiner_written (visit : Refiner.node env expansion s = some t)
    (previous : Refiner.previousSql s = some sql) :
    t.lastError = some (Refiner.header s ++ Refiner.errorFeedback env s sql) ∧
      ∃ entry, t.repairHistory = some (s.repairHistory.getD [] ++ [entry]) ∧
        entry.errorSource = (Refiner.source s).name ∧ entry.failedSql = Py.take 300 sql := by
  simp only [Refiner.node, Option.bind_eq_bind, Option.bind_eq_some_iff] at visit
  obtain ⟨sql', previous', hint, -, widened, -, same⟩ := visit
  obtain rfl := Option.some.inj (previous'.symm.trans previous)
  obtain rfl := Option.some.inj same
  exact ⟨rfl, _, rfl, rfl, rfl⟩

theorem ReportsFailure.read (reports : ReportsFailure env a s t)
    (visit : Refiner.node env expansion s = some t) (previous : Refiner.previousSql s = some sql) :
    (Refiner.source s).name = (report env (s.schemaText.getD "") a).1.name ∧
      Py.take 300 sql = Py.take 300 a.sql := by
  obtain ⟨-, entry, appended, source, failed⟩ := reports
  obtain ⟨-, entry', appended', source', failed'⟩ := refiner_written visit previous
  have same := Option.some.inj (appended.symm.trans appended')
  obtain rfl := List.singleton_inj.mp (List.append_cancel_left same)
  exact ⟨source'.symm.trans source, failed'.symm.trans failed⟩

theorem take_eq_empty (positive : 0 < n) : Py.take n sql = "" ↔ sql = "" := by
  constructor
  · intro empty
    have chars : sql.toList.take n = [] := String.ofList_injective (empty.trans rfl)
    rcases List.take_eq_nil_iff.mp chars with zero | none_
    · omega
    · exact String.toList_inj.mp none_
  · rintro rfl
    simp [Py.take]

theorem Source.name_inj : ∀ a b : Refiner.Source, a.name = b.name → a = b := by
  intro a b
  cases a <;> cases b <;> decide

theorem source_eq {s : AgentState} (nobody : s.userFeedback = none)
    (noError : Py.truthy (Refiner.execError s) = false) :
    Refiner.source s = if Py.truthy s.semanticFeedback then .semantic
      else if s.guardIssues.getD [] ≠ [] then .guard else .unknown := by
  simp [Refiner.source, nobody, noError]

/-- In every run of the full graph a refiner visit reports the verdict that failed the
attempt, with the attempt's statement, exactly in these cases. -/
theorem failure_reported_iff
    (run : (judgedMachine env).exec (fullStart i, {}) visits = some (c, a))
    (refined : (machine env).step c (.refiner expansion) = some c') :
    ReportsFailure env a c.state c'.state ↔ Attributable a c.state := by
  have current := run_current run
  obtain ⟨here, taken⟩ := Option.ite_none_right_eq_some.mp refined
  obtain ⟨t, visit, rfl⟩ := Option.map_eq_some_iff.mp taken
  have source := source_eq current.nobody current.noError
  cases current.failed here with
  | rejected sql issues found stored cleared =>
    have previous : Refiner.previousSql c.state = some "" := by simp [Refiner.previousSql, cleared]
    constructor
    · intro reports
      obtain ⟨named, quoted⟩ := reports.read visit previous
      have guarded : Refiner.source c.state = .guard := Source.name_inj _ _ named
      refine ⟨(take_eq_empty (by decide)).mp quoted.symm, ?_⟩
      by_contra stale
      rw [source, if_pos (by simpa using stale)] at guarded
      cases guarded
    · rintro ⟨empty, fresh⟩
      have guarded : Refiner.source c.state = .guard := by
        rw [source]
        simp [fresh, stored, found]
      obtain rfl : sql = "" := empty
      obtain ⟨text, entry, appended, named, quoted⟩ := refiner_written visit previous
      rw [guarded] at named
      refine ⟨?_, entry, appended, named, quoted⟩
      rw [text]
      simp [Refiner.errorFeedback, guarded, stored, report]
  | refused sql reason result refusal executed clean kept =>
    have previous : Refiner.previousSql c.state = some sql := by simp [Refiner.previousSql, kept]
    constructor
    · intro reports empty
      obtain ⟨named, -⟩ := reports.read visit previous
      have judged : Refiner.source c.state = .semantic := Source.name_inj _ _ named
      obtain rfl : reason = "" := empty
      rw [source, refusal, clean] at judged
      cases judged
    · intro (given : reason ≠ "")
      have judged : Refiner.source c.state = .semantic := by
        rw [source]
        simp [refusal, Py.truthy, given]
      obtain ⟨text, entry, appended, named, quoted⟩ := refiner_written visit previous
      rw [judged] at named
      refine ⟨?_, entry, appended, named, quoted⟩
      rw [text]
      simp [Refiner.errorFeedback, judged, refusal, executed, report]

theorem failure_reported_refused :
    ∃ (c c' : Config) (a : Attempt),
      (judgedMachine .plain).exec (fullStart shopInput, {}) refusedVisits = some (c, a) ∧
      (machine .plain).step c (.refiner (some ⟨"", "", ""⟩)) = some c' ∧
      (ReportsFailure .plain a c.state c'.state ↔ Attributable a c.state) := by
  have ends : ((judgedMachine .plain).exec (fullStart shopInput, {}) (refusedVisits ++
      [.refiner (some ⟨"", "", ""⟩)])).isSome = true := by decide
  obtain ⟨⟨c', a'⟩, run⟩ := Option.isSome_iff_exists.mp ends
  obtain ⟨⟨c, a⟩, before, last⟩ := (Machine.exec_append_some _ _).mp run
  rw [Machine.exec_singleton] at last
  have refined := (Machine.noted_step.mp last).1
  exact ⟨c, c', a, before, refined, failure_reported_iff before refined⟩

def rejectedRetry : List Visit :=
  refusedVisits ++ [.refiner (some ⟨"", "", ""⟩), .postRefiner,
    .generator fun _ => some ⟨"DROP TABLE orders", .zero⟩, .guard]

/-- The guard rejects the second attempt, and the refiner reports the refusal of the first
one again, with an empty statement. -/
theorem failure_misreported :
    ∃ (c c' : Config) (a : Attempt),
      (judgedMachine .plain).exec (fullStart shopInput, {}) rejectedRetry = some (c, a) ∧
      (machine .plain).step c (.refiner none) = some c' ∧ a.reason = none ∧
      Refiner.source c.state = .semantic ∧ a.sql = "DROP TABLE orders" ∧
      ¬ ReportsFailure .plain a c.state c'.state := by
  have ends : ((judgedMachine .plain).exec (fullStart shopInput, {}) rejectedRetry).any
      (fun s => s.2.reason = none ∧ s.2.result = none ∧ s.2.sql = "DROP TABLE orders" ∧
        Refiner.source s.1.state = .semantic ∧ Refiner.previousSql s.1.state = some "" ∧
        ((machine .plain).step s.1 (.refiner none)).isSome) = true := by decide
  obtain ⟨⟨c, a⟩, run, facts⟩ := (Option.any_eq_true _ _).mp ends
  simp only [decide_eq_true_eq] at facts
  obtain ⟨reason, result, sql, judged, previous, steps⟩ := facts
  obtain ⟨c', refined⟩ := Option.isSome_iff_exists.mp steps
  refine ⟨c, c', a, run, refined, reason, judged, sql, fun reports => ?_⟩
  obtain ⟨-, taken⟩ := Option.ite_none_right_eq_some.mp refined
  obtain ⟨t, visit, rfl⟩ := Option.map_eq_some_iff.mp taken
  obtain ⟨named, -⟩ := reports.read visit previous
  have guarded : Refiner.Source.semantic = .guard := by
    apply Source.name_inj _ _
    rw [← judged, named]
    simp only [report, reason, result]
  cases guarded

end AgentGraph
end Nl2SqlAgent

import Nl2SqlAgent.AgentGraph

/-! The way of a correction text from the refiner to the next prompt: through
`last_error` and `last_sql`, which the prompt only takes together. -/
namespace Nl2SqlAgent

open Lib

namespace AgentGraph

/-- What `last_sql` is by the time a node may hand the run to the refiner. -/
structure Carried (c : Config) : Prop where
  drafted : c.node = .guard → c.state.lastSql = some (some "")
  passed : c.node = .voter ∨ c.node = .semanticCheck → c.state.guardPass = some true
  rejected : c.node = .refiner → c.state.guardPass = some false →
    c.state.lastSql = some (some "")
  refused : c.node = .refiner → c.state.guardPass = some true →
    ∃ sql, c.state.lastSql = some (some sql) ∧ sql ≠ ""

theorem start_carried (start : Start c) : Carried c := by
  cases start with
  | full i => exact ⟨by simp [fullStart], by simp [fullStart], by simp [fullStart], by simp [fullStart]⟩
  | feedback i =>
    exact ⟨by simp [feedbackStart], by simp [feedbackStart], by simp [feedbackStart],
      by simp [feedbackStart]⟩

theorem carried_elsewhere {c : Config}
    (elsewhere : c.node ∉ [Node.guard, .voter, .semanticCheck, .refiner]) : Carried c := by
  simp only [List.mem_cons, List.not_mem_nil, or_false, not_or] at elsewhere
  obtain ⟨noGuard, noVoter, noCheck, noRefiner⟩ := elsewhere
  refine ⟨fun here => absurd here noGuard, ?_, fun here => absurd here noRefiner,
    fun here => absurd here noRefiner⟩
  rintro (here | here)
  · exact absurd here noVoter
  · exact absurd here noCheck

theorem carried_step {c c' : Config} (carried : Carried c) (stepped : Stepped env c visit c') :
    Carried c' := by
  cases stepped with
  | upstream visit n t _ toUpstream _ =>
    apply carried_elsewhere
    simp only [List.mem_cons, List.not_mem_nil, or_false] at toUpstream
    rcases toUpstream with rfl | rfl | rfl | rfl <;> simp
  | generator reply t here visited =>
    exact ⟨fun _ => visited.lastSql, by simp, by simp, by simp⟩
  | guard t here visited =>
    obtain ⟨pass, issues, ast, astIssues, rfl⟩ := visited.frame
    have cleared := carried.drafted here
    cases pass with
    | true => exact ⟨by simp [routeAfterGuard], by simp, by simp, by simp [routeAfterGuard]⟩
    | false =>
      exact ⟨by simp [routeAfterGuard], by simp [routeAfterGuard], fun _ _ => cleared, by simp⟩
  | voter executions ballot performed t here visit =>
    obtain ⟨sql, result, rfl, -⟩ := Voter.node_reported visit
    have passed := carried.passed (.inl here)
    exact ⟨by simp, fun _ => passed, by simp, by simp⟩
  | semanticCheck reply t here visited =>
    have passed := carried.passed (.inr here)
    obtain ⟨pass, feedback, usage, count, refused, lastError, lastSql, rfl⟩ := visited.frame
    cases pass with
    | true => exact carried_elsewhere (by simp [routeAfterSemantic])
    | false =>
      obtain ⟨kept, nonempty⟩ := visited.rejected rfl
      refine ⟨by simp [routeAfterSemantic], by simp [routeAfterSemantic], ?_, ?_⟩
      · intro _ rejected
        exact absurd (passed.symm.trans rejected) (by decide)
      · exact fun _ _ => ⟨_, kept, nonempty⟩
  | refiner expansion t here visited => exact carried_elsewhere (by simp)
  | postRefiner here =>
    apply carried_elsewhere
    unfold routeAfterRefiner
    split <;> simp

theorem run_carried (start : Start c₀) (run : (machine env).exec c₀ visits = some c) : Carried c :=
  invariant Carried (fun _ => start_carried) (fun _ _ _ => carried_step) start run

/-- The refiner's text is in the next prompt exactly when the SQL it read was not empty. -/
theorem correction_in_prompt (visited : Refiner.Visited s t) :
    (∃ text, t.lastError = some text ∧
      Generator.errorSection text ∈ Generator.promptParts (afterRefiner t)) ↔
      Refiner.previousSql s ≠ some "" := by
  obtain ⟨text, written, nonempty⟩ := visited.text
  obtain ⟨sql, previous, stored⟩ := visited.sql
  simp only [Generator.errorSection_in_prompt, afterRefiner, written, stored, previous,
    Option.some.injEq, ne_eq]
  constructor
  · rintro ⟨_, rfl, -, -, _, rfl, present⟩
    exact present
  · exact fun present => ⟨text, rfl, rfl, nonempty, sql, rfl, present⟩

/-- Whether the SQL that a refiner visit reads is there: after the guard the generator
has just cleared it, after the semantic check it is the refused one. -/
theorem previousSql_nonempty {c : Config} (carried : Carried c) (here : c.node = .refiner) :
    Refiner.previousSql c.state ≠ some "" ↔ c.state.guardPass = some true ∨
      (c.state.guardPass = none ∧ Refiner.previousSql c.state ≠ some "") := by
  cases passed : c.state.guardPass with
  | none => simp
  | some pass =>
    cases pass with
    | true =>
      obtain ⟨sql, kept, nonempty⟩ := carried.refused here passed
      simpa [Refiner.previousSql, kept] using nonempty
    | false => simp [Refiner.previousSql, carried.rejected here passed]

/-- In every run of either graph, the state that a generator visit behind the refiner
starts from gives it the text the refiner wrote exactly when the guard had not rejected
the attempt and, at the entry of the feedback graph, the task had an SQL. -/
theorem correction_delivered_iff (start : Start c₀)
    (run : (machine env).exec c₀ visits = some c)
    (refined : (machine env).step c (.refiner expansion) = some c₁)
    (counted : (machine env).step c₁ .postRefiner = some c₂) :
    (∃ text, c₁.state.lastError = some text ∧
      Generator.errorSection text ∈ Generator.promptParts c₂.state) ↔
    c.state.guardPass = some true ∨
      (c.state.guardPass = none ∧ Refiner.previousSql c.state ≠ some "") := by
  obtain ⟨here, taken⟩ := Option.ite_none_right_eq_some.mp refined
  obtain ⟨t, visit, rfl⟩ := Option.map_eq_some_iff.mp taken
  obtain rfl := Option.some.inj (show some (Config.mk _ (afterRefiner t) _) = some c₂ from counted)
  rw [← previousSql_nonempty (run_carried start run) here]
  exact correction_in_prompt (Refiner.node_visited env expansion visit)

def shopInput : FullInput :=
  { question := "How many orders?", dbId := some "shop", databaseUrl := some "sqlite:///shop.db" }

def firstDraft (sql : String) : List Visit :=
  [.router "simple" .zero, .schemaRetriever "CREATE TABLE orders(id)" "" "", .fewshotSelector "",
    .generator fun _ => some ⟨sql, .zero⟩, .guard]

/-- The run up to a refusal by the semantic check. -/
def refusedVisits : List Visit :=
  firstDraft "SELECT 1" ++
    [.voter [⟨"sqlite:///shop.db", "SELECT 1", .rows [[.num 1]] ["1"]⟩] none,
      .semanticCheck (.ok ⟨"NO: it counts nothing", []⟩)]

theorem retry_split (env : Env) (c₀ : Config) (visits : List Visit)
    (expansion : Option Refiner.Expansion) (check : Config → Bool)
    (ends : ((machine env).exec c₀ (visits ++ [.refiner expansion, .postRefiner])).any check = true) :
    ∃ c c₁ c₂, (machine env).exec c₀ visits = some c ∧
      (machine env).step c (.refiner expansion) = some c₁ ∧
      (machine env).step c₁ .postRefiner = some c₂ ∧ check c₂ = true := by
  obtain ⟨c₂, run, final⟩ := (Option.any_eq_true _ _).mp ends
  obtain ⟨c, before, retry⟩ := (Machine.exec_append_some _ _).mp run
  obtain ⟨c₁, refined, rest⟩ := Machine.exec_cons_some.mp retry
  rw [Machine.exec_singleton] at rest
  exact ⟨c, c₁, c₂, before, refined, rest, final⟩

theorem correction_delivered_refused :
    ∃ c c₁ c₂ : Config, (machine .plain).exec (fullStart shopInput) refusedVisits = some c ∧
      ((∃ text, c₁.state.lastError = some text ∧
        Generator.errorSection text ∈ Generator.promptParts c₂.state) ↔
      c.state.guardPass = some true ∨
        (c.state.guardPass = none ∧ Refiner.previousSql c.state ≠ some "")) := by
  obtain ⟨c, c₁, c₂, run, refined, counted, -⟩ :=
    retry_split .plain (fullStart shopInput) refusedVisits (some ⟨"", "", ""⟩) (fun _ => true)
      (by decide)
  exact ⟨c, c₁, c₂, run, correction_delivered_iff (.full shopInput) run refined counted⟩

/-- The guard rejects the first draft, the refiner formats its issues, and the prompt of
the retry has no correction section at all. -/
theorem guard_correction_lost :
    ∃ c c₁ c₂ text, (machine .plain).exec (fullStart shopInput) (firstDraft "DROP TABLE orders") =
        some c ∧
      (machine .plain).step c (.refiner none) = some c₁ ∧
      (machine .plain).step c₁ .postRefiner = some c₂ ∧ c₂.node = .generator ∧
      c₁.state.lastError = some text ∧
      Generator.errorSection text ∉ Generator.promptParts c₂.state := by
  obtain ⟨c, c₁, c₂, run, refined, counted, final⟩ :=
    retry_split .plain (fullStart shopInput) (firstDraft "DROP TABLE orders") none
      (fun c => c.node = .generator ∧ c.state.lastSql = some (some "")) (by decide)
  obtain ⟨again, cleared⟩ := of_decide_eq_true final
  obtain ⟨-, taken⟩ := Option.ite_none_right_eq_some.mp refined
  obtain ⟨t, visit, rfl⟩ := Option.map_eq_some_iff.mp taken
  obtain ⟨text, written, -⟩ := (Refiner.node_visited _ _ visit).text
  refine ⟨c, _, c₂, text, run, refined, counted, again, written, ?_⟩
  rw [Generator.errorSection_in_prompt]
  rintro ⟨-, -, sql, stored, present⟩
  rw [cleared] at stored
  exact present (Option.some.inj (Option.some.inj stored)).symm

end AgentGraph
end Nl2SqlAgent

import Nl2SqlAgent.TaskThreads

/-! The effects that each of a task's threads can come to, whatever it is answered. -/
namespace Nl2SqlAgent

open Lib

namespace TaskThreads

/-- The statuses that the operation behind a write has read. -/
def Effect.sees : Effect → List String
  | .update seen _ _ => seen
  | .save state _ => state.status.toList
  | _ => []

/-- The status that a write stores. -/
def Effect.writes : Effect → Option String
  | .update _ basis write => some (write.status.getD (TaskStore.status basis))
  | .save _ .feedback => some "RUNNING"
  | .save _ .scanStale => some "TIMEOUT"
  | _ => none

/-- A thread of a feedback request: the endpoint's, or that of the worker's handler. -/
def Desc.ofFeedback : Desc → Prop
  | .feedback _ _ => True
  | .handleFeedback _ _ => True
  | _ => False

/-- Neither the first read of a feedback handler nor its start of a graph. -/
def Effect.quiet : Effect → Bool
  | .inspect _ => false
  | .startFeedbackGraph _ => false
  | _ => true

/-- What a thread stores is what it has read, or a step of the table from there; only
those of a feedback request restart a finished task. -/
structure Does (d : Desc) (e : Effect) : Prop where
  stored : ∀ next ∈ e.writes, next ∈ e.sees ∨ (∃ s ∈ e.sees, next ∈ TaskStore.allowed s) ∨
    (d.ofFeedback ∧ next = "RUNNING" ∧ ∃ s ∈ e.sees, acceptsFeedback s = true)
  handler : e.quiet = true ∨ ∃ m delivery, d = .handleFeedback m delivery

variable {d : Desc} {write : TaskStore.Write} {next : String}

theorem silent_stored {e : Effect} (silent : e.writes = none) :
    ∀ next ∈ e.writes, next ∈ e.sees ∨ (∃ s ∈ e.sees, next ∈ TaskStore.allowed s) ∨
      (d.ofFeedback ∧ next = "RUNNING" ∧ ∃ s ∈ e.sees, acceptsFeedback s = true) := by
  intro next stored
  rw [silent] at stored
  contradiction

theorem does_silent {e : Effect} (silent : e.writes = none) (quiet : e.quiet = true) : Does d e :=
  ⟨silent_stored silent, .inl quiet⟩

theorem taskUpdate_does (keeps : write.status = none) : (taskUpdate [] write).Emits (Does d) := by
  apply taskUpdate_emits [] (does_silent rfl rfl)
  intro basis
  refine ⟨?_, .inl rfl⟩
  intro next stored
  have same : next = TaskStore.status basis := by simpa [Effect.writes, keeps] using stored.symm
  exact .inl (by simp [same, Effect.sees])

theorem taskTransition_does (status : write.status = some next) (later : next ≠ "PENDING") :
    (taskTransition write).Emits (Does d) := by
  apply taskTransition_emits status later (does_silent rfl rfl)
  intro s basis allowed
  refine ⟨?_, .inl rfl⟩
  intro stored written
  have same : next = stored := by simpa [Effect.writes, status] using written
  exact .inr (.inl ⟨s, List.mem_cons_self, same ▸ allowed⟩)

theorem feedbackTransition_does (ofFeedback : d.ofFeedback) :
    feedbackTransition.Emits (Does d) := by
  apply feedbackTransition_emits (does_silent rfl rfl)
  intro s basis accepts
  refine ⟨?_, .inl rfl⟩
  intro stored written
  have same : "RUNNING" = stored := by simpa [Effect.writes, TaskStore.Write.status] using written
  exact .inr (.inr ⟨ofFeedback, same.symm, s, List.mem_cons_self, accepts⟩)

theorem ask_does {e : Effect} (silent : e.writes = none) (quiet : e.quiet = true) :
    (ask e).Emits (Does d) :=
  Prog.emits_perform _ _ (does_silent silent quiet)

theorem submit_does (submission : Submission) : (submit submission).Emits (Does d) := by
  apply Prog.emits_bind
  · exact ask_does rfl rfl
  · intro _
    cases submission with
    | cached => trivial
    | _ => exact ask_does rfl rfl

theorem gatewayGet_does : gatewayGet.Emits (Does d) := by
  apply Prog.emits_bind
  · exact ask_does rfl rfl
  · intro _
    trivial

theorem taskCancel_does (endpoint : Endpoint) : (taskCancel endpoint).Emits (Does d) := by
  cases endpoint with
  | api =>
    apply Prog.emits_bind
    · exact ask_does rfl rfl
    · intro current
      cases current with
      | none => trivial
      | some s =>
        by_cases ended : isOver (TaskStore.status s) = true
        · simp [ended]
        · simp only [ended]
          exact ask_does rfl rfl
  | gateway =>
    apply Prog.emits_bind
    · exact gatewayGet_does
    · intro current
      cases current with
      | none => trivial
      | some s =>
        by_cases ended : s.status.any isOver = true
        · simp [ended]
        · simp only [ended]
          exact ask_does rfl rfl

theorem scanStale_does (endpoint : Endpoint) : (scanStale endpoint).Emits (Does d) := by
  cases endpoint with
  | api =>
    apply Prog.emits_bind
    · exact ask_does rfl rfl
    · intro current
      cases current with
      | none => trivial
      | some s =>
        by_cases running : TaskStore.status s = "RUNNING"
        · simp only [running, if_true]
          apply Prog.emits_bind
          · exact ask_does rfl rfl
          · intro heartbeat
            cases lost : Heartbeat.lost heartbeat with
            | none => trivial
            | some reason => exact taskTransition_does rfl (by decide)
        · simp [running]
  | gateway =>
    apply Prog.emits_bind
    · exact gatewayGet_does
    · intro current
      cases current with
      | none => trivial
      | some s =>
        by_cases running : s.status = some "RUNNING"
        · simp only [running, if_true]
          apply Prog.emits_bind
          · exact ask_does rfl rfl
          · intro heartbeat
            cases lost : Heartbeat.lost heartbeat with
            | none => trivial
            | some reason =>
              apply Prog.emits_perform
              refine ⟨?_, .inl rfl⟩
              intro next stored
              have same : "TIMEOUT" = next := by simpa [Effect.writes] using stored
              exact .inr (.inl ⟨"RUNNING", by simp [Effect.sees, running],
                by simp [← same, TaskStore.allowed]⟩)
        · simp [running]

theorem taskFeedback_does (request : Nat) (endpoint : Endpoint) (ofFeedback : d.ofFeedback) :
    (taskFeedback request endpoint).Emits (Does d) := by
  cases endpoint with
  | api =>
    apply Prog.emits_bind
    · exact ask_does rfl rfl
    · intro current
      cases current with
      | none => trivial
      | some s =>
        by_cases accepts : acceptsFeedback (TaskStore.status s) = true
        · simp only [accepts, if_true]
          cases turnCount s with
          | none => trivial
          | some turns =>
            by_cases few : turns + 1 ≤ JavaTaskState.feedbackMaxTurns
            · simp only [few]
              apply Prog.emits_bind
              · exact ask_does rfl rfl
              · intro _
                apply Prog.emits_bind
                · exact feedbackTransition_does ofFeedback
                · exact fun _ => ask_does rfl rfl
            · simp [few]
        · simp only [accepts]
          trivial
  | gateway =>
    apply Prog.emits_bind
    · exact gatewayGet_does
    · intro current
      cases current with
      | none => trivial
      | some s =>
        by_cases accepts : s.status.any acceptsFeedback ∧
            JavaTaskState.turnCount s + 1 ≤ JavaTaskState.feedbackMaxTurns
        · simp only [accepts]
          apply Prog.emits_bind
          · exact ask_does rfl rfl
          · intro raised
            cases (raised : Bool) with
            | true => trivial
            | false =>
              apply Prog.emits_bind
              · apply Prog.emits_perform
                refine ⟨?_, .inl rfl⟩
                intro next stored
                have same : "RUNNING" = next := by simpa [Effect.writes] using stored
                obtain ⟨old, status, accepted⟩ := (Option.any_eq_true _ _).mp accepts.1
                exact .inr (.inr ⟨ofFeedback, same.symm, old, by simp [Effect.sees, status], accepted⟩)
              · exact fun _ => ask_does rfl rfl
        · simp only [accepts]
          trivial

theorem stepDone_does (nodes : List NodeDone) : (stepDone nodes).Emits (Does d) := by
  induction nodes with
  | nil => trivial
  | cons n rest ih =>
    apply Prog.emits_bind
    · exact taskUpdate_does rfl
    · exact fun _ => ih

theorem graphLoop_does (run : Nat) (ending : Except String TaskStore.Write)
    (keeps : ∀ done, ending = .ok done → done.status = none) (steps : List (List NodeDone)) :
    (graphLoop run ending steps).Emits (Does d) := by
  induction steps with
  | nil =>
    cases ending with
    | error error => exact ask_does rfl rfl
    | ok done =>
      apply Prog.emits_bind
      · exact taskUpdate_does (keeps done rfl)
      · exact fun _ => ask_does rfl rfl
  | cons step rest ih =>
    apply Prog.emits_bind
    · exact ask_does rfl rfl
    · intro cancelled
      cases (cancelled : Bool) with
      | true =>
        apply Prog.emits_bind
        · exact taskTransition_does rfl (by decide)
        · intro _
          apply Prog.emits_bind
          · exact ask_does rfl rfl
          · exact fun _ => ask_does rfl rfl
      | false =>
        apply Prog.emits_bind
        · exact stepDone_does step
        · exact fun _ => ih

theorem runGraph_does (run : Nat) (graph : GraphRun Context) :
    (runGraph run graph).Emits (Does d) := by
  apply graphLoop_does
  intro done ok
  cases ends : graph.ending with
  | error error => simp [ends, Except.map] at ok
  | ok final =>
    simp only [ends, Except.map, Except.ok.injEq] at ok
    rw [← ok]
    rfl

theorem runFeedbackGraph_does (run : Nat) (graph : GraphRun (List Json)) :
    (runFeedbackGraph run graph).Emits (Does d) := by
  apply Prog.emits_bind
  · exact ask_does rfl rfl
  · intro _
    apply graphLoop_does
    intro done ok
    cases ends : graph.ending with
    | error error => simp [ends, Except.map] at ok
    | ok final =>
      simp only [ends, Except.map, Except.ok.injEq] at ok
      rw [← ok]
      rfl

theorem cancelled_does (error : Option String) :
    (do taskTransition (.ended "CANCELLED" error); taskClearCancel).Emits (Does d) := by
  apply Prog.emits_bind
  · exact taskTransition_does rfl (by decide)
  · exact fun _ => ask_does rfl rfl

theorem handleTask_does (retryCount : Fin 4) : (handleTask retryCount).Emits (Does d) := by
  apply Prog.emits_bind
  · exact ask_does rfl rfl
  · intro cancelled
    cases (cancelled : Bool) with
    | true => exact taskTransition_does rfl (by decide)
    | false =>
      apply Prog.emits_bind
      · exact taskTransition_does rfl (by decide)
      · intro _
        apply Prog.emits_bind
        · exact ask_does rfl rfl
        · intro run
          apply Prog.emits_bind
          · exact ask_does rfl rfl
          · intro waited
            cases (waited : Waited) with
            | timedOut =>
              apply Prog.emits_bind
              · exact ask_does rfl rfl
              · intro cancelled
                cases (cancelled : Bool) with
                | true => exact cancelled_does _
                | false => exact taskTransition_does rfl (by decide)
            | done result =>
              cases result with
              | returned cancelled =>
                cases cancelled with
                | true => trivial
                | false => exact taskTransition_does rfl (by decide)
              | raised error =>
                apply Prog.emits_bind
                · exact ask_does rfl rfl
                · intro cancelled
                  cases (cancelled : Bool) with
                  | true => exact cancelled_does _
                  | false =>
                    by_cases again : retryCount < 3
                    · simp only [again, if_true]
                      apply Prog.emits_bind
                      · exact ask_does rfl rfl
                      · exact fun _ => taskUpdate_does rfl
                    · simp only [again, if_false]
                      exact taskTransition_does rfl (by decide)

theorem handleFeedback_does (m : Message) (delivery : Nat) :
    (handleFeedback m delivery).Emits (Does (.handleFeedback m delivery)) := by
  apply Prog.emits_bind
  · exact Prog.emits_perform _ _ ⟨silent_stored rfl, .inr ⟨m, delivery, rfl⟩⟩
  · intro existing
    by_cases running : isRunning existing = true
    · simp [running]
    · simp only [running]
      apply Prog.emits_bind
      · exact feedbackTransition_does trivial
      · intro _
        apply Prog.emits_bind
        · exact Prog.emits_perform _ _ ⟨silent_stored rfl, .inr ⟨m, delivery, rfl⟩⟩
        · intro run
          apply Prog.emits_bind
          · exact ask_does rfl rfl
          · intro waited
            cases (waited : Waited) with
            | timedOut => exact taskTransition_does rfl (by decide)
            | done result =>
              cases result with
              | returned cancelled =>
                cases cancelled with
                | true => trivial
                | false => exact taskTransition_does rfl (by decide)
              | raised error => exact taskTransition_does rfl (by decide)

theorem body_does (d : Desc) : (body d).Emits (Does d) := by
  cases d with
  | submit submission => exact submit_does submission
  | cancel endpoint => exact taskCancel_does endpoint
  | scanStale endpoint => exact scanStale_does endpoint
  | feedback endpoint request => exact taskFeedback_does request endpoint trivial
  | handleTask retryCount => exact handleTask_does retryCount
  | runGraph run graph => exact runGraph_does run graph
  | handleFeedback m delivery => exact handleFeedback_does m delivery
  | runFeedbackGraph run graph => exact runFeedbackGraph_does run graph

/-- Effects start graph threads only. -/
theorem reply_forks {w : World} {c : Choice} {e : Effect} {r : e.Answer} {forks : List Desc}
    (replied : reply w c e = some (r, forks)) (m : Message) (delivery : Nat) :
    .handleFeedback m delivery ∉ forks := by
  rw [reply_starts replied]
  cases e <;> simp [World.starts]

end TaskThreads
end Nl2SqlAgent

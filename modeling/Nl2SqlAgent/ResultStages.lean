import Nl2SqlAgent.TaskProgress

/-! How far the handler of a request and its graph have come, told from what they do: when
the handler moves the task to SUCCESS or gives it up, and what its graph may still write and
publish. -/
namespace Nl2SqlAgent

open Lib

namespace ResultReports

open TaskEvents
open TaskThreads (NodeDone GraphRun Context)

/-- How far a request's handler has come: it has begun, goes to work, waits for its graph,
has its result, may move the task to SUCCESS, has moved it, or will not. No request's
handler has a number that is outside. -/
inductive Stage where
  | outside
  | begun
  | accepted
  | waiting
  | answered
  | admitted
  | moved
  | givenUp
  deriving DecidableEq, Repr

def returned : TaskThreads.Waited → Bool
  | .done (.returned cancelled) => !cancelled
  | _ => false

/-- The wait has ended without a result. -/
def expired : TaskThreads.Waited → Bool
  | .timedOut => true
  | _ => false

def Stage.next (stage : Stage) : (e : Effect) → e.Answer → Stage
  | .task _ .isCancelled, cancelled =>
    if stage = .begun then bif cancelled then .givenUp else .accepted else stage
  | .task _ .startGraph, _ => if stage = .accepted then .waiting else stage
  | .task _ (.await _), waited =>
    if stage = .waiting then bif returned waited then .answered else .givenUp else stage
  | .task _ .read, current =>
    if stage = .answered then
      bif TaskStore.validTransition current "SUCCESS" then .admitted else .givenUp
    else stage
  | .task _ (.update _ _ write), _ => if write.status = some "SUCCESS" then .moved else stage
  | _, _ => stage

def succeeds : Effect → Bool
  | .publish .success => true
  | _ => false

/-- The arguments of the update include the result. -/
def storesResult (write : TaskStore.Write) : Bool := "sql" ∈ write.fields.map Prod.fst

/-- What a graph reports of its result. -/
def reports : Effect → Bool
  | .publish .success => true
  | .task _ (.update _ _ write) => storesResult write
  | _ => false

/-- The handler whose part the effect ends. -/
def concludes : Effect → Option Nat
  | .task note (.update ..) => if note.decides then note.handler else none
  | _ => none

/-- The handler is at work on its task and has not moved it yet. -/
def Stage.active (stage : Stage) : Bool := stage ∈ [Stage.accepted, .waiting, .answered, .admitted]

/-- The handler has not started its graph. -/
def Stage.early (stage : Stage) : Bool := stage ∈ [Stage.begun, .accepted]

/-- The handler has got its graph's result. -/
def Stage.holding (stage : Stage) : Bool := stage ∈ [Stage.answered, .admitted, .moved]

/-- A document that has admitted the transition is still there when it is read again. -/
def Found (stage : Stage) : (e : Effect) → e.Answer → Prop
  | .task _ .read, current => stage = .admitted → Option.isSome current = true
  | _, _ => True

/-- A handler starts its graph when it has gone to work, and ends its part by a success or
when it has given up. -/
def stages : Prog.Protocol Effect Effect.Answer Stage where
  allows stage
    | .task _ .startGraph => stage = .accepted
    | .task _ (.startFeedbackGraph _) => False
    | .task note (.update _ _ write) => (write.status = some "SUCCESS" → stage = .admitted) ∧
        (note.decides = true → write.status = some "SUCCESS" ∨ stage = .givenUp)
    | _ => True
  next stage e r stage' := stage' = stage.next e r ∧ Found stage e r
  final stage := stage = .moved ∨ stage = .givenUp

section Programs

variable {n : Nat} {note : Note} {p : TaskEvents.Task α} {stage : Stage}

/-- What neither moves the task to SUCCESS nor starts a graph. -/
def Spares : Effect → Prop
  | .task _ (.update _ _ write) => write.status ≠ some "SUCCESS"
  | .task _ .startGraph => False
  | .task _ (.startFeedbackGraph _) => False
  | _ => True

/-- What a handler does between going to work and starting its graph. -/
def Quiet : Effect → Prop
  | .task note (.update _ _ write) => write.status ≠ some "SUCCESS" ∧ note.decides = false
  | .task _ .startGraph => False
  | .task _ (.startFeedbackGraph _) => False
  | _ => True

theorem spares_follows {p : TaskEvents.Task Unit} (spares : p.Emits Spares) :
    p.Follows stages .givenUp := by
  refine (spares.keeps fun e spared => ⟨?_, ?_⟩).follows fun _ _ same => .inr same
  · cases e with
    | task note e =>
      cases e with
      | update seen basis write => exact ⟨fun success => absurd success spared, fun _ => .inr rfl⟩
      | startGraph => exact absurd spared id
      | startFeedbackGraph delivery => exact absurd spared id
      | _ => trivial
    | _ => trivial
  · rintro r stage' ⟨rfl, -⟩
    cases e with
    | task note e =>
      cases e with
      | update seen basis write => exact if_neg spared
      | _ => rfl
    | _ => rfl

theorem quiet_keeps (quiet : p.Emits Quiet) :
    p.Keeps stages (fun _ stage' => stage' = .accepted) .accepted := by
  refine quiet.keeps fun e still => ⟨?_, ?_⟩
  · cases e with
    | task note e =>
      cases e with
      | update seen basis write =>
        obtain ⟨other, part⟩ := still
        exact ⟨fun success => absurd success other, fun decides => by simp [part] at decides⟩
      | startGraph => exact absurd still id
      | startFeedbackGraph delivery => exact absurd still id
      | _ => trivial
    | _ => trivial
  · rintro r stage' ⟨rfl, -⟩
    cases e with
    | task note e =>
      cases e with
      | update seen basis write => exact if_neg still.1
      | startGraph => exact absurd still id
      | _ => rfl
    | _ => rfl

theorem spares_transition {status : String} {error : Option String} (other : status ≠ "SUCCESS")
    (later : status ≠ "PENDING") :
    (calls note (TaskThreads.taskTransition (.ended status error))).Emits Spares :=
  Prog.emits_embed _ _ (TaskThreads.taskTransition_emits rfl later trivial
    fun _ _ _ success => other (Option.some.inj success))

theorem spares_isCancelled : (isCancelled n).Emits Spares := ⟨trivial, fun _ => trivial⟩

theorem spares_clearCancel : (clearCancel n).Emits Spares := ⟨trivial, fun _ => trivial⟩

theorem spares_publish (event : EventName) : (publish event).Emits Spares :=
  ⟨trivial, fun _ => trivial⟩

theorem spares_flagged {q : TaskEvents.Task Unit} (error : String) (rest : q.Emits Spares) :
    (isCancelled n >>= fun cancelled : Bool =>
      if cancelled then conclude n false "CANCELLED" (some error) >>= fun _ => clearCancel n
      else q).Emits Spares := by
  apply Prog.emits_bind _ _ _ spares_isCancelled
  intro cancelled
  cases (cancelled : Bool) with
  | true =>
    exact Prog.emits_bind _ _ _ (spares_transition (by decide) (by decide))
      fun _ => spares_clearCancel
  | false => exact rest

theorem success_follows (error : Option String) :
    (conclude n false "SUCCESS" error).Follows stages .answered := by
  refine Prog.follows_embed _ _ (Prog.follows_perform trivial ?_)
  rintro current stage' ⟨answer, rfl, rfl, -⟩
  change Prog.Follows _
    (bif TaskStore.validTransition answer "SUCCESS" then Stage.admitted else .givenUp)
    (if TaskStore.validTransition answer "SUCCESS" then
      TaskThreads.taskUpdate (Option.map TaskStore.status answer).toList (.ended "SUCCESS" error)
    else pure ())
  cases TaskStore.validTransition answer "SUCCESS" with
  | true =>
    apply Prog.follows_perform trivial
    rintro current stage' ⟨again, rfl, rfl, found⟩
    obtain ⟨d, rfl⟩ := Option.isSome_iff_exists.mp (found rfl)
    refine ⟨⟨fun _ => rfl, fun _ => .inl rfl⟩, ?_⟩
    rintro r stage' ⟨_, -, rfl, -⟩
    exact .inl rfl
  | false => exact .inr rfl

theorem taskWaited_follows (retryCount : Fin 4) (waited : TaskThreads.Waited) :
    (taskWaited n retryCount waited).Follows stages
      (bif returned waited then .answered else .givenUp) := by
  cases waited with
  | timedOut =>
    refine spares_follows (spares_flagged _ ?_)
    exact Prog.emits_bind _ _ _ (spares_transition (by decide) (by decide))
      fun _ => spares_publish _
  | done result =>
    cases result with
    | returned cancelled =>
      cases cancelled with
      | true => exact .inr rfl
      | false => exact success_follows none
    | raised error =>
      refine spares_follows (spares_flagged _ ?_)
      by_cases again : retryCount < 3
      · rw [if_pos again]
        refine Prog.emits_bind _ _ _ ⟨trivial, fun _ => trivial⟩ fun _ => ?_
        refine Prog.emits_bind _ _ _ ?_ fun _ => spares_publish _
        have stays : (none : Option String) ≠ some "SUCCESS" := nofun
        exact Prog.emits_embed _ _ (TaskThreads.taskUpdate_emits _ trivial fun _ => stays)
      · rw [if_neg again]
        apply Prog.emits_bind _ _ _ (spares_transition (by decide) (by decide))
        intro _
        exact Prog.emits_bind _ _ _ (spares_publish _) fun _ => ⟨trivial, fun _ => trivial⟩

theorem quiet_running (retryCount : Fin 4) :
    (calls { handler := some n, announced := true }
      (TaskThreads.taskTransition (.running retryCount))).Emits Quiet := by
  have stays : some "RUNNING" ≠ some "SUCCESS" := by decide
  exact Prog.emits_embed _ _ (TaskThreads.taskTransition_emits rfl (by decide) trivial
    fun _ _ _ => ⟨stays, rfl⟩)

/-- The handler of a request goes from stage to stage. -/
theorem handleTask_follows (retryCount : Fin 4) :
    (handleTask n retryCount).Follows stages .begun := by
  apply Prog.follows_perform trivial
  rintro cancelled stage' ⟨rfl, -⟩
  cases (cancelled : Bool) with
  | true => exact spares_follows (spares_transition (by decide) (by decide))
  | false =>
    apply Prog.follows_bind (quiet_keeps (quiet_running retryCount))
    rintro _ _ rfl
    refine Prog.follows_bind (quiet_keeps ⟨trivial, fun _ => trivial⟩) ?_
    rintro _ _ rfl
    refine ⟨rfl, ?_⟩
    rintro run _ ⟨rfl, -⟩
    refine ⟨trivial, ?_⟩
    rintro waited _ ⟨rfl, -⟩
    exact taskWaited_follows retryCount waited

/-- What a graph has come to. -/
inductive Telling where
  | working
  | told
  | stopped
  | settled
  deriving DecidableEq, Repr

def Telling.next (telling : Telling) : Effect → Telling
  | .publish .success => .told
  | .task _ (.settle ..) => .settled
  | .task note (.update ..) => if note.decides then .stopped else telling
  | _ => telling

/-- A graph writes and publishes while it works, and returns a result exactly if it has
published a success. -/
def tellings : Prog.Protocol Effect Effect.Answer Telling where
  allows telling
    | .publish .success => telling = .working
    | .task _ (.update ..) => telling = .working
    | .task _ (.settle _ result) =>
      telling ≠ .settled ∧ (result = .returned false ↔ telling = .told)
    | _ => True
  next telling e _ telling' := telling' = telling.next e
  final _ := True

/-- What a graph does between its beginning and its report. -/
def Muted : Effect → Prop
  | .task _ (.settle ..) => False
  | .task note (.update ..) => note.decides = false
  | .publish .success => False
  | _ => True

theorem muted_keeps (muted : p.Emits Muted) :
    p.Keeps tellings (fun _ telling => telling = .working) .working := by
  refine muted.keeps fun e still => ⟨?_, ?_⟩
  · cases e with
    | task note e =>
      cases e with
      | settle run result => exact absurd still id
      | update seen basis write => rfl
      | _ => trivial
    | publish event => cases event <;> trivial
    | _ => trivial
  · rintro r telling rfl
    cases e with
    | task note e =>
      cases e with
      | settle run result => exact absurd still id
      | update seen basis write =>
        have part : note.decides = false := still
        simp [Telling.next, part]
      | _ => rfl
    | publish event =>
      cases event with
      | success => exact absurd still id
      | _ => rfl
    | _ => rfl

theorem muted_update {write : TaskStore.Write} {announced : Bool} :
    (calls { handler := some n, announced } (TaskThreads.taskUpdate [] write)).Emits Muted :=
  Prog.emits_embed _ _ (TaskThreads.taskUpdate_emits _ trivial fun _ => rfl)

theorem muted_stepDone (more : Bool) (nodes : List NodeDone) :
    (stepDone n more nodes).Emits Muted := by
  induction nodes with
  | nil => trivial
  | cons node rest ih =>
    refine Prog.emits_bind _ _ _ ⟨trivial, fun _ => trivial⟩ fun _ => ?_
    exact Prog.emits_bind _ _ _ muted_update fun _ => ih

theorem settle_follows {run : Nat} {result : TaskThreads.Result} {telling : Telling}
    (opened : telling ≠ .settled) (returns : result = .returned false ↔ telling = .told) :
    (settle n run result).Follows tellings telling := ⟨⟨opened, returns⟩, fun _ _ _ => trivial⟩

/-- A graph that finds the flag has stopped, or found the task where it cannot be cancelled. -/
theorem cancelled_keeps : (conclude n true "CANCELLED" none).Keeps tellings
    (fun _ telling => telling = .working ∨ telling = .stopped) .working := by
  refine Prog.keeps_embed _ _ ⟨trivial, ?_⟩
  rintro current telling ⟨answer, rfl, rfl⟩
  change Prog.Keeps _ _ Telling.working (if TaskStore.validTransition answer "CANCELLED" then
    TaskThreads.taskUpdate (Option.map TaskStore.status answer).toList (.ended "CANCELLED" none)
    else pure ())
  split
  · refine ⟨trivial, ?_⟩
    rintro current telling ⟨again, rfl, rfl⟩
    cases (again : Option Doc) with
    | none => exact .inl rfl
    | some d =>
      refine ⟨rfl, ?_⟩
      rintro r telling ⟨_, -, rfl⟩
      exact .inr rfl
  · exact .inl rfl

theorem graphLoop_follows (run : Nat) (ending : Except String TaskStore.Write)
    (steps : List (List NodeDone)) : (graphLoop n run ending steps).Follows tellings .working := by
  induction steps with
  | nil =>
    cases ending with
    | error error => exact settle_follows nofun (by simp)
    | ok done =>
      apply Prog.follows_bind (muted_keeps muted_update)
      rintro _ _ rfl
      refine ⟨rfl, ?_⟩
      rintro sent _ rfl
      exact settle_follows nofun (by simp [Telling.next])
  | cons step rest ih =>
    apply Prog.follows_perform trivial
    rintro cancelled _ rfl
    cases (cancelled : Bool) with
    | true =>
      apply Prog.follows_bind cancelled_keeps
      rintro _ telling stopped
      refine ⟨trivial, ?_⟩
      rintro sent _ rfl
      refine ⟨trivial, ?_⟩
      rintro _ _ rfl
      rcases stopped with rfl | rfl
      · exact settle_follows nofun (by simp)
      · exact settle_follows nofun (by simp)
    | false =>
      apply Prog.follows_bind (muted_keeps (muted_stepDone _ step))
      rintro _ _ rfl
      exact ih

/-- What the handler of a feedback message does. -/
def Rounds : Effect → Prop
  | .task _ .startGraph => False
  | _ => True

theorem rounds_conclude (announced : Bool) (status : String) (error : Option String)
    (later : status ≠ "PENDING") : (conclude n announced status error).Emits Rounds :=
  Prog.emits_embed _ _ (TaskThreads.taskTransition_emits rfl later trivial fun _ _ _ => trivial)

theorem feedbackWaited_emits (m : TaskThreads.Message) (waited : TaskThreads.Waited) :
    (feedbackWaited n m waited).Emits Rounds := by
  cases waited with
  | timedOut =>
    exact Prog.emits_bind _ _ _ (rounds_conclude _ _ _ (by decide))
      fun _ => ⟨trivial, fun _ => trivial⟩
  | done result =>
    cases result with
    | returned cancelled =>
      cases cancelled with
      | true => trivial
      | false => exact rounds_conclude _ _ _ (by decide)
    | raised error =>
      exact Prog.emits_bind _ _ _ (rounds_conclude _ _ _ (by decide))
        fun _ => ⟨trivial, fun _ => trivial⟩

theorem handleFeedback_emits (m : TaskThreads.Message) (delivery : Nat) :
    (handleFeedback n m delivery).Emits Rounds := by
  refine ⟨trivial, fun (existing : Option Doc) => ?_⟩
  change Prog.Emits Rounds
    (if TaskThreads.isRunning existing then pure () else correct n m delivery)
  split
  · trivial
  · apply Prog.emits_bind
    · exact Prog.emits_embed _ _ (TaskThreads.feedbackTransition_emits trivial fun _ _ _ => trivial)
    · refine fun _ => Prog.emits_bind _ _ _ ⟨trivial, fun _ => trivial⟩ fun _ => ?_
      refine Prog.emits_bind _ _ _ ⟨trivial, fun _ => trivial⟩ fun run => ?_
      exact Prog.emits_bind _ _ _ ⟨trivial, fun _ => trivial⟩ (feedbackWaited_emits m)

end Programs

/-- Everything a handler's stage can do. -/
inductive Stage.Step : Stage → (e : Effect) → e.Answer → Stage → Prop where
  | stays : Step stage e r stage
  | flagged : Step .begun (.task note .isCancelled) true .givenUp
  | accepts : Step .begun (.task note .isCancelled) false .accepted
  | starts : Step .accepted (.task note .startGraph) run .waiting
  | answers : returned waited = true → Step .waiting (.task note (.await run)) waited .answered
  | expires : returned waited = false → Step .waiting (.task note (.await run)) waited .givenUp
  | admits : TaskStore.validTransition current "SUCCESS" = true →
      Step .answered (.task note .read) current .admitted
  | refuses : TaskStore.validTransition current "SUCCESS" = false →
      Step .answered (.task note .read) current .givenUp
  | moves : write.status = some "SUCCESS" →
      Step .admitted (.task note (.update seen basis write)) r .moved

/-- Everything a graph's state can do. -/
inductive Telling.Step : Telling → Effect → Telling → Prop where
  | stays : succeeds e = false → concludes e = none →
      (∀ note run result, e ≠ .task note (.settle run result)) → Step telling e telling
  | publishes : Step .working (.publish .success) .told
  | stops : Step .working (.task note (.update seen basis write)) .stopped
  | settles : Step telling (.task note (.settle run result)) .settled

section Stages

variable {stage stage' : Stage} {telling : Telling} {e : Effect} {r : e.Answer}

theorem next_step (allowed : stages.allows stage e) : stage.Step e r (stage.next e r) := by
  cases e with
  | task note e =>
    cases e with
    | isCancelled =>
      by_cases begun : stage = .begun
      · subst begun
        cases (r : Bool) with
        | true => exact .flagged
        | false => exact .accepts
      · rw [Stage.next, if_neg begun]
        exact .stays
    | startGraph =>
      obtain rfl : stage = .accepted := allowed
      exact .starts
    | await run =>
      by_cases waiting : stage = .waiting
      · subst waiting
        cases waited : returned r with
        | true =>
          simp only [Stage.next, waited, if_true, cond_true]
          exact .answers waited
        | false =>
          simp only [Stage.next, waited, if_true, cond_false]
          exact .expires waited
      · rw [Stage.next, if_neg waiting]
        exact .stays
    | read =>
      by_cases answered : stage = .answered
      · subst answered
        cases valid : TaskStore.validTransition r "SUCCESS" with
        | true =>
          simp only [Stage.next, valid, if_true, cond_true]
          exact .admits valid
        | false =>
          simp only [Stage.next, valid, if_true, cond_false]
          exact .refuses valid
      · rw [Stage.next, if_neg answered]
        exact .stays
    | update seen basis write =>
      by_cases success : write.status = some "SUCCESS"
      · obtain rfl : stage = .admitted := allowed.1 success
        rw [Stage.next, if_pos success]
        exact .moves success
      · rw [Stage.next, if_neg success]
        exact .stays
    | _ => exact .stays
  | _ => exact .stays

theorem telling_step (allowed : tellings.allows telling e) : telling.Step e (telling.next e) := by
  cases e with
  | task note e =>
    cases e with
    | update seen basis write =>
      obtain rfl : telling = .working := allowed
      cases decides : note.decides with
      | true =>
        simp only [Telling.next, decides, if_true]
        exact .stops
      | false =>
        simp only [Telling.next, decides, Bool.false_eq_true, if_false]
        exact .stays rfl (by simp [concludes, decides]) nofun
    | settle run result => exact .settles
    | _ => exact .stays rfl rfl nofun
  | publish event =>
    cases event with
    | success =>
      obtain rfl : telling = .working := allowed
      exact .publishes
    | _ => exact .stays rfl rfl nofun
  | _ => exact .stays rfl rfl nofun

namespace Stage.Step

theorem outside (step : Step stage e r stage') : stage' = .outside ↔ stage = .outside := by
  cases step <;> simp

theorem early (step : Step stage e r stage') (still : stage'.early = true) :
    stage.early = true := by
  cases step <;> first | exact still | rfl

end Stage.Step

end Stages

end ResultReports
end Nl2SqlAgent

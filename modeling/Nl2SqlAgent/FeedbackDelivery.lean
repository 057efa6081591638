import Nl2SqlAgent.TaskEffects

/-! What becomes of a feedback message: its handler starts a correction exactly when its
first read does not find the task running. -/
namespace Nl2SqlAgent

open Lib

namespace TaskThreads

variable {w w' : World} {c : Choice} {d : Desc} {e : Effect} {delivery : Nat} {m : Message} {p : Task Unit}

abbrev Quiet (e : Effect) : Prop := e.quiet = true

theorem transition_quiet {write : TaskStore.Write} {next : String}
    (status : write.status = some next) (later : next ≠ "PENDING") :
    (taskTransition write).Emits Quiet :=
  taskTransition_emits status later rfl fun _ _ _ => rfl

/-- Unless the task is running, the handler starts one graph, whatever it reads later. -/
theorem correct_leads (m : Message) (delivery : Nat) :
    (correct m delivery).Leads Quiet (.startFeedbackGraph delivery) := by
  apply Prog.leads_bind
  · exact feedbackTransition_emits rfl fun _ _ _ => rfl
  · intro _
    refine .inl ⟨rfl, fun run => ⟨rfl, fun waited => ?_⟩⟩
    cases (waited : Waited) with
    | timedOut => exact transition_quiet rfl (by decide)
    | done result =>
      cases result with
      | returned cancelled =>
        cases cancelled with
        | true => trivial
        | false => exact transition_quiet rfl (by decide)
      | raised error => exact transition_quiet rfl (by decide)

/-- How far the handler of a delivery has come, with what is recorded of it. -/
inductive Phase (w : World) (m : Message) (delivery : Nat) (p : Task Unit) : Prop where
  | fresh (whole : p = handleFeedback m delivery) (unread : ∀ b, (delivery, b) ∉ w.checks)
      (idle : w.executions.count delivery = 0)
  | skipping (read : (delivery, true) ∈ w.checks) (idle : w.executions.count delivery = 0)
      (quiet : p.Emits Quiet)
  | correcting (read : (delivery, true) ∉ w.checks) (idle : w.executions.count delivery = 0)
      (leads : p.Leads Quiet (.startFeedbackGraph delivery))
  | corrected (read : (delivery, true) ∉ w.checks) (once : w.executions.count delivery = 1)
      (quiet : p.Emits Quiet)

/-- Nothing new is recorded of the delivery. -/
structure Untouched (w w' : World) (delivery : Nat) : Prop where
  checks : ∀ b, (delivery, b) ∈ w'.checks ↔ (delivery, b) ∈ w.checks
  executions : w'.executions.count delivery = w.executions.count delivery

theorem Phase.frame (phase : Phase w m delivery p) (untouched : Untouched w w' delivery) :
    Phase w' m delivery p := by
  obtain ⟨checks, executions⟩ := untouched
  cases phase with
  | fresh whole unread idle =>
    exact .fresh whole (fun b => mt (checks b).mp (unread b)) (executions.trans idle)
  | skipping read idle quiet =>
    exact .skipping ((checks true).mpr read) (executions.trans idle) quiet
  | correcting read idle leads =>
    exact .correcting (mt (checks true).mp read) (executions.trans idle) leads
  | corrected read once quiet =>
    exact .corrected (mt (checks true).mp read) (executions.trans once) quiet

/-- Only a delivery's own handler records something of it. -/
def Effect.touches (delivery : Nat) : Effect → Prop
  | .inspect other => other = delivery
  | .startFeedbackGraph other => other = delivery
  | _ => False

theorem after_untouched (w : World) (c : Choice) (apart : ¬ e.touches delivery) :
    Untouched w (w.after c e) delivery := by
  cases e with
  | inspect other =>
    have different : delivery ≠ other := fun same => apart same.symm
    exact ⟨fun b => by simp [World.after, different], rfl⟩
  | startFeedbackGraph other =>
    have different : other ≠ delivery := apart
    exact ⟨fun b => Iff.rfl, by simp [World.after, different]⟩
  | _ => exact ⟨fun b => Iff.rfl, rfl⟩

theorem quiet_untouched (w : World) (c : Choice) (quiet : e.quiet = true) :
    Untouched w (w.after c e) delivery := by
  apply after_untouched
  cases e <;> simp [Effect.quiet, Effect.touches] at quiet ⊢

/-- What a handler does next is quiet or concerns its own delivery. -/
theorem Phase.effect {k : e.Answer → Task Unit} (phase : Phase w m delivery (.act e k)) :
    e.quiet = true ∨ e = .inspect delivery ∨ e = .startFeedbackGraph delivery := by
  cases phase with
  | fresh whole => exact .inr (.inl (Prog.act.inj whole).1)
  | skipping _ _ quiet => exact .inl quiet.1
  | correcting _ _ leads =>
    rcases leads with ⟨rfl, -⟩ | ⟨quiet, -⟩
    · exact .inr (.inr rfl)
    · exact .inl quiet
  | corrected _ _ quiet => exact .inl quiet.1

theorem Phase.step {k : e.Answer → Task Unit} {r : e.Answer} {forks : List Desc}
    (phase : Phase w m delivery (.act e k)) (replied : reply w c e = some (r, forks)) :
    Phase (w.after c e) m delivery (k r) := by
  cases phase with
  | fresh whole unread idle =>
    obtain ⟨rfl, rest⟩ := Prog.act.inj whole
    obtain rfl := eq_of_heq rest
    obtain ⟨rfl, -⟩ := Prod.mk.inj (Option.some.inj replied)
    by_cases running : isRunning w.doc = true
    · apply Phase.skipping
      · simp [World.after, running]
      · exact idle
      · change Prog.Emits Quiet (if isRunning w.doc = true then pure () else correct m delivery)
        rw [if_pos running]
        trivial
    · apply Phase.correcting
      · simp [World.after, running, unread]
      · exact idle
      · change Prog.Leads Quiet _ (if isRunning w.doc = true then pure () else correct m delivery)
        rw [if_neg running]
        exact correct_leads m delivery
  | skipping read idle quiet =>
    exact (Phase.skipping read idle (quiet.2 r)).frame (quiet_untouched w c quiet.1)
  | correcting read idle leads =>
    rcases leads with ⟨rfl, quiet⟩ | ⟨quiet, later⟩
    · exact .corrected read (by simp [World.after, idle]) (quiet r)
    · exact (Phase.correcting read idle (later r)).frame (quiet_untouched w c quiet)
  | corrected read once quiet =>
    exact (Phase.corrected read once (quiet.2 r)).frame (quiet_untouched w c quiet.1)

/-- Records are of deliveries that were made. -/
structure Recorded (w : World) : Prop where
  checks : ∀ k b, (k, b) ∈ w.checks → k < w.deliveries.length
  executions : ∀ k ∈ w.executions, k < w.deliveries.length

theorem Recorded.after (recorded : Recorded w) (c : Choice)
    (made : ∀ k, e.touches k → k < w.deliveries.length) : Recorded (w.after c e) := by
  cases e with
  | inspect other =>
    refine ⟨fun k b member => ?_, recorded.executions⟩
    rcases List.mem_cons.mp member with new | old
    · obtain ⟨rfl, -⟩ := Prod.mk.inj new
      exact made k rfl
    · exact recorded.checks k b old
  | startFeedbackGraph other =>
    refine ⟨recorded.checks, fun k member => ?_⟩
    rcases List.mem_cons.mp member with rfl | old
    · exact made k rfl
    · exact recorded.executions k old
  | _ => exact ⟨recorded.checks, recorded.executions⟩

theorem after_deliveries (w : World) (c : Choice) (e : Effect) :
    (w.after c e).deliveries = w.deliveries := by
  cases e <;> rfl

/-- What holds of a thread: a handler is in some phase, and no other thread touches a record. -/
def Settled (w : World) (t : Thread Effect Effect.Answer Desc) : Prop :=
  match t.desc with
  | .handleFeedback m k => w.deliveries[k]? = some m ∧ Phase w m k t.rest
  | _ => t.rest.Emits Quiet

/-- Two threads do not handle the same delivery. -/
def Apart : Desc → Desc → Prop
  | .handleFeedback _ k, .handleFeedback _ k' => k ≠ k'
  | _, _ => True

theorem quiet_of_does (does : Does d e) (other : ∀ m k, d ≠ .handleFeedback m k) :
    e.quiet = true := by
  rcases does.handler with quiet | ⟨m, k, same⟩
  · exact quiet
  · exact absurd same (other m k)

theorem settled_start {d : Desc} (other : ∀ m k, d ≠ .handleFeedback m k) :
    Settled w (system.start d) := by
  have quiet : (body d).Emits Quiet := (body_does d).mono fun e does => quiet_of_does does other
  cases d with
  | handleFeedback m k => exact absurd rfl (other m k)
  | _ => exact quiet

theorem Settled.effect {k : e.Answer → Task Unit} (settled : Settled w ⟨d, .act e k⟩) :
    e.quiet = true ∨ ∃ m delivery, d = .handleFeedback m delivery ∧
      w.deliveries[delivery]? = some m ∧ (e = .inspect delivery ∨ e = .startFeedbackGraph delivery) := by
  cases d with
  | handleFeedback m delivery =>
    rcases settled.2.effect with quiet | own
    · exact .inl quiet
    · exact .inr ⟨m, delivery, rfl, settled.1, own⟩
  | _ => exact .inl settled.1

theorem Settled.touches {k : e.Answer → Task Unit} (settled : Settled w ⟨d, .act e k⟩)
    (touched : e.touches delivery) :
    ∃ m, d = .handleFeedback m delivery ∧ w.deliveries[delivery]? = some m := by
  rcases settled.effect with quiet | ⟨m, own, rfl, made, rfl | rfl⟩
  · cases e <;> simp [Effect.quiet, Effect.touches] at quiet touched
  · obtain rfl : own = delivery := touched
    exact ⟨m, rfl, made⟩
  · obtain rfl : own = delivery := touched
    exact ⟨m, rfl, made⟩

theorem Settled.frame {t : Thread Effect Effect.Answer Desc} (settled : Settled w t)
    (deliveries : ∀ (k : Nat) (m : Message), w.deliveries[k]? = some m →
      w'.deliveries[k]? = some m)
    (untouched : ∀ m k, t.desc = .handleFeedback m k → Untouched w w' k) : Settled w' t := by
  obtain ⟨d, rest⟩ := t
  cases d with
  | handleFeedback m k =>
    exact ⟨deliveries k m settled.1, settled.2.frame (untouched m k rfl)⟩
  | _ => exact settled

theorem forks_other {r : e.Answer} {forks : List Desc} {f : Desc}
    (replied : reply w c e = some (r, forks)) (forked : f ∈ forks) :
    ∀ m k, f ≠ .handleFeedback m k := by
  rintro m k rfl
  exact reply_forks replied m k forked

theorem apart_other {f : Desc} (other : ∀ m k, f ≠ .handleFeedback m k) :
    Apart d f ∧ Apart f d := by
  cases f with
  | handleFeedback m k => exact absurd rfl (other m k)
  | _ => cases d <;> exact ⟨trivial, trivial⟩

/-- What an arrival changes of the records: a new delivery is the next one. -/
theorem arrive_records (arrived : arrive w d = some w') :
    w'.checks = w.checks ∧ w'.executions = w.executions ∧
      ((w'.deliveries = w.deliveries ∧ ∀ m k, d ≠ .handleFeedback m k) ∨
        ∃ m, d = .handleFeedback m w.deliveries.length ∧ w'.deliveries = w.deliveries ++ [m]) := by
  cases d with
  | feedback endpoint request =>
    obtain ⟨-, same⟩ := Option.ite_none_right_eq_some.mp arrived
    obtain rfl := Option.some.inj same
    exact ⟨rfl, rfl, .inl ⟨rfl, by simp⟩⟩
  | handleTask retryCount =>
    obtain ⟨-, same⟩ := Option.ite_none_right_eq_some.mp arrived
    obtain rfl := Option.some.inj same
    exact ⟨rfl, rfl, .inl ⟨rfl, by simp⟩⟩
  | handleFeedback m k =>
    obtain ⟨⟨-, rfl⟩, same⟩ := Option.ite_none_right_eq_some.mp arrived
    obtain rfl := Option.some.inj same
    exact ⟨rfl, rfl, .inr ⟨m, rfl, rfl⟩⟩
  | runGraph run graph => contradiction
  | runFeedbackGraph run graph => contradiction
  | _ =>
    obtain rfl := Option.some.inj arrived
    exact ⟨rfl, rfl, .inl ⟨rfl, by simp⟩⟩

theorem Settled.arrive {t : Thread Effect Effect.Answer Desc} (settled : Settled w t)
    (arrived : TaskThreads.arrive w d = some w') : Settled w' t := by
  obtain ⟨checks, executions, deliveries⟩ := arrive_records arrived
  apply settled.frame
  · intro k m made
    rcases deliveries with ⟨same, -⟩ | ⟨other, -, same⟩
    · rw [same]
      exact made
    · have bound : k < w.deliveries.length := (List.getElem?_eq_some_iff.mp made).1
      rw [same, List.getElem?_append_left bound]
      exact made
  · intro _ k _
    exact ⟨fun b => by rw [checks], by rw [executions]⟩

theorem fresh_settled (recorded : Recorded w) (checks : w'.checks = w.checks)
    (executions : w'.executions = w.executions) (deliveries : w'.deliveries = w.deliveries ++ [m]) :
    Settled w' (system.start (.handleFeedback m w.deliveries.length)) := by
  refine ⟨by simp [deliveries], .fresh rfl ?_ ?_⟩
  · intro b member
    rw [checks] at member
    exact absurd (recorded.checks _ _ member) (Nat.lt_irrefl _)
  · rw [executions, List.count_eq_zero]
    intro member
    exact absurd (recorded.executions _ member) (Nat.lt_irrefl _)

def deliveryOutline : Threads.Outline system fun _ _ _ _ => True where
  inv := Recorded
  ok := Settled
  apart := Apart
  own {w c d e k w' r forks} recorded settled _ performed := by
    obtain ⟨rfl, replied⟩ := perform_after performed
    refine ⟨recorded.after c ?_, ?_, ?_⟩
    · intro delivery touched
      obtain ⟨m, -, made⟩ := settled.touches touched
      exact (List.getElem?_eq_some_iff.mp made).1
    · cases d with
      | handleFeedback m delivery =>
        refine ⟨?_, settled.2.step replied⟩
        rw [after_deliveries]
        exact settled.1
      | _ => exact settled.2 r
    · intro f forked
      exact settled_start (forks_other replied forked)
  stable {w c d e k w' r forks t} _ settled _ performed other apart := by
    obtain ⟨rfl, -⟩ := perform_after performed
    apply other.frame
    · intro j m made
      rw [after_deliveries]
      exact made
    · intro m delivery same
      apply after_untouched
      intro touched
      obtain ⟨m', rfl, -⟩ := settled.touches touched
      rw [same] at apart
      exact apart.1 rfl
  fork_apart {w c d e k w' r forks} _ _ performed := by
    obtain ⟨-, replied⟩ := perform_after performed
    constructor
    · intro t _ f forked
      exact apart_other (forks_other replied forked)
    · apply List.Pairwise.imp_of_mem (R := fun _ _ => True) _ (List.pairwise_of_forall fun _ _ => trivial)
      intro f g _ forked _
      exact apart_other (forks_other replied forked)
  arrive {w d w'} recorded arrived := by
    obtain ⟨checks, executions, deliveries⟩ := arrive_records arrived
    have grown : w.deliveries.length ≤ w'.deliveries.length := by
      rcases deliveries with ⟨same, -⟩ | ⟨m, -, same⟩ <;> simp [same]
    refine ⟨⟨?_, ?_⟩, ?_, ?_⟩
    · intro k b member
      rw [checks] at member
      have before := recorded.checks k b member
      omega
    · intro k member
      rw [executions] at member
      have before := recorded.executions k member
      omega
    · rcases deliveries with ⟨-, other⟩ | ⟨m, rfl, same⟩
      · exact settled_start other
      · exact fresh_settled recorded checks executions same
    · intro t settled
      refine ⟨settled.arrive arrived, ?_⟩
      rcases deliveries with ⟨-, other⟩ | ⟨m, rfl, -⟩
      · exact apart_other other
      · obtain ⟨desc, rest⟩ := t
        cases desc with
        | handleFeedback m' k =>
          have before : k < w.deliveries.length := (List.getElem?_eq_some_iff.mp settled.1).1
          exact ⟨by change k ≠ _; omega, by change _ ≠ k; omega⟩
        | _ => exact ⟨trivial, trivial⟩
  ambient {_ x _} _ _ := nomatch x

/-- How often `run_feedback_graph` was started for a message. -/
def World.executed (w : World) (m : Message) : Nat :=
  (w.executions.filter fun k => w.deliveries[k]? = some m).length

/-- The message was delivered once. -/
def DeliveredOnce (w : World) (m : Message) (delivery : Nat) : Prop :=
  ∀ k, w.deliveries[k]? = some m ↔ k = delivery

theorem executed_once (once : DeliveredOnce w m delivery) :
    w.executed m = w.executions.count delivery := by
  have same (k : Nat) : decide (w.deliveries[k]? = some m) = (k == delivery) := by
    rw [decide_eq_decide.mpr (once k)]
    rfl
  simp only [World.executed, same, List.count, List.countP_eq_length_filter]

/-- An accepted feedback that is delivered once is executed exactly once, exactly when
its handler did not find the task running. -/
theorem feedback_executed_iff {events : List (Event Desc Choice Empty)}
    {c : Config Effect Effect.Answer World Desc}
    (run : system.machine.exec start events = some c) :
    ∀ m ∈ c.world.answered, ∀ delivery, DeliveredOnce c.world m delivery →
      ⟨.handleFeedback m delivery, .ret ()⟩ ∈ c.pool →
      (c.world.executed m = 1 ↔ (delivery, true) ∉ c.world.checks) := by
  intro m _ delivery once handled
  have holds := deliveryOutline.run (deliveryOutline.holds_empty ⟨by simp, by simp⟩)
    (Machine.along_true.mono fun _ _ _ _ => system.meets_true _ _ _) run
  have phase := (holds.threads _ handled).2
  rw [executed_once once]
  cases phase with
  | fresh whole => contradiction
  | skipping read idle => simp [idle, read]
  | correcting _ _ leads => exact absurd leads id
  | corrected read once => simp [once, read]

/-- A task with a cached result gets one feedback through the API, up to the publishing:
thread 0 is the submit, thread 1 the request. -/
def asked : List (Event Desc Choice Empty) :=
  [.arrive (.submit (.cached "t1" "How many orders?" "shop" (some "SELECT 1") .null none none)),
    .run 0 {}, .arrive (.feedback .api 0), .run 1 {}, .run 1 {}]

/-- The worker takes the message at once, and the endpoint goes on when its handler has
waited in vain. -/
def workerFirst : List (Event Desc Choice Empty) :=
  asked ++ [.arrive (.handleFeedback ⟨0, 1⟩ 0), .run 2 {}, .run 2 {}, .run 2 {}, .run 2 {},
    .run 2 {}, .run 2 { timedOut := true }, .run 2 {}, .run 2 {}, .run 2 {}, .run 1 {}, .run 1 {}]

/-- The endpoint has stored RUNNING and answered when the worker takes the message. -/
def endpointFirst : List (Event Desc Choice Empty) :=
  asked ++ [.run 1 {}, .run 1 {}, .run 1 {}, .run 1 {}, .arrive (.handleFeedback ⟨0, 1⟩ 0), .run 2 {}]

/-- The message and delivery of a handler that has returned. -/
def returned : Option (Thread Effect Effect.Answer Desc) → Option (Message × Nat)
  | some ⟨.handleFeedback m delivery, .ret _⟩ => some (m, delivery)
  | _ => none

theorem returned_mem {pool : List (Thread Effect Effect.Answer Desc)} {pid : Nat}
    (found : returned pool[pid]? = some (m, delivery)) :
    ⟨.handleFeedback m delivery, .ret ()⟩ ∈ pool := by
  cases fetched : pool[pid]? with
  | none => simp [fetched, returned] at found
  | some t =>
    obtain ⟨d, rest⟩ := t
    rw [fetched] at found
    cases rest with
    | act e k => cases d <;> simp [returned] at found
    | ret u =>
      cases d with
      | handleFeedback m' delivery' =>
        obtain ⟨rfl, rfl⟩ := Prod.mk.inj (Option.some.inj found)
        exact List.mem_of_getElem? fetched
      | _ => simp [returned] at found

theorem only_delivery (deliveries : w.deliveries = [m]) : DeliveredOnce w m 0 := by
  intro k
  rw [deliveries]
  cases k <;> simp

theorem feedback_executed_worker_first :
    ∃ c, system.machine.exec start workerFirst = some c ∧ c.world.executed ⟨0, 1⟩ = 1 := by
  have ends : (system.machine.exec start workerFirst).any (fun c =>
      ⟨0, 1⟩ ∈ c.world.answered ∧ c.world.deliveries = [⟨0, 1⟩] ∧
      returned c.pool[2]? = some (⟨0, 1⟩, 0) ∧ (0, true) ∉ c.world.checks) = true := by decide
  obtain ⟨c, run, final⟩ := (Option.any_eq_true _ _).mp ends
  obtain ⟨answered, once, handled, unread⟩ := of_decide_eq_true final
  have executed := feedback_executed_iff run _ answered 0 (only_delivery once) (returned_mem handled)
  exact ⟨c, run, executed.mpr unread⟩

/-- The endpoint's own status makes the worker skip the message as a duplicate. -/
theorem accepted_feedback_skipped :
    ∃ c, system.machine.exec start endpointFirst = some c ∧ ⟨0, 1⟩ ∈ c.world.answered ∧
      DeliveredOnce c.world ⟨0, 1⟩ 0 ∧ ⟨.handleFeedback ⟨0, 1⟩ 0, .ret ()⟩ ∈ c.pool ∧
      c.world.executed ⟨0, 1⟩ = 0 := by
  have ends : (system.machine.exec start endpointFirst).any (fun c =>
      ⟨0, 1⟩ ∈ c.world.answered ∧ c.world.deliveries = [⟨0, 1⟩] ∧
      returned c.pool[2]? = some (⟨0, 1⟩, 0) ∧ c.world.executed ⟨0, 1⟩ = 0) = true := by decide
  obtain ⟨c, run, final⟩ := (Option.any_eq_true _ _).mp ends
  obtain ⟨answered, once, handled, never⟩ := of_decide_eq_true final
  exact ⟨c, run, answered, only_delivery once, returned_mem handled, never⟩

end TaskThreads
end Nl2SqlAgent

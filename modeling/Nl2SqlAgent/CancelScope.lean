import Nl2SqlAgent.Lib.Watch
import Nl2SqlAgent.TaskThreads

/-! The cancel flag of a task against its runs: which run a request to cancel was made in,
and which feedback rounds the flag ends. The flag may expire at any time. -/
namespace Nl2SqlAgent

open Lib

namespace CancelScope

open TaskThreads (World Desc Choice Effect Message)

/-- The ambient move is the end of the flag's one-hour life. -/
def system : Threads Effect Effect.Answer World Desc Choice Unit where
  body := TaskThreads.body
  perform := TaskThreads.perform
  arrive := TaskThreads.arrive
  ambient w _ := some { w with cancelled := false }

/-- A feedback round whose own graph thread found the flag: its message, how many runs had
ended when the message was published and when cancelling was last requested. What any other
thread finds of the flag is not noted. -/
structure Cancel where
  message : Message
  accepted : Nat
  requested : Nat
  deriving DecidableEq, Repr

/-- How many runs have ended, and how many had at the last request to cancel and when each
feedback message was published; the messages of the feedback rounds by their graph
thread, and the rounds that found the flag. -/
structure Record where
  ended : Nat := 0
  requested : Nat := 0
  accepted : List (Message × Nat) := []
  rounds : List (Nat × Message) := []
  cancels : List Cancel := []

def endings : List String := ["SUCCESS","FAILED","CANCELLED"]

/-- The cancel of the round that a graph thread runs. -/
def Record.found (g : Record) (run : Nat) : Record :=
  let own := g.accepted.filter fun entry => (run, entry.1) ∈ g.rounds
  { g with cancels := own.map (fun entry => ⟨entry.1, entry.2, g.requested⟩) ++ g.cancels }

def Record.after (g : Record) (d : Desc) : (e : Effect) → e.Answer → Record
  | .update _ _ write, _ =>
    if write.status.any (· ∈ endings) then { g with ended := g.ended + 1 } else g
  | .requestCancel, _ => { g with requested := g.ended }
  | .publishFeedback m, _ => { g with accepted := (m, g.ended) :: g.accepted }
  | .startFeedbackGraph _, run =>
    match d with
    | .handleFeedback m _ => { g with rounds := (run, m) :: g.rounds }
    | _ => g
  | .isCancelled, true =>
    match d with
    | .runFeedbackGraph run _ => g.found run
    | _ => g
  | _, _ => g

def notes : Notes Effect Effect.Answer World Desc Unit Record where
  run _ g d e r := g.after d e r

abbrev watched := system.watched notes

abbrev Run := Config (Desc × Effect) (fun e => e.2.Answer) (World × Record) Desc

def start : Run := ⟨(TaskThreads.start.world, {}), []⟩

/-- A feedback message is published when the flag is not set, or was set after the last run
that has ended. -/
def Unflagged (w : World × Record) (_ : Desc) (e : Desc × Effect) (_ : e.2.Answer) : Prop :=
  match e.2 with
  | .publishFeedback _ => w.1.cancelled = true → w.2.requested = w.2.ended
  | _ => True

/-- The flag was requested after every run that had ended before a message was published. -/
structure Scoped (w : World × Record) : Prop where
  past : ∀ entry ∈ w.2.accepted, entry.2 ≤ w.2.ended
  current : w.1.cancelled = true → ∀ entry ∈ w.2.accepted, entry.2 ≤ w.2.requested
  cancels : ∀ cancel ∈ w.2.cancels, cancel.accepted ≤ cancel.requested

theorem start_scoped : Scoped start.world where
  past := by simp [start]
  current := by simp [start]
  cancels := by simp [start]

/-- The rounds that find the flag are those whose messages were published before. -/
theorem Scoped.found {w : World × Record} (kept : Scoped w) (flagged : w.1.cancelled = true)
    (run : Nat) : Scoped (w.1, w.2.found run) := by
  refine ⟨kept.past, kept.current, fun cancel member => ?_⟩
  rcases List.mem_append.mp member with new | old
  · obtain ⟨entry, own, rfl⟩ := List.mem_map.mp new
    exact kept.current flagged entry (List.mem_filter.mp own).1
  · exact kept.cancels cancel old

theorem Scoped.same {w w' : World × Record} (kept : Scoped w)
    (flag : w'.1.cancelled = w.1.cancelled) (noted : w'.2 = w.2) : Scoped w' := by
  obtain ⟨world, record⟩ := w'
  obtain rfl : record = w.2 := noted
  refine ⟨kept.past, fun flagged => ?_, kept.cancels⟩
  exact kept.current (flag.symm.trans flagged)

theorem performed_scoped {w w' : World × Record} {c : Choice} {d : Desc} {e : Desc × Effect}
    {r : e.2.Answer} {forks : List Desc} (kept : Scoped w) (unflagged : Unflagged w d e r)
    (performed : watched.perform w c e = some (w', r, forks)) : Scoped w' := by
  obtain ⟨d, e⟩ := e
  obtain ⟨taken, noted⟩ := Threads.watched_performed performed
  obtain ⟨world, replied⟩ := TaskThreads.perform_after taken
  obtain ⟨w', g'⟩ := w'
  obtain rfl : w' = w.1.after c e := world
  cases e with
  | update seen basis write =>
    by_cases ends : write.status.any (· ∈ endings) = true
    · obtain rfl : g' = { w.2 with ended := w.2.ended + 1 } := noted.trans (if_pos ends)
      refine ⟨fun entry member => ?_, kept.current, kept.cancels⟩
      exact (kept.past entry member).trans (Nat.le_succ _)
    · exact kept.same rfl (noted.trans (if_neg ends))
  | requestCancel =>
    obtain rfl : g' = { w.2 with requested := w.2.ended } := noted
    exact ⟨kept.past, fun _ => kept.past, kept.cancels⟩
  | clearCancel =>
    obtain rfl : g' = w.2 := noted
    exact ⟨kept.past, nofun, kept.cancels⟩
  | publishFeedback m =>
    obtain rfl : g' = { w.2 with accepted := (m, w.2.ended) :: w.2.accepted } := noted
    refine ⟨fun entry member => ?_, fun flagged entry member => ?_, kept.cancels⟩
    · rcases List.mem_cons.mp member with rfl | old
      · exact Nat.le_refl _
      · exact kept.past entry old
    · have fresh : w.2.requested = w.2.ended := unflagged flagged
      rcases List.mem_cons.mp member with rfl | old
      · exact fresh.ge
      · exact kept.current flagged entry old
  | startFeedbackGraph delivery =>
    cases d with
    | handleFeedback m k =>
      obtain rfl : g' = { w.2 with rounds := (r, m) :: w.2.rounds } := noted
      exact ⟨kept.past, kept.current, kept.cancels⟩
    | _ => exact kept.same rfl noted
  | isCancelled =>
    obtain rfl : w.1.cancelled = r := (Prod.mk.inj (Option.some.inj replied)).1
    cases flagged : w.1.cancelled with
    | false =>
      rw [flagged] at noted
      exact kept.same rfl noted
    | true =>
      rw [flagged] at noted
      cases d with
      | runFeedbackGraph run graph =>
        obtain rfl : g' = w.2.found run := noted
        exact kept.found flagged run
      | _ => exact kept.same rfl noted
  | _ => exact kept.same rfl noted

theorem arrived_scoped {w w' : World × Record} {d : Desc} (kept : Scoped w)
    (arrived : watched.arrive w d = some w') : Scoped w' := by
  obtain ⟨taken, noted⟩ := Threads.watched_arrived arrived
  refine kept.same ?_ noted
  cases d with
  | feedback endpoint request =>
    obtain ⟨-, same⟩ := Option.ite_none_right_eq_some.mp taken
    rw [← Option.some.inj same]
  | handleTask retryCount =>
    obtain ⟨-, same⟩ := Option.ite_none_right_eq_some.mp taken
    rw [← Option.some.inj same]
  | handleFeedback m delivery =>
    obtain ⟨-, same⟩ := Option.ite_none_right_eq_some.mp taken
    rw [← Option.some.inj same]
  | runGraph | runFeedbackGraph => exact nomatch taken
  | _ => rw [← Option.some.inj taken]

theorem moved_scoped {w w' : World × Record} {x : Unit} (kept : Scoped w)
    (moved : watched.ambient w x = some w') : Scoped w' := by
  obtain ⟨taken, noted⟩ := Threads.watched_moved moved
  obtain ⟨w', g'⟩ := w'
  obtain rfl : { w.1 with cancelled := false } = w' := Option.some.inj taken
  obtain rfl : g' = w.2 := noted
  exact ⟨kept.past, nofun, kept.cancels⟩

/-- In a run that publishes feedback only when no flag of an earlier run is set, a round is
cancelled in its graph only by a request that came after every run that had ended when it was
accepted. -/
theorem cancels_scoped {events : List (Event Desc Choice Unit)} {c : Run}
    (unflagged : watched.machine.Along (watched.Meets Unflagged) start events)
    (run : watched.machine.exec start events = some c) :
    ∀ cancel ∈ c.world.2.cancels, cancel.accepted ≤ cancel.requested := by
  have kept : Scoped c.world := Threads.world_along Scoped
    performed_scoped (fun kept arrived => arrived_scoped kept arrived)
    (fun kept moved => moved_scoped kept moved) start_scoped unflagged run
  exact kept.cancels

instance (w : World × Record) (d : Desc) : (e : Desc × Effect) → (r : e.2.Answer) →
    Decidable (Unflagged w d e r)
  | (_, .publishFeedback _), _ =>
    inferInstanceAs (Decidable (w.1.cancelled = true → w.2.requested = w.2.ended))
  | (_, .create _), _ | (_, .read), _ | (_, .inspect _), _ | (_, .update ..), _ | (_, .save ..), _
  | (_, .requestCancel), _ | (_, .isCancelled), _ | (_, .clearCancel), _ | (_, .heartbeat), _
  | (_, .publishRequest _), _ | (_, .answer _), _ | (_, .startGraph), _
  | (_, .startFeedbackGraph _), _ | (_, .await _), _ | (_, .settle ..), _ => isTrue trivial

abbrev Step := Event Desc Choice Unit

def go (pid commands : Nat) : List Step := List.replicate commands (.run pid {})

/-- What a graph without a step comes to. -/
def graph : TaskThreads.GraphRun TaskThreads.Context :=
  ⟨[], .ok (⟨some "SELECT 1", .null, [], []⟩, ⟨"", "", "", []⟩)⟩

/-- A task is submitted and taken; its graph has come to its end. -/
def executed : List Step :=
  [.arrive (.submit (.api "t1" "How many orders?" "shop" ""))] ++ go 0 2 ++
    [.arrive (.handleTask 0)] ++ go 1 4 ++ [.run 1 { graph := graph }] ++ go 2 3

/-- The handler stores the success, feedback is published, and its round begins. -/
def corrected (feedback : Nat) : List Step :=
  go 1 4 ++ [.arrive (.feedback .api 0)] ++ go feedback 2 ++ [.arrive (.handleFeedback ⟨0, 1⟩ 0)] ++
    go (feedback + 1) 4 ++ [.run (feedback + 1) { feedbackGraph := ⟨[[]], .error ""⟩ }] ++
    go (feedback + 2) 1

/-- Cancelling is requested when the round has begun. -/
def cancelledLater : List Step :=
  executed ++ corrected 3 ++ [.arrive (.cancel .gateway)] ++ go 6 2 ++ go 5 1

theorem cancels_scoped_later :
    ∃ c, watched.machine.exec start cancelledLater = some c ∧
      c.world.2.cancels = [⟨⟨0, 1⟩, 1, 1⟩] ∧
      ∀ cancel ∈ c.world.2.cancels, cancel.accepted ≤ cancel.requested := by
  have ends : (watched.machine.exec start cancelledLater).any (fun c =>
      c.world.2.cancels = [⟨⟨0, 1⟩, 1, 1⟩]) = true := by decide +kernel
  obtain ⟨c, run, final⟩ := (Option.any_eq_true _ _).mp ends
  exact ⟨c, run, of_decide_eq_true final, cancels_scoped (by decide +kernel) run⟩

/-- Cancelling is requested when the first graph has ended, before the success is stored. -/
def cancelledBefore : List Step :=
  executed ++ [.arrive (.cancel .api)] ++ go 3 2 ++ corrected 4 ++ go 6 1

theorem round_cancelled_by_earlier_request :
    ∃ c, watched.machine.exec start cancelledBefore = some c ∧
      ∃ cancel ∈ c.world.2.cancels, cancel.requested < cancel.accepted := by
  have ends : (watched.machine.exec start cancelledBefore).any (fun c =>
      c.world.2.cancels = [⟨⟨0, 1⟩, 1, 0⟩]) = true := by decide +kernel
  obtain ⟨c, run, final⟩ := (Option.any_eq_true _ _).mp ends
  have cancels := of_decide_eq_true final
  exact ⟨c, run, ⟨⟨0, 1⟩, 1, 0⟩, by simp [cancels], by decide⟩

end CancelScope
end Nl2SqlAgent

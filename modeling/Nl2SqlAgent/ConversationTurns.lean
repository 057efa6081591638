import Nl2SqlAgent.StoredHistory

/-! The stored history of a task beside the rounds that were completed. A round writes the
history of its message with its own turn, any other write the history it has read; the two
stay the same as long as what is written is still what is stored. -/
namespace Nl2SqlAgent

open Lib

namespace FeedbackRounds

open JavaTaskState (TaskState)

/-- The turns in a document; the gateway stores an empty object for none. -/
def docTurns (d : Doc) : List Json :=
  match d.lookup "conversation_turns" with
  | some (.arr items) => items
  | _ => []

def World.turns (w : World) : List Json := (w.task.doc.map docTurns).getD []

/-- The stored history is that of the completed rounds, in order and numbered from one. -/
structure Tells (w : World) : Prop where
  turns : w.turns = numbered w.rounds
  bound : w.rounds.length ≤ JavaTaskState.feedbackMaxTurns

/-- The history after a step is that of the completed rounds, and goes on from the one before. -/
structure Continues (w w' : World) : Prop where
  tells : Tells w'
  kept : w.turns <+: w'.turns

/-- The history that a write of the document carries: of what it has read, or for a round's
last update of its message. -/
def Effect.carries : Effect → Option (List Json)
  | .task (.update _ basis _) => some (docTurns basis)
  | .task (.save s _) => some (turns s)
  | .complete _ history _ _ _ => some history
  | _ => none

/-- When it is written, the history is the one that is stored. -/
def Fresh (w : World) (_ : Desc) (e : Effect) (_ : e.Answer) : Prop :=
  ∀ history ∈ e.carries, history = w.turns

instance (w : World) (d : Desc) (e : Effect) (r : e.Answer) : Decidable (Fresh w d e r) :=
  inferInstanceAs (Decidable (∀ history ∈ e.carries, history = w.turns))

theorem fresh_of_carries {w : World} {d : Desc} {e : Effect} {r : e.Answer} {history : List Json}
    (carries : e.carries = some history) : Fresh w d e r ↔ history = w.turns := by
  simp [Fresh, carries]

theorem fresh_of_none {w : World} {d : Desc} {e : Effect} {r : e.Answer}
    (carries : e.carries = none) : Fresh w d e r := by
  simp [Fresh, carries]

section Steps

variable {w w' : World} {c : Choice} {d : Desc} {e : Effect} {r : e.Answer}

theorem continues_iff (tells : Tells w) (same : w'.rounds = w.rounds) :
    Continues w w' ↔ w'.turns = w.turns := by
  constructor
  · intro continues
    rw [continues.tells.turns, same, ← tells.turns]
  · intro turns
    refine ⟨⟨?_, by rw [same]; exact tells.bound⟩, by rw [turns]⟩
    rw [turns, same, tells.turns]

theorem document_turns (submission : TaskThreads.Submission) (now : String) :
    docTurns (submission.document now) = [] := by
  have encoded (s : TaskState) (none_yet : s.conversationTurns = .obj []) :
      docTurns (JavaTaskState.encode s) = [] := by
    have stored : (JavaTaskState.encode s).lookup "conversation_turns" = some (.obj []) :=
      JavaTaskState.encode_lookup (by simp [JavaTaskState.baseFields, none_yet])
    rw [docTurns, stored]
  cases submission with
  | api taskId question dbId databaseUrl =>
    have absent : (TaskStore.taskCreate taskId question dbId databaseUrl now).lookup
        "conversation_turns" = none := Doc.lookup_update_other _ _ _ (by simp)
    simp only [TaskThreads.Submission.document, docTurns, absent]
  | gateway => exact encoded _ rfl
  | cached => exact encoded _ rfl

theorem saved_turns (now : String) (s : TaskState) (operation : JavaTaskState.Operation) :
    docTurns (JavaTaskState.encode (operation.saved now s)) = turns s := by
  have stored : (JavaTaskState.encode (operation.saved now s)).lookup "conversation_turns" =
      some s.conversationTurns :=
    JavaTaskState.encode_lookup (by cases operation <;>
      simp [JavaTaskState.baseFields, JavaTaskState.Operation.saved, JavaTaskState.feedbackSaved,
        JavaTaskState.staleSaved])
  rw [docTurns, stored, FeedbackRounds.turns]
  split <;> simp_all

theorem merged_turns (now : String) (basis : Doc) {seen : List String} {write : TaskStore.Write}
    (other : replaced (.update seen basis write) = false) :
    docTurns (TaskStore.merged now basis write.fields) = docTurns basis := by
  have absent : "conversation_turns" ∉
      (write.fields ++ [("updated_at", Json.str now)]).map Prod.fst := by
    cases write with
    | feedbackDone => contradiction
    | ended status error => cases error <;> simp [TaskStore.Write.fields]
    | _ => simp [TaskStore.Write.fields]
  rw [docTurns, TaskStore.merged, Doc.lookup_update_other _ _ _ absent, docTurns]

theorem completion_turns (now : String) (basis : Doc) (history : List Json) (round : Round)
    (tokenUsage nodeTimings : List (String × Json)) :
    docTurns (TaskStore.merged now basis (completion history round tokenUsage nodeTimings).fields) =
      history ++ [round.turn (history.length + 1)] := by
  have stored : (TaskStore.merged now basis
      (completion history round tokenUsage nodeTimings).fields).lookup "conversation_turns" =
        some (.arr (history ++ [round.turn (history.length + 1)])) :=
    Doc.lookup_update_mem _ _ _ _ (by simp [completion, TaskStore.Write.fields])
      (by simp [completion, TaskStore.Write.fields])
  rw [docTurns, stored]

/-- The update that completes a round carries the history on exactly if its own is the
stored one. -/
theorem complete_continues {basis : Doc} {history : List Json} {round : Round}
    {tokenUsage nodeTimings : List (String × Json)} (tells : Tells w)
    (sound : (Effect.complete basis history round tokenUsage nodeTimings).Sound) :
    Continues w (w.after c (.complete basis history round tokenUsage nodeTimings)) ↔
      history = w.turns := by
  have turns : (w.after c (.complete basis history round tokenUsage nodeTimings)).turns =
      history ++ [round.turn (history.length + 1)] :=
    completion_turns c.now basis history round tokenUsage nodeTimings
  have rounds : (w.after c (.complete basis history round tokenUsage nodeTimings)).rounds =
      w.rounds ++ [round] := rfl
  constructor
  · intro continues
    have whole := continues.tells.turns
    rw [turns, rounds, numbered_concat] at whole
    rw [List.append_inj_left' whole rfl, tells.turns]
  · intro current
    obtain ⟨-, earlier, same, room⟩ := sound
    have length : earlier.length = w.rounds.length := by
      rw [← numbered_length earlier, ← same, current, tells.turns, numbered_length]
    refine ⟨⟨?_, ?_⟩, ?_⟩
    · rw [turns, rounds, numbered_concat, current, tells.turns, numbered_length]
    · rw [rounds, List.length_append, List.length_singleton]
      omega
    · rw [turns, current]
      exact List.prefix_append _ _

theorem after_continues (tells : Tells w) (sound : e.Sound) (replied : reply w c e = some r) :
    Continues w (w.after c e) ↔ Fresh w d e r := by
  cases e with
  | publish payload =>
    exact iff_of_true ((continues_iff tells (by rfl)).mpr (by rfl)) (fresh_of_none rfl)
  | startRound payload =>
    exact iff_of_true ((continues_iff tells (by rfl)).mpr (by rfl)) (fresh_of_none rfl)
  | complete basis history round tokenUsage nodeTimings =>
    rw [fresh_of_carries rfl]
    exact complete_continues tells sound
  | task e =>
    obtain ⟨own, answered⟩ := Option.ite_none_left_eq_some.mp replied
    have unchanged : (w.after c (.task e)).rounds = w.rounds := rfl
    rw [continues_iff tells unchanged]
    cases e with
    | create submission =>
      refine iff_of_true ?_ (fresh_of_none rfl)
      obtain ⟨answer, taken, -⟩ := Option.map_eq_some_iff.mp answered
      obtain ⟨fresh, -⟩ := Option.ite_none_right_eq_some.mp taken
      have before : w.turns = [] := by simp [World.turns, Option.isNone_iff_eq_none.mp fresh]
      rw [before]
      exact document_turns submission c.now
    | update seen basis write =>
      have kept := merged_turns c.now basis (Bool.eq_false_iff.mpr own)
      have written : (w.after c (.task (.update seen basis write))).turns =
          docTurns (TaskStore.merged c.now basis write.fields) := rfl
      rw [fresh_of_carries rfl, written, kept]
    | save s operation =>
      have kept := saved_turns c.now s operation
      have written : (w.after c (.task (.save s operation))).turns =
          docTurns (JavaTaskState.encode (operation.saved c.now s)) := rfl
      rw [fresh_of_carries rfl, written, kept]
    | _ => exact iff_of_true rfl (fresh_of_none rfl)

theorem arrive_same (arrived : arrive w d = some w') : w' = w := by
  cases d with
  | feedback endpoint text =>
    obtain ⟨-, same⟩ := Option.ite_none_right_eq_some.mp arrived
    exact (Option.some.inj same).symm
  | handleTask retryCount =>
    obtain ⟨-, same⟩ := Option.ite_none_right_eq_some.mp arrived
    exact (Option.some.inj same).symm
  | handleFeedback payload =>
    obtain ⟨-, same⟩ := Option.ite_none_right_eq_some.mp arrived
    exact (Option.some.inj same).symm
  | runGraph run graph => contradiction
  | runFeedbackGraph run payload graph => contradiction
  | _ => exact (Option.some.inj arrived).symm

end Steps

/-- One step of a run: it carries the history on exactly if what it writes is current. -/
theorem step_continues {s t : Config Effect Effect.Answer World Desc}
    {event : Event Desc Choice Empty} (holds : storing.Holds s) (tells : Tells s.world)
    (stepped : system.machine.step s event = some t) :
    system.Meets Fresh s event t ↔ Continues s.world t.world := by
  rcases Threads.step_cases stepped with
    ⟨pid, choice, d, e, k, w, r, forks, rfl, fetched, performed, rfl⟩ |
    ⟨d, w, rfl, arrived, rfl⟩ | ⟨x, w, rfl, moved, rfl⟩
  · have follows := holds.threads _ (List.mem_of_getElem? fetched)
    obtain ⟨rfl, replied, -⟩ := perform_after performed
    rw [after_continues (d := d) tells follows.1 replied]
    exact Threads.meets_run_iff fetched performed
  · obtain rfl := arrive_same arrived
    exact iff_of_true trivial ((continues_iff tells rfl).mpr rfl)
  · exact nomatch x

/-- In every run, the stored history is that of the completed rounds in every state reached,
and goes on from state to state, exactly if every write of it is made while it is current. -/
theorem history_continues_iff (events : List (Event Desc Choice Empty)) :
    system.machine.Along (fun s _ t => Continues s.world t.world) start events ↔
      system.machine.Along (system.Meets Fresh) start events := by
  refine (Machine.along_iff_of_invariant (fun s => storing.Holds s ∧ Tells s.world) ?_ ?_ ?_).symm
  · rintro s event t ⟨holds, tells⟩ stepped meets
    have continues := (step_continues holds tells stepped).mp meets
    exact ⟨storing.step holds stepped (Threads.meets_true system s t event), continues.tells⟩
  · rintro s event t ⟨holds, tells⟩ stepped
    exact step_continues holds tells stepped
  · exact ⟨start_kept, ⟨rfl, Nat.zero_le _⟩⟩

/-- The `n`th of the last messages that a run has published. -/
def sent (events : List (Event Desc Choice Empty)) (n : Nat) : Doc :=
  ((system.machine.exec start events).bind fun c => c.world.payloads[n]?).getD ∅

/-- A message is handled, by a graph that is done at once. -/
def corrects (pid : Nat) (payload : Doc) (sql timestamp : String) :
    List (Event Desc Choice Empty) :=
  [.arrive (.handleFeedback payload)] ++ List.replicate 4 (.run pid {}) ++
  [.run pid { correction := ⟨[], .ok (⟨sql, .nothing, [], []⟩, timestamp)⟩ }] ++
  List.replicate 4 (.run (pid + 1) {}) ++ List.replicate 4 (.run pid {})

/-- One round after the other carries the history on. -/
example :
    let one := answered ++ asks 3 "by month"
    let two := one ++ corrects 4 (sent one 0) "SELECT 2" "08:10" ++ asks 6 "only 2024"
    let three := two ++ corrects 7 (sent two 0) "SELECT 3" "08:20"
    (system.machine.exec start three).any (fun c => c.world.turns.length = 2) = true ∧
      system.machine.Along (system.Meets Fresh) start three := by
  decide +kernel

/-- Two requests read the same history before the first round of theirs is done. -/
def overlapping : List (Event Desc Choice Empty) :=
  let asked := answered ++ asks 3 "by month" ++ asks 4 "only 2024"
  asked ++ corrects 5 (sent asked 1) "SELECT 2" "08:10" ++
    corrects 7 (sent asked 0) "SELECT 3" "08:20"

/-- The second round is completed over the first, under the same number. -/
theorem history_overwritten :
    (∃ c, system.machine.exec start overlapping = some c ∧
      c.world.rounds = [⟨some "by month", "SELECT 2", .nothing, "08:10"⟩,
        ⟨some "only 2024", "SELECT 3", .nothing, "08:20"⟩] ∧
      c.world.turns = [Round.turn 1 ⟨some "only 2024", "SELECT 3", .nothing, "08:20"⟩]) ∧
    ¬ system.machine.Along (fun s _ t => Continues s.world t.world) start overlapping := by
  have run : (system.machine.exec start overlapping).any (fun c =>
      c.world.rounds = [⟨some "by month", "SELECT 2", .nothing, "08:10"⟩,
        ⟨some "only 2024", "SELECT 3", .nothing, "08:20"⟩] ∧
      c.world.turns = [Round.turn 1 ⟨some "only 2024", "SELECT 3", .nothing, "08:20"⟩]) = true := by
    decide +kernel
  obtain ⟨c, ran, final⟩ := (Option.any_eq_true _ _).mp run
  obtain ⟨rounds, turns⟩ := of_decide_eq_true final
  refine ⟨⟨c, ran, rounds, turns⟩, fun along => ?_⟩
  have tells : Tells c.world := Machine.invariant_along (fun c => Tells c.world)
    (fun _ _ _ _ _ continues => continues.tells) ⟨rfl, Nat.zero_le _⟩ along ran
  have whole := congrArg List.length tells.turns
  rw [turns, rounds] at whole
  exact absurd whole (by decide)

end FeedbackRounds
end Nl2SqlAgent

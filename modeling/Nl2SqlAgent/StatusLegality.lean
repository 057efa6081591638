import Nl2SqlAgent.JavaWriteBack
import Nl2SqlAgent.TaskEffects

/-! The status stored for a task, over every interleaving of the threads that write it. -/
namespace Nl2SqlAgent

open Lib

namespace TaskThreads

variable {d : Desc} {old : Doc}

/-- The documented steps, but for the one that a feedback makes. -/
inductive Documented : String → String → Prop where
  | started : Documented "PENDING" "RUNNING"
  | withdrawn : Documented "PENDING" "CANCELLED"
  | succeeded : Documented "RUNNING" "SUCCESS"
  | failed : Documented "RUNNING" "FAILED"
  | timedOut : Documented "RUNNING" "TIMEOUT"
  | cancelled : Documented "RUNNING" "CANCELLED"
  | failedRetried : Documented "FAILED" "PENDING"
  | timedOutRetried : Documented "TIMEOUT" "PENDING"

theorem documented_iff {s next : String} : Documented s next ↔ next ∈ TaskStore.allowed s := by
  constructor
  · intro documented
    cases documented <;> decide
  · intro allowed
    unfold TaskStore.allowed at allowed
    split at allowed <;> simp only [List.mem_cons, List.not_mem_nil, or_false] at allowed
    · rcases allowed with rfl | rfl
      · exact .started
      · exact .withdrawn
    · rcases allowed with rfl | rfl | rfl | rfl
      · exact .succeeded
      · exact .failed
      · exact .timedOut
      · exact .cancelled
    · rw [allowed]
      exact .failedRetried
    · rw [allowed]
      exact .timedOutRetried

theorem status_feedbackSaved (now : String) (s : JavaTaskState.TaskState) :
    TaskStore.status (JavaTaskState.encode (JavaTaskState.feedbackSaved now s)) = "RUNNING" := by
  have stored : ("status", Json.str "RUNNING") ∈
      JavaTaskState.baseFields (JavaTaskState.feedbackSaved now s) := by
    simp [JavaTaskState.baseFields, JavaTaskState.feedbackSaved, TaskStore.text]
  simp [TaskStore.status, JavaTaskState.encode_lookup (List.mem_append_left _ stored)]

theorem status_staleSaved (now : String) (s : JavaTaskState.TaskState) :
    TaskStore.status (JavaTaskState.encode (JavaTaskState.staleSaved now s)) = "TIMEOUT" := by
  have stored : ("status", Json.str "TIMEOUT") ∈
      JavaTaskState.baseFields (JavaTaskState.staleSaved now s) := by
    simp [JavaTaskState.baseFields, JavaTaskState.staleSaved, TaskStore.text]
  simp [TaskStore.status, JavaTaskState.encode_lookup (List.mem_append_left _ stored)]

/-- A stored document stays, or is replaced by one with the status that is written. -/
theorem perform_doc {w w' : World} {c : Choice} {e : Effect} {r : e.Answer} {forks : List Desc}
    (performed : perform w c e = some (w', r, forks)) (stored : w.doc = some old) :
    w'.doc = some old ∨
      ∃ new, w'.doc = some new ∧ e.writes = some (TaskStore.status new) := by
  obtain ⟨rfl, replied⟩ := perform_after performed
  cases e with
  | create submission => simp [reply, stored] at replied
  | update seen basis write =>
    have status := TaskStore.status_merged c.now basis write
    exact .inr ⟨_, rfl, congrArg some status.symm⟩
  | save state operation =>
    cases operation with
    | feedback => exact .inr ⟨_, rfl, congrArg some (status_feedbackSaved c.now state).symm⟩
    | scanStale => exact .inr ⟨_, rfl, congrArg some (status_staleSaved c.now state).symm⟩
  | _ => exact .inl stored

/-- A feedback request past its checks, or the handler of a message that one published. -/
def Desc.accepted (w : World) : Desc → Prop
  | .feedback _ _ => True
  | .handleFeedback m _ => m ∈ w.feedbacks
  | _ => False

/-- The thread that takes the step is one of an accepted feedback. -/
def ByFeedback (c : Config Effect Effect.Answer World Desc) (event : Event Desc Choice Empty) : Prop :=
  ∃ pid choice t, event = .run pid choice ∧ c.pool[pid]? = some t ∧ t.desc.accepted c.world

/-- A stored status stays, or takes a step of the state machine. -/
def LegalStep (c : Config Effect Effect.Answer World Desc) (event : Event Desc Choice Empty)
    (c' : Config Effect Effect.Answer World Desc) : Prop :=
  ∀ old, c.world.doc = some old → ∃ new, c'.world.doc = some new ∧
    (TaskStore.status new = TaskStore.status old ∨
      Documented (TaskStore.status old) (TaskStore.status new) ∨
      (acceptsFeedback (TaskStore.status old) = true ∧ TaskStore.status new = "RUNNING" ∧
        ByFeedback c event))

/-- When an operation writes, the stored status is still the one it has read, or already
the one it writes. -/
def Current (w : World) (_ : Desc) (e : Effect) (_ : e.Answer) : Prop :=
  ∀ stored ∈ w.doc, ∀ next ∈ e.writes,
    (∀ s ∈ e.sees, s = TaskStore.status stored) ∨ next = TaskStore.status stored

instance : ∀ w d e r, Decidable (Current w d e r) := fun w _ e _ =>
  inferInstanceAs (Decidable (∀ stored ∈ w.doc, ∀ next ∈ e.writes,
    (∀ s ∈ e.sees, s = TaskStore.status stored) ∨ next = TaskStore.status stored))

def Desc.known (w : World) : Desc → Prop
  | .handleFeedback m _ => m ∈ w.feedbacks
  | _ => True

theorem known_accepted {w : World} (known : d.known w) (ofFeedback : d.ofFeedback) :
    d.accepted w := by
  cases d <;> first | exact known | exact ofFeedback

theorem after_feedbacks (w : World) (c : Choice) (e : Effect) (m : Message)
    (published : m ∈ w.feedbacks) : m ∈ (w.after c e).feedbacks := by
  cases e with
  | publishFeedback other => exact List.mem_cons_of_mem _ published
  | _ => exact published

theorem known_after (w : World) (c : Choice) (e : Effect) (known : d.known w) :
    d.known (w.after c e) := by
  cases d with
  | handleFeedback m delivery => exact after_feedbacks w c e m known
  | _ => trivial

theorem arrive_known {w w' : World} (arrived : arrive w d = some w') :
    w'.doc = w.doc ∧ w'.feedbacks = w.feedbacks ∧ d.known w' := by
  cases d with
  | feedback endpoint request =>
    obtain ⟨-, same⟩ := Option.ite_none_right_eq_some.mp arrived
    obtain rfl := Option.some.inj same
    exact ⟨rfl, rfl, trivial⟩
  | handleTask retryCount =>
    obtain ⟨-, same⟩ := Option.ite_none_right_eq_some.mp arrived
    obtain rfl := Option.some.inj same
    exact ⟨rfl, rfl, trivial⟩
  | handleFeedback m delivery =>
    obtain ⟨⟨published, -⟩, same⟩ := Option.ite_none_right_eq_some.mp arrived
    obtain rfl := Option.some.inj same
    exact ⟨rfl, rfl, published⟩
  | runGraph run graph => contradiction
  | runFeedbackGraph run graph => contradiction
  | _ =>
    obtain rfl := Option.some.inj arrived
    exact ⟨rfl, rfl, trivial⟩

/-- Every thread comes only to what its kind does, and handles only what was published. -/
def legality : Threads.Outline system fun _ _ _ _ => True where
  inv _ := True
  ok w t := t.rest.Emits (Does t.desc) ∧ t.desc.known w
  apart _ _ := True
  own {w choice d e k w' r forks} _ ok _ performed := by
    obtain ⟨rfl, replied⟩ := perform_after performed
    refine ⟨trivial, ⟨ok.1.2 r, known_after w choice e ok.2⟩, ?_⟩
    intro f forked
    refine ⟨body_does f, ?_⟩
    cases f with
    | handleFeedback m delivery => exact absurd forked (reply_forks replied m delivery)
    | _ => trivial
  stable {w choice d e k w' r forks t} _ _ _ performed ok _ := by
    obtain ⟨rfl, -⟩ := perform_after performed
    exact ⟨ok.1, known_after w choice e ok.2⟩
  fork_apart _ _ _ := ⟨fun _ _ _ _ => ⟨trivial, trivial⟩,
    List.pairwise_of_forall fun _ _ => ⟨trivial, trivial⟩⟩
  arrive {w d w'} _ arrived := by
    obtain ⟨-, feedbacks, known⟩ := arrive_known arrived
    refine ⟨trivial, ⟨body_does d, known⟩, fun t ok => ⟨⟨ok.1, ?_⟩, trivial, trivial⟩⟩
    cases kind : t.desc with
    | handleFeedback m delivery =>
      have old := ok.2
      rw [kind] at old
      change m ∈ w'.feedbacks
      rw [feedbacks]
      exact old
    | _ => trivial
  ambient {_ x _} _ _ := nomatch x

theorem legal_step {c c' : Config Effect Effect.Answer World Desc}
    {event : Event Desc Choice Empty} (holds : legality.Holds c)
    (stepped : system.machine.step c event = some c') (current : system.Meets Current c event c') :
    LegalStep c event c' := by
  intro old stored
  rcases Threads.step_cases stepped with
    ⟨pid, choice, d, e, k, w, r, forks, rfl, fetched, performed, rfl⟩ |
    ⟨d, w, rfl, arrived, rfl⟩ | ⟨x, _⟩
  · obtain ⟨emits, known⟩ := holds.threads _ (List.mem_of_getElem? fetched)
    rcases perform_doc performed stored with kept | ⟨new, replaced, written⟩
    · exact ⟨old, kept, .inl rfl⟩
    · refine ⟨new, replaced, ?_⟩
      rcases current d e k w r forks fetched performed old stored _ written with fresh | same
      · rcases emits.1.stored _ written with
          seen | ⟨s, seen, allowed⟩ | ⟨ofFeedback, running, s, seen, accepts⟩
        · exact .inl (fresh _ seen)
        · rw [fresh s seen] at allowed
          exact .inr (.inl (documented_iff.mpr allowed))
        · rw [fresh s seen] at accepts
          have accepted := known_accepted known ofFeedback
          exact .inr (.inr ⟨accepts, running, pid, choice, _, rfl, fetched, accepted⟩)
      · exact .inl same
  · obtain ⟨same, -⟩ := arrive_known arrived
    exact ⟨old, same.trans stored, .inl rfl⟩
  · nomatch x

/-- Along every run in which no write is based on an outdated status, the status takes
only the documented steps. -/
theorem status_legal (events : List (Event Desc Choice Empty))
    (current : system.machine.Along (system.Meets Current) start events) :
    system.machine.Along LegalStep start events :=
  Machine.along_of_invariant legality.Holds
    (fun _ _ _ holds stepped _ => legality.step holds stepped (system.meets_true _ _ _))
    (fun _ _ _ holds stepped meets => legal_step holds stepped meets)
    (legality.holds_empty trivial) current

def oneStep : Choice where
  graph := ⟨[[⟨"router", 5, none, [], []⟩]], .ok (⟨some "SELECT 1", .null, [], []⟩, ⟨"", "", "", []⟩)⟩

/-- A task is submitted and handled, up to the start of its graph thread: thread 0 is the
submit, thread 1 the handler, thread 2 the graph. -/
def handled : List (Event Desc Choice Empty) :=
  [.arrive (.submit (.api "t1" "How many orders?" "shop" "")), .run 0 {}, .run 0 {},
    .arrive (.handleTask 0), .run 1 {}, .run 1 {}, .run 1 {}, .run 1 {}, .run 1 oneStep]

/-- The graph thread ends before the handler's time-out. -/
def inTime : List (Event Desc Choice Empty) :=
  handled ++ [.run 2 {}, .run 2 {}, .run 2 {}, .run 2 {}, .run 2 {}, .run 2 {}, .run 1 {}, .run 1 {},
    .run 1 {}, .run 1 {}]

theorem status_legal_in_time :
    (system.machine.exec start inTime).any
      (fun c => c.world.doc.map TaskStore.status = some "SUCCESS") = true ∧
    system.machine.Along LegalStep start inTime :=
  ⟨by decide, status_legal inTime (by decide)⟩

/-- The graph thread has read the document for its progress update when the handler's
wait ends; it writes after the handler has. -/
def tooLate : List (Event Desc Choice Empty) :=
  handled ++ [.run 2 {}, .run 2 {}, .run 1 { timedOut := true }, .run 1 {}, .run 1 {}, .run 1 {},
    .run 1 {}]

theorem progress_overwrites_timeout :
    ∃ c c', system.machine.exec start tooLate = some c ∧
      system.machine.step c (.run 2 {}) = some c' ∧
      c.world.doc.map TaskStore.status = some "TIMEOUT" ∧
      c'.world.doc.map TaskStore.status = some "RUNNING" ∧ ¬ LegalStep c (.run 2 {}) c' := by
  have ends : (system.machine.exec start tooLate).any (fun c =>
      c.world.doc.map TaskStore.status = some "TIMEOUT" ∧
      (system.machine.step c (.run 2 {})).any fun c' =>
        c'.world.doc.map TaskStore.status = some "RUNNING") = true := by decide
  obtain ⟨c, run, final⟩ := (Option.any_eq_true _ _).mp ends
  obtain ⟨timedOut, again⟩ := of_decide_eq_true final
  obtain ⟨c', stepped, running⟩ := (Option.any_eq_true _ _).mp again
  have running := of_decide_eq_true running
  refine ⟨c, c', run, stepped, timedOut, running, ?_⟩
  intro legal
  obtain ⟨old, stored, status⟩ := Option.map_eq_some_iff.mp timedOut
  obtain ⟨new, replaced, change⟩ := legal old stored
  rw [replaced, Option.map_some, Option.some.injEq] at running
  rw [status, running] at change
  rcases change with same | documented | ⟨accepts, -⟩
  · exact absurd same (by decide)
  · exact absurd (documented_iff.mp documented) (by decide)
  · exact absurd accepts (by decide)

end TaskThreads
end Nl2SqlAgent

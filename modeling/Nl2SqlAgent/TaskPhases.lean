import Nl2SqlAgent.JavaWriteBack
import Nl2SqlAgent.StatusLegality
import Nl2SqlAgent.TaskEvents

/-! How far a task has come when one of its threads gets to a command: whether it is
stored, whether its status is past PENDING, and whether the handler has done its part. -/
namespace Nl2SqlAgent

open Lib

namespace TaskEvents

open TaskThreads (Submission Message NodeDone GraphRun Context)
open JavaTaskState (TaskState)

/-- The statuses after PENDING. -/
def laterStatuses : List String := ["RUNNING","SUCCESS","FAILED","TIMEOUT","CANCELLED"]

def Later (d : Doc) : Prop := TaskStore.status d ∈ laterStatuses

/-- An error is a text, where there is one. -/
def Textual (value : Json) : Prop := ∃ t, value = TaskStore.text t

/-- The fields are of the kinds that the writers know. -/
structure Formed (d : Doc) : Prop where
  shaped : JavaTaskState.Shaped d
  error : ∀ value, d.lookup "error" = some value → Textual value

/-- The status is one of the six. -/
structure Known (d : Doc) : Prop where
  status : TaskStore.status d = "PENDING" ∨ Later d
  formed : Formed d

def Stored (w : World) : Prop := w.task.doc.isSome = true

def Left (w : World) : Prop := ∃ d, w.task.doc = some d ∧ Later d

/-- What a thread is to its task, with the number of the handler it is or works for. -/
inductive Role where
  | submit
  | outside
  | handler (n : Nat)
  | graph (n run : Nat)
  deriving DecidableEq, Repr

def Role.number : Role → Option Nat
  | .handler n => some n
  | .graph n _ => some n
  | _ => none

def Desc.role (d : Desc) : Role :=
  match d.task with
  | .submit _ => .submit
  | .handleTask _ => .handler d.handler
  | .handleFeedback _ _ => .handler d.handler
  | .runGraph run _ => .graph d.handler run
  | .runFeedbackGraph run _ => .graph d.handler run
  | _ => .outside

/-- What a thread knows of its task. -/
inductive Point where
  | missing
  | accepting
  | stored
  | left
  | running (run : Nat)
  | done
  deriving DecidableEq, Repr

def At (w : World) (role : Role) : Point → Prop
  | .missing => True
  | .accepting => Stored w ∧ role = .submit
  | .stored => Stored w ∧ (role = .submit → w.submitting = false)
  | .left => Left w ∧ (role = .submit → w.submitting = false)
  | .running run => Left w ∧ ∀ n ∈ role.number, w.graphs[run]? = some n
  | .done => Left w ∧ ∀ n ∈ role.number, n ∉ w.inCharge

/-- Once the status is past PENDING it stays so. -/
def Point.later : Point → Point
  | .done => .done
  | _ => .left

/-- After a wait: the graph has ended the handler's part where it was cancelled. -/
def Point.awaited : TaskThreads.Waited → Point
  | .done (.returned true) => .done
  | _ => .left

/-- A read's answer, and where it leads; `ends` are the documents that end the handler's
part. -/
def Reads (ends : Doc → Bool) (p : Point) : Option Doc → Point → Prop
  | none, p' => p = .missing ∧ p' = .missing
  | some d, p' => Known d ∧
      (TaskStore.status d = "PENDING" → (p = .missing ∨ p = .stored) ∧ p' = .stored) ∧
      (Later d → p' = if ends d then .done else p.later)

/-- The status that an update writes. -/
def written (basis : Doc) (write : TaskStore.Write) : String :=
  write.status.getD (TaskStore.status basis)

/-- An update writes a status after PENDING, and one that is to end a handler's part a
final one. -/
structure Updates (note : Note) (basis : Doc) (write : TaskStore.Write) : Prop where
  formed : Formed basis
  later : written basis write ∈ laterStatuses
  final : note.decides = true → TaskThreads.isOver (written basis write) = true

structure Readable (s : TaskState) : Prop where
  progress : JavaTaskState.isInt s.progress = true
  retries : JavaTaskState.isInt s.retryCount = true
  error : Textual s.error

/-- What the threads but the submit do to the task. -/
def allowsTask (role : Role) (p : Point) (note : Note) : TaskThreads.Effect → Prop
  | .update _ basis write => (p = .left ∨ p = .done ∨ p = .stored) ∧ Updates note basis write
  | .save s _ => p = .left ∧ Readable s
  | .startGraph => ∃ n, role = .handler n ∧ p = .left
  | .startFeedbackGraph _ => ∃ n, role = .handler n ∧ p = .left
  | .await run => p = .running run
  | .settle run result => ∃ n, role = .graph n run ∧ (result = .returned true → p = .done)
  | .create _ => False
  | .publishRequest _ => False
  | .publishFeedback _ => False
  | _ => True

def allows (role : Role) (p : Point) : Effect → Prop
  | .task note (.create _) => role = .submit ∧ p = .missing ∧ note.handler = none
  | .task note e => role ≠ .submit ∧ note.handler = role.number ∧ allowsTask role p note e
  | .send note (.request _) => note.handler = role.number ∧
      ((role = .submit ∧ p = .accepting) ∨ ∃ n, role = .handler n ∧ p = .left)
  | .send note (.feedback _) => role ≠ .submit ∧ note.handler = role.number ∧ p = .left
  | .publish _ => p ≠ .missing
  | .deadLetter => True
  | .markDirty => True

def next (role : Role) (p : Point) : (e : Effect) → e.Answer → Point → Prop
  | .task _ (.create (.cached ..)), _, p' => p' = .left
  | .task _ (.create _), _, p' => p' = .accepting
  | .task note .read, answer, p' =>
      Reads (fun d => note.decides && isOver (some d)) p answer p'
  | .task _ (.inspect _), answer, p' => Reads (fun d => TaskThreads.isRunning (some d)) p answer p'
  | .task note (.update ..), _, p' => p' = if note.decides then .done else p.later
  | .task _ .startGraph, run, p' => p' = .running run
  | .task _ (.startFeedbackGraph _), run, p' => p' = .running run
  | .task _ (.await _), waited, p' => p' = Point.awaited waited
  | .send _ (.request _), _, p' => p' = if role = .submit then .stored else .done
  | _, _, p' => p' = p

/-- A submit ends with its task stored and its request published, a handler when its part
is done. -/
def final (p : Point) : Role → Prop
  | .submit => p = .stored ∨ p = .left
  | .handler _ => p = .done
  | _ => True

def protocol (role : Role) : Prog.Protocol Effect Effect.Answer Point where
  allows := allows role
  next := next role
  final p := final p role

/-- The protocol, for a part of the code as `TaskThreads` has it. -/
abbrev within (role : Role) (note : Note) :
    Prog.Protocol TaskThreads.Effect TaskThreads.Effect.Answer Point :=
  (protocol role).comap (place note) (placed note)

section Keeps

variable {role : Role} {note : Note} {p : Point} {write : TaskStore.Write} {α : Type}
  {post : α → Point → Prop}

theorem taskGet_keeps (apart : role ≠ .submit) (mine : note.handler = role.number) :
    TaskThreads.taskGet.Keeps (within role note)
      (Reads (fun d => note.decides && isOver (some d)) p) p := by
  refine ⟨⟨apart, mine, trivial⟩, fun r p' next => ?_⟩
  obtain ⟨answer, rfl, reads⟩ := next
  exact reads

theorem get_keeps {f : Option Doc → TaskThreads.Task α} (apart : role ≠ .submit)
    (mine : note.handler = role.number)
    (rest : ∀ answer p', Reads (fun d => note.decides && isOver (some d)) p answer p' →
      (f answer).Keeps (within role note) post p') :
    (TaskThreads.taskGet >>= f).Keeps (within role note) post p :=
  Prog.keeps_bind (taskGet_keeps apart mine) rest

/-- An update leads past PENDING, and one that is to end a handler's part ends it. -/
theorem taskUpdate_keeps (write : TaskStore.Write) (seen : List String) (apart : role ≠ .submit)
    (mine : note.handler = role.number) (known : p = .left ∨ p = .done ∨ p = .stored)
    (writes : ∀ d, Known d → (TaskStore.status d = "PENDING" → p = .stored) →
      written d write ∈ laterStatuses ∧
        (note.decides = true → TaskThreads.isOver (written d write) = true)) :
    (TaskThreads.taskUpdate seen write).Keeps (within role note)
      (fun _ p' => p' = if note.decides then .done else p.later) p := by
  apply get_keeps apart mine
  intro answer p' reads
  cases answer with
  | none =>
    obtain ⟨rfl, -⟩ := reads
    simp at known
  | some d =>
    obtain ⟨legible, pending, later⟩ := reads
    have storedOnly (status : TaskStore.status d = "PENDING") : p = .stored := by
      rcases (pending status).1 with rfl | same
      · simp at known
      · exact same
    obtain ⟨written, final⟩ := writes d legible storedOnly
    have place : (p' = .left ∨ p' = .done ∨ p' = .stored) ∧
        (note.decides = false → p'.later = p.later) := by
      rcases legible.status with status | past
      · obtain rfl := (pending status).2
        rw [storedOnly status]
        exact ⟨.inr (.inr rfl), fun _ => rfl⟩
      · rw [later past]
        refine ⟨?_, fun quiet => ?_⟩
        · split
          · exact .inr (.inl rfl)
          · cases p <;> simp [Point.later]
        · simp only [quiet, Bool.false_and, Bool.false_eq_true, if_false]
          cases p <;> rfl
    refine ⟨⟨apart, mine, place.1, legible.formed, written, final⟩, fun r p'' next => ?_⟩
    obtain ⟨-, -, rfl⟩ := next
    change (if note.decides then Point.done else p'.later) = if note.decides then .done else p.later
    cases decides : note.decides with
    | true => rfl
    | false => exact place.2 decides

theorem read_known {ends : Doc → Bool} {p' : Point} {d : Doc} (reads : Reads ends .left (some d) p') :
    Known d ∧ Later d ∧ p' = if ends d then .done else .left := by
  obtain ⟨legible, pending, later⟩ := reads
  have past : Later d := by
    rcases legible.status with status | past
    · have impossible := (pending status).1
      simp at impossible
    · exact past
  exact ⟨legible, past, later past⟩

/-- A transition that is not to end a handler's part. -/
theorem taskTransition_keeps {next : String} (apart : role ≠ .submit)
    (mine : note.handler = role.number) (quiet : note.decides = false)
    (status : write.status = some next) (listed : next ∈ laterStatuses)
    (known : p = .left ∨ (p = .stored ∧ next ∈ TaskStore.allowed "PENDING")) :
    (TaskThreads.taskTransition write).Keeps (within role note) (fun _ p' => p' = .left) p := by
  have update (seen : List String) (p' : Point) (place : p' = .left ∨ p' = .stored) :
      (TaskThreads.taskUpdate seen write).Keeps (within role note) (fun _ p'' => p'' = .left) p' := by
    have keeps := taskUpdate_keeps write seen apart mine (by tauto)
      (fun d _ _ => ⟨by simp [written, status, listed], by simp [quiet]⟩)
    have left : (if note.decides then Point.done else p'.later) = .left := by
      rw [quiet]
      rcases place with rfl | rfl <;> rfl
    rw [left] at keeps
    exact keeps
  apply get_keeps apart mine
  intro answer p' reads
  rw [status]
  cases answer with
  | none =>
    obtain ⟨rfl, -⟩ := reads
    simp at known
  | some d =>
    obtain ⟨legible, pending, later⟩ := reads
    rcases legible.status with pended | past
    · obtain ⟨place, rfl⟩ := pending pended
      have valid : TaskStore.validTransition (some d) next = true := by
        rcases known with rfl | ⟨-, allowed⟩
        · simp at place
        · simpa [TaskStore.validTransition, pended] using allowed
      simp only [Option.getD_some, valid, if_true]
      exact update _ _ (.inr rfl)
    · have same : p' = .left := by
        rw [later past]
        simp only [quiet, Bool.false_and, Bool.false_eq_true, if_false]
        rcases known with rfl | ⟨rfl, -⟩ <;> rfl
      rw [same]
      by_cases valid : TaskStore.validTransition (some d) next = true
      · simp only [Option.getD_some, valid, if_true]
        exact update _ _ (.inl rfl)
      · simp only [Option.getD_some, valid]
        exact rfl

theorem later_cases {d : Doc} (later : Later d) :
    TaskStore.status d = "RUNNING" ∨ isOver (some d) = true := by
  simp only [Later, laterStatuses, List.mem_cons, List.not_mem_nil, or_false] at later
  rcases later with status | status | status | status | status
  · exact .inl status
  all_goals exact .inr (by simp [isOver, TaskThreads.isOver, status])

/-- A transition to a final status that is to end a handler's part ends it. -/
theorem ended_keeps {status : String} {error : Option String} (apart : role ≠ .submit)
    (mine : note.handler = role.number) (decides : note.decides = true)
    (final : status ∈ TaskStore.allowed "RUNNING")
    (known : p = .left ∨ (p = .stored ∧ status ∈ TaskStore.allowed "PENDING")) :
    (TaskThreads.taskTransition (.ended status error)).Keeps (within role note)
      (fun _ p' => p' = .done) p := by
  have isFinal : status ∈ laterStatuses ∧ TaskThreads.isOver status = true := by
    simp only [TaskStore.allowed, List.mem_cons, List.not_mem_nil, or_false] at final
    rcases final with rfl | rfl | rfl | rfl <;> decide
  have update (seen : List String) (p' : Point) (place : p' = .left ∨ p' = .done ∨ p' = .stored) :
      (TaskThreads.taskUpdate seen (.ended status error)).Keeps (within role note)
        (fun _ p'' => p'' = .done) p' := by
    have keeps := taskUpdate_keeps (.ended status error) seen apart mine place
      (fun d _ _ => ⟨isFinal.1, fun _ => isFinal.2⟩)
    rw [decides] at keeps
    exact keeps
  apply get_keeps apart mine
  intro answer p' reads
  change Prog.Keeps _ _ _ (if TaskStore.validTransition answer status then _ else _)
  cases answer with
  | none =>
    obtain ⟨rfl, -⟩ := reads
    simp at known
  | some d =>
    obtain ⟨legible, pending, later⟩ := reads
    rcases legible.status with pended | past
    · obtain ⟨place, rfl⟩ := pending pended
      have valid : TaskStore.validTransition (some d) status = true := by
        rcases known with rfl | ⟨-, allowed⟩
        · simp at place
        · simpa [TaskStore.validTransition, pended] using allowed
      rw [if_pos valid]
      exact update _ _ (.inr (.inr rfl))
    · have place := later past
      simp only [decides, Bool.true_and] at place
      rcases later_cases past with running | ended
      · have valid : TaskStore.validTransition (some d) status = true := by
          simpa [TaskStore.validTransition, running] using final
        rw [if_pos valid]
        apply update _ _
        rw [place]
        rcases known with rfl | ⟨rfl, -⟩ <;> split <;> simp [Point.later]
      · rw [if_pos ended] at place
        rw [place]
        by_cases valid : TaskStore.validTransition (some d) status = true
        · rw [if_pos valid]
          exact update _ _ (.inr (.inl rfl))
        · rw [if_neg valid]
          exact rfl

theorem feedbackTransition_keeps (apart : role ≠ .submit) (mine : note.handler = role.number)
    (quiet : note.decides = false) :
    TaskThreads.feedbackTransition.Keeps (within role note) (fun _ p' => p' = .left) .left := by
  apply get_keeps apart mine
  intro answer p' reads
  cases answer with
  | none => simp [Reads] at reads
  | some d =>
    obtain ⟨-, -, place⟩ := read_known reads
    simp only [quiet, Bool.false_and, Bool.false_eq_true, if_false] at place
    subst place
    by_cases accepts : TaskThreads.acceptsFeedback (TaskStore.status d) = true
    · simp only [accepts, if_true]
      have running (basis : Doc) : written basis .feedbackStarted ∈ laterStatuses := List.mem_cons_self
      have keeps := taskUpdate_keeps .feedbackStarted [TaskStore.status d] apart mine (.inl rfl)
        (fun basis _ _ => ⟨running basis, by simp [quiet]⟩)
      rw [quiet] at keeps
      exact keeps
    · simp only [accepts]
      exact rfl

end Keeps

section Worker

variable {role : Role} {n : Nat} {p : Point}

theorem ne_submit (mine : role.number = some n) : role ≠ .submit := by
  rintro rfl
  contradiction

theorem publish_keeps {event : EventName} (known : p ≠ .missing) :
    (publish event).Keeps (protocol role) (fun _ p' => p' = p) p :=
  ⟨known, fun _ _ same => same⟩

theorem isCancelled_keeps (mine : role.number = some n) :
    (isCancelled n).Keeps (protocol role) (fun _ p' => p' = p) p :=
  ⟨⟨ne_submit mine, mine.symm, trivial⟩, fun _ _ same => same⟩

theorem clearCancel_keeps (mine : role.number = some n) :
    (clearCancel n).Keeps (protocol role) (fun _ p' => p' = p) p :=
  ⟨⟨ne_submit mine, mine.symm, trivial⟩, fun _ _ same => same⟩

theorem conclude_keeps {announced : Bool} {status : String} {error : Option String}
    (mine : role.number = some n) (final : status ∈ TaskStore.allowed "RUNNING")
    (known : p = .left ∨ (p = .stored ∧ status ∈ TaskStore.allowed "PENDING")) :
    (conclude n announced status error).Keeps (protocol role) (fun _ p' => p' = .done) p :=
  Prog.keeps_embed _ _ (ended_keeps (ne_submit mine) mine.symm rfl final known)

/-- A progress update keeps the status. -/
theorem progress_keeps {announced : Bool} {write : TaskStore.Write} (mine : role.number = some n)
    (keeps : write.status = none) (known : p = .left ∨ p = .done) :
    (calls { handler := some n, announced } (TaskThreads.taskUpdate [] write)).Keeps (protocol role)
      (fun _ p' => p' = p) p := by
  have later : p.later = p := by rcases known with rfl | rfl <;> rfl
  have writes (d : Doc) (legible : Known d) (pending : TaskStore.status d = "PENDING" → p = .stored) :
      written d write ∈ laterStatuses := by
    simp only [written, keeps, Option.getD_none]
    rcases legible.status with status | past
    · rcases known with rfl | rfl <;> simpa using pending status
    · exact past
  have place : p = .left ∨ p = .done ∨ p = .stored := by tauto
  have updates : (TaskThreads.taskUpdate [] write).Keeps (within role { handler := some n, announced })
      (fun _ p' => p' = p.later) p :=
    taskUpdate_keeps write [] (ne_submit mine) mine.symm place
      fun d legible pending => ⟨writes d legible pending, nofun⟩
  rw [later] at updates
  exact Prog.keeps_embed _ _ updates

theorem settle_follows {run : Nat} {result : TaskThreads.Result}
    (ended : result = .returned true → p = .done) :
    (settle n run result).Follows (protocol (.graph n run)) p :=
  ⟨⟨nofun, rfl, n, rfl, ended⟩, fun _ _ _ => trivial⟩

theorem stepDone_keeps (more : Bool) (nodes : List NodeDone) (mine : role.number = some n) :
    (stepDone n more nodes).Keeps (protocol role) (fun _ p' => p' = .left) .left := by
  induction nodes with
  | nil => rfl
  | cons node rest ih =>
    refine Prog.keeps_bind (publish_keeps nofun) ?_
    rintro _ _ rfl
    apply Prog.keeps_bind (progress_keeps mine rfl (.inl rfl))
    rintro _ _ rfl
    exact ih

theorem graphLoop_follows (run : Nat) (ending : Except String TaskStore.Write)
    (keeps : ∀ done, ending = .ok done → done.status = none) (steps : List (List NodeDone)) :
    (graphLoop n run ending steps).Follows (protocol (.graph n run)) .left := by
  induction steps with
  | nil =>
    cases ending with
    | error error => exact settle_follows nofun
    | ok done =>
      apply Prog.follows_bind (progress_keeps rfl (keeps done rfl) (.inl rfl))
      rintro _ _ rfl
      refine Prog.follows_bind (publish_keeps nofun) ?_
      rintro _ _ rfl
      exact settle_follows nofun
  | cons step rest ih =>
    apply Prog.follows_bind (isCancelled_keeps rfl)
    rintro cancelled _ rfl
    cases cancelled with
    | true =>
      apply Prog.follows_bind (conclude_keeps rfl (by decide) (.inl rfl))
      rintro _ _ rfl
      refine Prog.follows_bind (publish_keeps nofun) ?_
      rintro _ _ rfl
      apply Prog.follows_bind (clearCancel_keeps rfl)
      rintro _ _ rfl
      exact settle_follows fun _ => rfl
    | false =>
      apply Prog.follows_bind (stepDone_keeps _ step rfl)
      rintro _ _ rfl
      exact ih

theorem runGraph_follows (run : Nat) (graph : GraphRun Context) :
    (runGraph n run graph).Follows (protocol (.graph n run)) .left := by
  apply graphLoop_follows
  intro done ok
  cases ends : graph.ending with
  | error error => simp [ends, Except.map] at ok
  | ok final =>
    simp only [ends, Except.map, Except.ok.injEq] at ok
    rw [← ok]
    rfl

theorem runFeedbackGraph_follows (run : Nat) (graph : GraphRun (List Json)) :
    (runFeedbackGraph n run graph).Follows (protocol (.graph n run)) .left := by
  have reading : TaskThreads.taskGet.Keeps (within (.graph n run) { handler := some n })
      (Reads (fun _ => false) .left) .left := taskGet_keeps nofun rfl
  apply Prog.follows_bind (Prog.keeps_embed _ _ reading)
  intro answer p' reads
  cases answer with
  | none => simp [Reads] at reads
  | some d =>
    obtain ⟨-, -, place⟩ := read_known reads
    subst place
    apply graphLoop_follows
    intro done ok
    cases ends : graph.ending with
    | error error => simp [ends, Except.map] at ok
    | ok final =>
      simp only [ends, Except.map, Except.ok.injEq] at ok
      rw [← ok]
      rfl

theorem awaited_left {waited : TaskThreads.Waited} (other : waited ≠ .done (.returned true)) :
    Point.awaited waited = .left := by
  match waited, other with
  | .timedOut, _ => rfl
  | .done (.raised _), _ => rfl
  | .done (.returned false), _ => rfl

/-- A handler waits for the graph that it has started. -/
theorem await_follows {run : Nat} {rest : TaskThreads.Waited → Task Unit}
    (cancelled : (rest (.done (.returned true))).Follows (protocol (.handler n)) .done)
    (others : ∀ waited, waited ≠ .done (.returned true) →
      (rest waited).Follows (protocol (.handler n)) .left) :
    (await n run >>= rest).Follows (protocol (.handler n)) (.running run) := by
  refine ⟨⟨nofun, rfl, rfl⟩, fun waited p' reached => ?_⟩
  obtain rfl : p' = Point.awaited waited := reached
  by_cases same : waited = TaskThreads.Waited.done (.returned true)
  · subst same
    exact cancelled
  · rw [awaited_left same]
    exact others waited same

/-- After the flag was found set. -/
theorem cancelled_follows {error : String} :
    (conclude n false "CANCELLED" (some error) >>= fun _ => clearCancel n).Follows
      (protocol (.handler n)) .left := by
  apply Prog.follows_bind (conclude_keeps rfl (by decide) (.inl rfl))
  rintro _ _ rfl
  exact (clearCancel_keeps rfl).follows fun _ _ same => same

theorem concluded_follows {status : String} {error : Option String} {event : EventName}
    (final : status ∈ TaskStore.allowed "RUNNING") :
    (conclude n true status error >>= fun _ => publish event).Follows (protocol (.handler n)) .left := by
  apply Prog.follows_bind (conclude_keeps rfl final (.inl rfl))
  rintro _ _ rfl
  exact Prog.Keeps.follows (publish_keeps nofun) fun _ _ same => same

theorem retry_keeps (retryCount : Fin 4) :
    (calls { handler := some n } (TaskThreads.ask (.publishRequest retryCount))).Keeps
      (protocol (.handler n)) (fun _ p' => p' = .done) .left :=
  ⟨⟨rfl, .inr ⟨n, rfl, rfl⟩⟩, fun _ _ same => same⟩

theorem taskWaited_follows (retryCount : Fin 4) (waited : TaskThreads.Waited)
    (other : waited ≠ .done (.returned true)) :
    (taskWaited n retryCount waited).Follows (protocol (.handler n)) .left := by
  match waited, other with
  | .done (.returned false), _ =>
    exact (conclude_keeps rfl (by decide) (.inl rfl)).follows fun _ _ same => same
  | .timedOut, _ =>
    apply Prog.follows_bind (isCancelled_keeps rfl)
    rintro cancelled _ rfl
    cases cancelled with
    | true => exact cancelled_follows
    | false => exact concluded_follows (by decide)
  | .done (.raised error), _ =>
    apply Prog.follows_bind (isCancelled_keeps rfl)
    rintro cancelled _ rfl
    cases cancelled with
    | true => exact cancelled_follows
    | false =>
      by_cases again : retryCount < 3
      · simp only [again, if_true]
        apply Prog.follows_bind (retry_keeps _)
        rintro _ _ rfl
        apply Prog.follows_bind (progress_keeps rfl rfl (.inr rfl))
        rintro _ _ rfl
        exact Prog.Keeps.follows (publish_keeps nofun) fun _ _ same => same
      · simp only [again, if_false]
        apply Prog.follows_bind (conclude_keeps rfl (by decide) (.inl rfl))
        rintro _ _ rfl
        refine Prog.follows_bind (publish_keeps nofun) ?_
        rintro _ _ rfl
        exact ⟨trivial, fun _ _ same => same⟩

theorem handleTask_follows (retryCount : Fin 4) :
    (handleTask n retryCount).Follows (protocol (.handler n)) .stored := by
  apply Prog.follows_bind (isCancelled_keeps rfl)
  rintro cancelled _ rfl
  cases cancelled with
  | true =>
    exact (conclude_keeps rfl (by decide) (.inr ⟨rfl, by decide⟩)).follows fun _ _ same => same
  | false =>
    have transition : (TaskThreads.taskTransition (.running retryCount)).Keeps
        (within (.handler n) { handler := some n, announced := true }) (fun _ p' => p' = .left) .stored :=
      taskTransition_keeps nofun rfl rfl rfl List.mem_cons_self (.inr ⟨rfl, List.mem_cons_self⟩)
    apply Prog.follows_bind (Prog.keeps_embed _ _ transition)
    rintro _ _ rfl
    refine Prog.follows_bind (publish_keeps nofun) ?_
    rintro _ _ rfl
    refine ⟨⟨nofun, rfl, n, rfl, rfl⟩, fun run p' reached => ?_⟩
    obtain rfl : p' = .running run := reached
    exact await_follows rfl (taskWaited_follows retryCount)

theorem feedbackWaited_follows (m : Message) (waited : TaskThreads.Waited)
    (other : waited ≠ .done (.returned true)) :
    (feedbackWaited n m waited).Follows (protocol (.handler n)) .left := by
  match waited, other with
  | .done (.returned false), _ =>
    exact (conclude_keeps rfl (by decide) (.inl rfl)).follows fun _ _ same => same
  | .timedOut, _ => exact concluded_follows (by decide)
  | .done (.raised error), _ => exact concluded_follows (by decide)

theorem inspect_keeps (delivery : Nat) (mine : role.number = some n) :
    (calls { handler := some n } (TaskThreads.ask (.inspect delivery))).Keeps (protocol role)
      (Reads (fun d => TaskThreads.isRunning (some d)) p) p :=
  ⟨⟨ne_submit mine, mine.symm, trivial⟩, fun _ _ reads => reads⟩

theorem handleFeedback_follows (m : Message) (delivery : Nat) :
    (handleFeedback n m delivery).Follows (protocol (.handler n)) .left := by
  apply Prog.follows_bind (inspect_keeps delivery rfl)
  intro existing p' reads
  cases existing with
  | none => simp [Reads] at reads
  | some d =>
    obtain ⟨-, -, place⟩ := read_known reads
    by_cases running : TaskThreads.isRunning (some d) = true
    · rw [if_pos running] at place ⊢
      exact place
    · rw [if_neg running] at place ⊢
      subst place
      have transition : TaskThreads.feedbackTransition.Keeps
          (within (.handler n) { handler := some n, announced := true }) (fun _ p' => p' = .left) .left :=
        feedbackTransition_keeps nofun rfl rfl
      apply Prog.follows_bind (Prog.keeps_embed _ _ transition)
      rintro _ _ rfl
      refine Prog.follows_bind (publish_keeps nofun) ?_
      rintro _ _ rfl
      refine ⟨⟨nofun, rfl, n, rfl, rfl⟩, fun run p' reached => ?_⟩
      obtain rfl : p' = .running run := reached
      exact await_follows rfl (feedbackWaited_follows m)

end Worker

section Endpoints

open TaskThreads (Endpoint)

variable {p : Point}

/-- A part of the code that is none of a handler's. -/
abbrev outside : Prog.Protocol TaskThreads.Effect TaskThreads.Effect.Answer Point :=
  within .outside {}

theorem outside_ne : Role.outside ≠ .submit := nofun

theorem decoded_status {d : Doc} {s : TaskState} {status : String}
    (decoded : JavaTaskState.decode d = some s) (same : s.status = some status) :
    TaskStore.status d = status := by
  have reading := (JavaTaskState.decode_decoded decoded).status
  rw [same] at reading
  cases reading with
  | missing _ none => contradiction
  | present value found accepted =>
    obtain rfl := JavaTaskState.readText_inverse accepted
    simp [TaskStore.status, found, TaskStore.text]

theorem decoded_readable {d : Doc} {s : TaskState} (formed : Formed d)
    (decoded : JavaTaskState.decode d = some s) : Readable s where
  progress := JavaTaskState.read_isInt (JavaTaskState.decode_decoded decoded).progress
  retries := JavaTaskState.read_isInt (JavaTaskState.decode_decoded decoded).retryCount
  error := by
    cases (JavaTaskState.decode_decoded decoded).error with
    | missing _ same => exact ⟨none, same⟩
    | present value found accepted =>
      obtain rfl := Option.some.inj accepted
      exact formed.error _ found

/-- A read that finds a status after PENDING. -/
theorem read_left {p' : Point} {d : Doc} {ends : Doc → Bool} (start : p = .missing)
    (reads : Reads ends p (some d) p') (quiet : ends d = false) (later : Later d) : p' = .left := by
  subst start
  rw [reads.2.2 later, quiet]
  rfl

theorem accepts_later {d : Doc} (accepts : TaskThreads.acceptsFeedback (TaskStore.status d) = true) :
    Later d := by
  simp only [TaskThreads.acceptsFeedback, decide_eq_true_eq] at accepts
  rcases accepts with status | status <;> simp [Later, status, laterStatuses]

/-- What the gateway reads. -/
theorem gatewayGet_keeps : TaskThreads.gatewayGet.Keeps outside (fun current p' =>
    ∀ s ∈ current, Readable s ∧ ∀ status ∈ s.status, status ∈ laterStatuses → p' = .left) .missing := by
  apply get_keeps outside_ne rfl
  intro answer p' reads s decoded
  obtain ⟨d, rfl, decoded⟩ := Option.bind_eq_some_iff.mp decoded
  refine ⟨decoded_readable reads.1.formed decoded, fun status same listed => ?_⟩
  have later : Later d := by
    rw [Later, decoded_status decoded same]
    exact listed
  exact read_left rfl reads rfl later

theorem taskCancel_keeps (endpoint : Endpoint) :
    (TaskThreads.taskCancel endpoint).Keeps outside (fun _ _ => True) .missing := by
  cases endpoint with
  | api =>
    apply get_keeps outside_ne rfl
    intro answer p' reads
    cases answer with
    | none => trivial
    | some d =>
      by_cases finished : TaskThreads.isOver (TaskStore.status d) = true
      · simp only [finished]
        trivial
      · simp only [finished]
        exact ⟨⟨nofun, rfl, trivial⟩, fun _ _ _ => trivial⟩
  | gateway =>
    apply Prog.keeps_bind gatewayGet_keeps
    intro current p' _
    cases current with
    | none => trivial
    | some s =>
      by_cases finished : s.status.any TaskThreads.isOver = true
      · simp only [finished]
        trivial
      · simp only [finished]
        exact ⟨⟨nofun, rfl, trivial⟩, fun _ _ _ => trivial⟩

theorem heartbeat_keeps : (TaskThreads.ask .heartbeat).Keeps outside (fun _ p' => p' = p) p := by
  refine ⟨⟨nofun, rfl, trivial⟩, fun _ p' next => ?_⟩
  obtain ⟨_, _, same⟩ := next
  exact same

theorem scanStale_keeps (endpoint : Endpoint) :
    (TaskThreads.scanStale endpoint).Keeps outside (fun _ _ => True) .missing := by
  cases endpoint with
  | api =>
    apply get_keeps outside_ne rfl
    intro answer p' reads
    cases answer with
    | none => trivial
    | some d =>
      by_cases running : TaskStore.status d = "RUNNING"
      · have left := read_left rfl reads rfl (by simp [Later, running, laterStatuses])
        subst left
        simp only [running, if_true]
        apply Prog.keeps_bind heartbeat_keeps
        rintro heartbeat _ rfl
        cases lost : TaskThreads.Heartbeat.lost heartbeat with
        | none => trivial
        | some reason =>
          refine Prog.Keeps.mono (taskTransition_keeps outside_ne rfl rfl rfl ?_ (.inl rfl)) ?_
          · decide
          · exact fun _ _ _ => trivial
      · simp only [running, if_false]
        trivial
  | gateway =>
    apply Prog.keeps_bind gatewayGet_keeps
    intro current p' known
    cases current with
    | none => trivial
    | some s =>
      obtain ⟨readable, left⟩ := known s rfl
      by_cases running : s.status = some "RUNNING"
      · have left := left "RUNNING" running (by decide)
        subst left
        simp only [running, if_true]
        apply Prog.keeps_bind heartbeat_keeps
        rintro heartbeat _ rfl
        cases lost : TaskThreads.Heartbeat.lost heartbeat with
        | none => trivial
        | some reason => exact ⟨⟨nofun, rfl, rfl, readable⟩, fun _ _ _ => trivial⟩
      · simp only [running, if_false]
        trivial

theorem publishFeedback_keeps (m : Message) :
    (TaskThreads.ask (.publishFeedback m)).Keeps outside (fun _ p' => p' = .left) .left := by
  refine ⟨⟨nofun, rfl, rfl⟩, fun _ p' next => ?_⟩
  obtain ⟨_, _, same⟩ := next
  exact same

theorem taskFeedback_keeps (request : Nat) (endpoint : Endpoint) :
    (TaskThreads.taskFeedback request endpoint).Keeps outside (fun _ _ => True) .missing := by
  cases endpoint with
  | api =>
    apply get_keeps outside_ne rfl
    intro answer p' reads
    cases answer with
    | none => trivial
    | some d =>
      by_cases accepts : TaskThreads.acceptsFeedback (TaskStore.status d) = true
      · have left := read_left rfl reads rfl (accepts_later accepts)
        subst left
        simp only [accepts, if_true]
        cases TaskThreads.turnCount d with
        | none => trivial
        | some turns =>
          by_cases few : turns + 1 ≤ JavaTaskState.feedbackMaxTurns
          · simp only [few]
            apply Prog.keeps_bind (publishFeedback_keeps _)
            rintro _ _ rfl
            apply Prog.keeps_bind (feedbackTransition_keeps outside_ne rfl rfl)
            rintro _ _ rfl
            exact ⟨⟨nofun, rfl, trivial⟩, fun _ _ _ => trivial⟩
          · simp only [few]
            trivial
      · simp only [accepts]
        trivial
  | gateway =>
    apply Prog.keeps_bind gatewayGet_keeps
    intro current p' known
    cases current with
    | none => trivial
    | some s =>
      obtain ⟨readable, left⟩ := known s rfl
      by_cases accepts : s.status.any TaskThreads.acceptsFeedback ∧
          JavaTaskState.turnCount s + 1 ≤ JavaTaskState.feedbackMaxTurns
      · obtain ⟨status, same, accepted⟩ := (Option.any_eq_true _ _).mp accepts.1
        have listed : status ∈ laterStatuses := by
          simp only [TaskThreads.acceptsFeedback, decide_eq_true_eq] at accepted
          rcases accepted with rfl | rfl <;> decide
        have left := left status same listed
        subst left
        simp only [accepts]
        apply Prog.keeps_bind (publishFeedback_keeps _)
        rintro raised _ rfl
        cases (raised : Bool) with
        | true => trivial
        | false =>
          refine ⟨⟨nofun, rfl, rfl, readable⟩, fun _ _ _ => ?_⟩
          exact ⟨⟨nofun, rfl, trivial⟩, fun _ _ _ => trivial⟩
      · simp only [accepts]
        trivial

theorem submit_follows (submission : Submission) :
    (submit submission).Follows (protocol .submit) .missing := by
  cases submission with
  | cached taskId question dbId sql execResult tokenUsage nodeTimings =>
    refine ⟨⟨rfl, rfl, rfl⟩, fun _ p' created => ?_⟩
    obtain rfl : p' = .left := created
    refine ⟨trivial, fun _ p' same => ?_⟩
    obtain rfl : p' = .left := same
    exact .inr rfl
  | _ =>
    refine ⟨⟨rfl, rfl, rfl⟩, fun _ p' created => ?_⟩
    obtain rfl : p' = .accepting := created
    refine ⟨⟨rfl, .inl ⟨rfl, rfl⟩⟩, fun _ p' sent => ?_⟩
    obtain rfl : p' = .stored := sent
    exact .inl rfl

end Endpoints

end TaskEvents
end Nl2SqlAgent

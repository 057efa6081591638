import Nl2SqlAgent.Lib.Watch
import Nl2SqlAgent.GatewaySubmit
import Nl2SqlAgent.WriteBehind

/-! `TaskEventRecorder` for all tasks: the dirty set, marked by any number of threads and
worked off by the scheduled flush, one at a time. The set's iterators and its size are only
weakly consistent, every command on Redis and the database may raise, and the documents
change at any time. -/
namespace Nl2SqlAgent

open Lib

namespace RecorderFlush

open GatewaySubmit (Attempt)
open JavaTaskState (TaskState)
open TaskEvents (TaskRecord)

def maxPending : Nat := 10000

def batchSize : Nat := 500

inductive Effect where
  | add (taskId : String)
  | size
  | iterator
  | iteratorRemove (taskId : String)
  | isEmpty
  | inTime
  | next
  | remove (taskId : String)
  | get (taskId : String)
  | owner (taskId : String)
  | upsert (taskId userTag : String) (row : TaskRecord)
  | put (question dbId : Option String) (sql : String) (execResult : Json)
      (tokenUsage nodeTimings : List (String × Json))
  | flushed

def Effect.Answer : Effect → Type
  | .add _ => Unit
  | .size => Nat
  | .iterator => Option String
  | .iteratorRemove _ => Unit
  | .isEmpty => Bool
  | .inTime => Bool
  | .next => Option String
  | .remove _ => Bool
  | .get _ => Attempt (Option TaskState)
  | .owner _ => Attempt (Option String)
  | .upsert .. => Attempt Unit
  | .put .. => Attempt Unit
  | .flushed => Unit

abbrev Task := Prog Effect Effect.Answer

def ask (e : Effect) : Task e.Answer := Prog.perform e

/-- The element to drop is fetched before it is removed. -/
def dropOld : Task Unit := do
  match ← ask .iterator with
  | none => return ()
  | some old => ask (.iteratorRemove old)

def markDirty (taskId : String) : Task Unit := do
  let _ ← ask (.add taskId)
  let size : Nat ← ask .size
  if size > maxPending then dropOld else return ()

/-- The iterator yields as many elements as `yields` says, or ends before. -/
def drainBatch : Nat → List String → Task (List String)
  | 0, batch => pure batch
  | yields + 1, batch => do
    match ← ask .next with
    | none => pure batch
    | some id =>
      if batch.length ≥ batchSize then pure batch
      else
        let removed : Bool ← ask (.remove id)
        if removed then drainBatch yields (batch ++ [id]) else drainBatch yields batch

/-- The success is also cached; the map for it refuses a missing usage or timing. -/
def cacheResult (s : TaskState) : Task Unit :=
  match s.sql, s.tokenUsage, s.nodeTimings with
  | some sql, some tokenUsage, some nodeTimings =>
    if s.status = some "SUCCESS" ∧ GatewaySubmit.isBlank sql = false then do
      let _ ← ask (.put s.question s.dbId sql s.execResult tokenUsage nodeTimings)
      return ()
    else return ()
  | _, _, _ => return ()

/-- `record`, whose exceptions the flush ignores; `valueOf` prints errors that are no texts. -/
def record (valueOf : Json → String) (taskId : String) : Task Unit := do
  match ← ask (.get taskId) with
  | .raised _ => return ()
  | .done none => return ()
  | .done (some s) => do
    match ← ask (.owner taskId) with
    | .raised _ => return ()
    | .done owner => do
      match ← ask (.upsert taskId (owner.getD "unknown") (TaskEvents.record valueOf s)) with
      | .raised _ => return ()
      | .done _ => cacheResult s

def recordAll (valueOf : Json → String) : List String → Task Unit
  | [] => return ()
  | id :: batch => do
    record valueOf id
    recordAll valueOf batch

/-- The rounds of a flush are bounded by its deadline. -/
def flush (valueOf : Json → String) (yields : Nat) : Nat → Task Unit
  | 0 => ask .flushed
  | rounds + 1 => do
    let empty : Bool ← ask .isEmpty
    if empty then ask .flushed
    else
      let inTime : Bool ← ask .inTime
      if inTime then
        let batch ← drainBatch yields []
        if batch = [] then ask .flushed
        else
          recordAll valueOf batch
          flush valueOf yields rounds
      else ask .flushed

inductive Desc where
  | mark (taskId : String)
  | flush (number yields rounds : Nat)
  deriving DecidableEq, Repr

def body (valueOf : Json → String) : Desc → Task Unit
  | .mark taskId => markDirty taskId
  | .flush _ yields rounds => flush valueOf yields rounds

/-- `element` is what an iterator yields. -/
structure Choice where
  size : Nat := 0
  element : Option String := none
  inTime : Bool := true
  raises : Bool := false
  carriedOut : Bool := false

def Choice.attempt (c : Choice) (a : α) : Attempt α :=
  if c.raises then .raised c.carriedOut else .done a

/-- The dirty set, the documents and owners in Redis, the rows of the database, how many
flushes have begun, and whether one is in progress. -/
structure World where
  dirty : List String
  docs : String → Option Doc
  owners : String → Option String
  rows : String → Option (String × TaskRecord)
  flushes : Nat
  flushing : Bool

def World.after (w : World) (c : Choice) : Effect → World
  | .add taskId => { w with dirty := taskId :: w.dirty.filter (· ≠ taskId) }
  | .iteratorRemove taskId => { w with dirty := w.dirty.filter (· ≠ taskId) }
  | .remove taskId => { w with dirty := w.dirty.filter (· ≠ taskId) }
  | .upsert taskId userTag row =>
    if c.raises ∧ ¬ c.carriedOut then w
    else { w with rows := Function.update w.rows taskId (some (userTag, row)) }
  | .flushed => { w with flushing := false }
  | _ => w

def reply (w : World) (c : Choice) : (e : Effect) → e.Answer
  | .add _ => ()
  | .size => c.size
  | .iterator => c.element
  | .iteratorRemove _ => ()
  | .isEmpty => decide (w.dirty = [])
  | .inTime => c.inTime
  | .next => c.element
  | .remove taskId => decide (taskId ∈ w.dirty)
  | .get taskId => c.attempt ((w.docs taskId).bind JavaTaskState.decode)
  | .owner taskId => c.attempt (w.owners taskId)
  | .upsert .. => c.attempt ()
  | .put .. => c.attempt ()
  | .flushed => ()

/-- What others do in Redis. -/
inductive Move where
  | write (taskId : String) (doc : Option Doc)
  | own (taskId : String) (owner : Option String)

def World.move (w : World) : Move → World
  | .write taskId doc => { w with docs := Function.update w.docs taskId doc }
  | .own taskId owner => { w with owners := Function.update w.owners taskId owner }

/-- The scheduler begins no flush before the last one has ended. -/
def arrive (w : World) : Desc → Option World
  | .mark _ => some w
  | .flush number _ _ =>
    if number = w.flushes ∧ w.flushing = false then
      some { w with flushes := w.flushes + 1, flushing := true }
    else none

def system (valueOf : Json → String) : Threads Effect Effect.Answer World Desc Choice Move where
  body := body valueOf
  perform w c e := some (w.after c e, reply w c e, [])
  arrive := arrive
  ambient w move := some (w.move move)

/-- How often a task was marked, and how often it had been marked when the state of its last
upsert was read, when it was read without a state, dropped from the full set, or taken into
a batch; the tasks of the batch that are still to be recorded, how often the first of them
had been marked when it was read, and those that the flush has failed to record. -/
structure Record where
  marks : String → Nat := fun _ => 0
  upserted : String → Nat := fun _ => 0
  absent : String → Nat := fun _ => 0
  evicted : String → Nat := fun _ => 0
  drained : String → Nat := fun _ => 0
  batch : List String := []
  readAt : Nat := 0
  failed : List (String × Nat) := []

def Record.fail (g : Record) (taskId : String) : Record :=
  { g with batch := g.batch.tail, failed := (taskId, g.drained taskId) :: g.failed }

def Record.succeed (g : Record) (taskId : String) : Record :=
  { g with
    batch := g.batch.tail
    upserted := Function.update g.upserted taskId (max (g.upserted taskId) g.readAt) }

/-- A document that cannot be decoded is answered like a missing one. -/
def Record.after (g : Record) (w : World) : (e : Effect) → e.Answer → Record
  | .add taskId, _ => { g with marks := Function.update g.marks taskId (g.marks taskId + 1) }
  | .iteratorRemove taskId, _ =>
    if taskId ∈ w.dirty then
      { g with evicted := Function.update g.evicted taskId (g.marks taskId) }
    else g
  | .remove taskId, true =>
    { g with
      batch := g.batch ++ [taskId]
      drained := Function.update g.drained taskId (g.marks taskId) }
  | .get taskId, .done (some _) => { g with readAt := g.marks taskId }
  | .get taskId, .done none =>
    if w.docs taskId = none then
      { g with
        batch := g.batch.tail
        absent := Function.update g.absent taskId (g.marks taskId) }
    else g.fail taskId
  | .get taskId, .raised _ => g.fail taskId
  | .owner taskId, .raised _ => g.fail taskId
  | .upsert taskId _ _, .done _ => g.succeed taskId
  | .upsert taskId _ _, .raised true => g.succeed taskId
  | .upsert taskId _ _, .raised false => g.fail taskId
  | .flushed, _ => { g with failed := [] }
  | _, _ => g

def notes : Notes Effect Effect.Answer World Desc Move Record where
  run w g _ e r := g.after w e r

abbrev watched (valueOf : Json → String) := (system valueOf).watched notes

abbrev Run := Config (Desc × Effect) (fun e => e.2.Answer) (World × Record) Desc

def start : Run := ⟨(⟨[], fun _ => none, fun _ => none, fun _ => none, 0, false⟩, {}), []⟩

/-- When a flush ends, every task that it failed to record has been marked again since it was
taken into the batch. -/
def Recovered (w : World × Record) (_ : Desc) (e : Desc × Effect) (_ : e.2.Answer) : Prop :=
  match e.2 with
  | .flushed => ∀ x ∈ w.2.failed, x.2 < w.2.marks x.1
  | _ => True

/-- Since the task was last marked, a state that was read has been upserted, or it is still
in the dirty set, or it had no state when it was read, or it was dropped from the full set. -/
def Settled (w : World × Record) (taskId : String) : Prop :=
  w.2.marks taskId ≤ w.2.upserted taskId ∨ taskId ∈ w.1.dirty ∨
    w.2.marks taskId ≤ w.2.absent taskId ∨ w.2.marks taskId ≤ w.2.evicted taskId

/-- The task is settled, or the flush still has to record it, or has failed to. -/
def Accounted (w : World × Record) (taskId : String) : Prop :=
  Settled w taskId ∨ (taskId ∈ w.2.batch ∧ w.2.marks taskId ≤ w.2.drained taskId) ∨
    (taskId, w.2.marks taskId) ∈ w.2.failed

/-- Every mark is accounted for, and between the flushes nothing is left to record. -/
structure Kept (w : World × Record) : Prop where
  each : ∀ taskId, Accounted w taskId
  drained : ∀ taskId, w.2.drained taskId ≤ w.2.marks taskId
  idle : w.1.flushing = false → w.2.batch = [] ∧ w.2.failed = []

section Operations

variable {w w' : World × Record} {taskId other : String} {rest : List String}

theorem Settled.frame (settled : Settled w taskId)
    (dirty : taskId ∈ w.1.dirty → taskId ∈ w'.1.dirty)
    (marks : w'.2.marks taskId = w.2.marks taskId)
    (upserted : w.2.upserted taskId ≤ w'.2.upserted taskId)
    (absent : w.2.absent taskId ≤ w'.2.absent taskId)
    (evicted : w.2.evicted taskId ≤ w'.2.evicted taskId) : Settled w' taskId := by
  rw [Settled, marks]
  rcases settled with done | left | missing | dropped
  · exact .inl (done.trans upserted)
  · exact .inr (.inl (dirty left))
  · exact .inr (.inr (.inl (missing.trans absent)))
  · exact .inr (.inr (.inr (dropped.trans evicted)))

/-- A step that touches another task only. -/
theorem Accounted.frame (accounted : Accounted w taskId)
    (dirty : taskId ∈ w.1.dirty → taskId ∈ w'.1.dirty)
    (marks : w'.2.marks taskId = w.2.marks taskId)
    (upserted : w'.2.upserted taskId = w.2.upserted taskId)
    (absent : w'.2.absent taskId = w.2.absent taskId)
    (evicted : w'.2.evicted taskId = w.2.evicted taskId)
    (batch : taskId ∈ w.2.batch → taskId ∈ w'.2.batch)
    (drained : w'.2.drained taskId = w.2.drained taskId)
    (failed : (taskId, w.2.marks taskId) ∈ w.2.failed → (taskId, w.2.marks taskId) ∈ w'.2.failed) :
    Accounted w' taskId := by
  rcases accounted with settled | ⟨member, taken⟩ | lost
  · exact .inl (settled.frame dirty marks upserted.ge absent.ge evicted.ge)
  · refine .inr (.inl ⟨batch member, ?_⟩)
    rw [marks, drained]
    exact taken
  · refine .inr (.inr ?_)
    rw [marks]
    exact failed lost

theorem mem_tail (batch : w.2.batch = taskId :: rest) (apart : other ≠ taskId)
    (member : other ∈ w.2.batch) : other ∈ w.2.batch.tail := by
  rw [batch] at member ⊢
  exact (List.mem_cons.mp member).resolve_left apart

theorem Kept.fail (kept : Kept w) (batch : w.2.batch = taskId :: rest)
    (working : w.1.flushing = true) : Kept (w.1, w.2.fail taskId) := by
  refine ⟨fun id => ?_, kept.drained, fun idle => absurd idle (by simp [working])⟩
  by_cases same : id = taskId
  · subst same
    rcases kept.each id with settled | ⟨-, taken⟩ | lost
    · exact .inl settled
    · have exact_ : w.2.drained id = w.2.marks id := Nat.le_antisymm (kept.drained id) taken
      refine .inr (.inr ?_)
      change (id, w.2.marks id) ∈ (id, w.2.drained id) :: w.2.failed
      rw [exact_]
      exact List.mem_cons_self
    · exact .inr (.inr (List.mem_cons_of_mem _ lost))
  · exact (kept.each id).frame (fun left => left) rfl rfl rfl rfl (mem_tail batch same) rfl
      (List.mem_cons_of_mem _)

theorem Kept.succeed (kept : Kept w) (batch : w.2.batch = taskId :: rest)
    (working : w.1.flushing = true) (read : w.2.drained taskId ≤ w.2.readAt)
    (rows : String → Option (String × TaskRecord)) :
    Kept ({ w.1 with rows := rows }, w.2.succeed taskId) := by
  refine ⟨fun id => ?_, kept.drained, fun idle => absurd idle (by simp [working])⟩
  by_cases same : id = taskId
  · subst same
    have newest : (w.2.succeed id).upserted id = max (w.2.upserted id) w.2.readAt :=
      Function.update_self id _ _
    rcases kept.each id with settled | ⟨-, taken⟩ | lost
    · refine .inl (settled.frame (fun left => left) rfl ?_ le_rfl le_rfl)
      rw [newest]
      exact le_max_left _ _
    · refine .inl (.inl ?_)
      rw [newest]
      exact (taken.trans read).trans (le_max_right _ _)
    · exact .inr (.inr lost)
  · exact (kept.each id).frame (fun left => left) rfl (Function.update_of_ne same _ _) rfl rfl
      (mem_tail batch same) rfl (fun lost => lost)

theorem Kept.missing (kept : Kept w) (batch : w.2.batch = taskId :: rest)
    (working : w.1.flushing = true) :
    Kept (w.1, { w.2 with
      batch := w.2.batch.tail
      absent := Function.update w.2.absent taskId (w.2.marks taskId) }) := by
  refine ⟨fun id => ?_, kept.drained, fun idle => absurd idle (by simp [working])⟩
  by_cases same : id = taskId
  · subst same
    have now : Function.update w.2.absent id (w.2.marks id) id = w.2.marks id :=
      Function.update_self id _ _
    exact .inl (.inr (.inr (.inl now.ge)))
  · exact (kept.each id).frame (fun left => left) rfl rfl (Function.update_of_ne same _ _) rfl
      (mem_tail batch same) rfl (fun lost => lost)

theorem mem_dropped (apart : other ≠ taskId) (left : other ∈ w.1.dirty) :
    other ∈ w.1.dirty.filter (· ≠ taskId) :=
  List.mem_filter.mpr ⟨left, decide_eq_true apart⟩

theorem Kept.add (kept : Kept w) (taskId : String) :
    Kept ({ w.1 with dirty := taskId :: w.1.dirty.filter (· ≠ taskId) },
      { w.2 with marks := Function.update w.2.marks taskId (w.2.marks taskId + 1) }) := by
  refine ⟨fun id => ?_, fun id => ?_, kept.idle⟩
  · by_cases same : id = taskId
    · subst same
      exact .inl (.inr (.inl List.mem_cons_self))
    · have marks : Function.update w.2.marks taskId (w.2.marks taskId + 1) id = w.2.marks id :=
        Function.update_of_ne same _ _
      exact (kept.each id).frame (fun left => List.mem_cons_of_mem _ (mem_dropped same left)) marks
        rfl rfl rfl (fun member => member) rfl (fun lost => lost)
  · by_cases same : id = taskId
    · subst same
      have marks : Function.update w.2.marks id (w.2.marks id + 1) id = w.2.marks id + 1 :=
        Function.update_self id _ _
      have taken := kept.drained id
      simp only [marks]
      omega
    · simp only [Function.update_of_ne same]
      exact kept.drained id

theorem Kept.evict (kept : Kept w) (present : taskId ∈ w.1.dirty) :
    Kept ({ w.1 with dirty := w.1.dirty.filter (· ≠ taskId) },
      { w.2 with evicted := Function.update w.2.evicted taskId (w.2.marks taskId) }) := by
  refine ⟨fun id => ?_, kept.drained, kept.idle⟩
  by_cases same : id = taskId
  · subst same
    have now : Function.update w.2.evicted id (w.2.marks id) id = w.2.marks id :=
      Function.update_self id _ _
    exact .inl (.inr (.inr (.inr now.ge)))
  · exact (kept.each id).frame (mem_dropped same) rfl rfl rfl (Function.update_of_ne same _ _)
      (fun member => member) rfl (fun lost => lost)

theorem Kept.drain (kept : Kept w) (working : w.1.flushing = true) :
    Kept ({ w.1 with dirty := w.1.dirty.filter (· ≠ taskId) },
      { w.2 with
        batch := w.2.batch ++ [taskId]
        drained := Function.update w.2.drained taskId (w.2.marks taskId) }) := by
  refine ⟨fun id => ?_, fun id => ?_, fun idle => absurd idle (by simp [working])⟩
  · by_cases same : id = taskId
    · subst same
      have now : Function.update w.2.drained id (w.2.marks id) id = w.2.marks id :=
        Function.update_self id _ _
      exact .inr (.inl ⟨by simp, now.ge⟩)
    · exact (kept.each id).frame (mem_dropped same) rfl rfl rfl rfl
        (List.mem_append_left _) (Function.update_of_ne same _ _) (fun lost => lost)
  · by_cases same : id = taskId
    · subst same
      exact (Function.update_self id (w.2.marks id) w.2.drained).le
    · simp only [Function.update_of_ne same]
      exact kept.drained id

/-- A task that is not in the dirty set is not taken out of it. -/
theorem Kept.passed (kept : Kept w) (gone : taskId ∉ w.1.dirty) :
    Kept ({ w.1 with dirty := w.1.dirty.filter (· ≠ taskId) }, w.2) := by
  refine ⟨fun id => ?_, kept.drained, kept.idle⟩
  refine (kept.each id).frame (fun left => ?_) rfl rfl rfl rfl (fun member => member) rfl
    (fun lost => lost)
  exact mem_dropped (fun same => gone (same ▸ left)) left

/-- At the end of a flush that failed for none of the newest marks every task is settled. -/
theorem Kept.settled (kept : Kept w) (batch : w.2.batch = [])
    (recovered : ∀ x ∈ w.2.failed, x.2 < w.2.marks x.1) (taskId : String) : Settled w taskId := by
  rcases kept.each taskId with settled | ⟨member, -⟩ | lost
  · exact settled
  · rw [batch] at member
    exact absurd member List.not_mem_nil
  · exact absurd (recovered _ lost) (Nat.lt_irrefl _)

theorem Kept.flushed (kept : Kept w) (batch : w.2.batch = [])
    (recovered : ∀ x ∈ w.2.failed, x.2 < w.2.marks x.1) :
    Kept ({ w.1 with flushing := false }, { w.2 with failed := [] }) :=
  ⟨fun taskId => .inl (kept.settled batch recovered taskId), kept.drained, fun _ => ⟨batch, rfl⟩⟩

end Operations

/-- How far a thread has come: the batch that a flush has still to record, and the task whose
state it has read. -/
inductive Point where
  | marking
  | working (batch : List String)
  | holding (taskId : String) (batch : List String)
  | finished

def protocol : Prog.Protocol Effect Effect.Answer Point where
  allows
    | .marking, .add _ | .marking, .size | .marking, .iterator | .marking, .iteratorRemove _ => True
    | .working _, .isEmpty | .working _, .inTime | .working _, .next | .working _, .remove _
    | .working _, .put .. => True
    | .working batch, .get taskId => batch.head? = some taskId
    | .working batch, .flushed => batch = []
    | .holding taskId _, .owner asked => asked = taskId
    | .holding taskId _, .upsert written _ _ => written = taskId
    | _, _ => False
  next
    | .working batch, .remove taskId, true, p' => p' = .working (batch ++ [taskId])
    | .working batch, .get taskId, .done (some _), p' => p' = .holding taskId batch.tail
    | .working batch, .get _, _, p' => p' = .working batch.tail
    | .holding _ batch, .owner _, .raised _, p' => p' = .working batch
    | .holding _ batch, .upsert .., _, p' => p' = .working batch
    | .working _, .flushed, _, p' => p' = .finished
    | p, _, _, p' => p' = p
  final _ := True

theorem markDirty_follows (taskId : String) : (markDirty taskId).Follows protocol .marking := by
  refine ⟨trivial, fun _ p next => ?_⟩
  obtain rfl := next
  refine ⟨trivial, fun (size : Nat) p next => ?_⟩
  obtain rfl := next
  change (if size > maxPending then dropOld else return ()).Follows protocol .marking
  split
  · refine ⟨trivial, fun old p next => ?_⟩
    obtain rfl := next
    cases (old : Option String) with
    | none => trivial
    | some old => exact ⟨trivial, fun _ _ _ => trivial⟩
  · trivial

theorem drainBatch_keeps (yields : Nat) (batch : List String) :
    (drainBatch yields batch).Keeps protocol (fun taken p => p = .working taken)
      (.working batch) := by
  induction yields generalizing batch with
  | zero => exact rfl
  | succ yields ih =>
    refine ⟨trivial, fun element p next => ?_⟩
    obtain rfl := next
    cases (element : Option String) with
    | none => exact rfl
    | some id =>
      by_cases full : batch.length ≥ batchSize
      · simp only [if_pos full]
        exact rfl
      · simp only [if_neg full]
        refine ⟨trivial, fun removed p next => ?_⟩
        cases (removed : Bool) with
        | true =>
          obtain rfl := next
          exact ih (batch ++ [id])
        | false =>
          obtain rfl := next
          exact ih batch

theorem cacheResult_keeps (s : TaskState) (batch : List String) :
    (cacheResult s).Keeps protocol (fun _ p => p = .working batch) (.working batch) := by
  unfold cacheResult
  split
  · split
    · refine ⟨trivial, fun _ p next => ?_⟩
      obtain rfl := next
      exact rfl
    · exact rfl
  · exact rfl

theorem record_keeps (valueOf : Json → String) (taskId : String) (batch : List String) :
    (record valueOf taskId).Keeps protocol (fun _ p => p = .working batch)
      (.working (taskId :: batch)) := by
  refine ⟨rfl, fun read p next => ?_⟩
  cases (read : Attempt (Option TaskState)) with
  | raised =>
    obtain rfl := next
    exact rfl
  | done state =>
    cases state with
    | none =>
      obtain rfl := next
      exact rfl
    | some s =>
      obtain rfl := next
      refine ⟨rfl, fun owner p next => ?_⟩
      cases (owner : Attempt (Option String)) with
      | raised =>
        obtain rfl := next
        exact rfl
      | done owner =>
        obtain rfl := next
        refine ⟨rfl, fun written p next => ?_⟩
        obtain rfl := next
        cases (written : Attempt Unit) with
        | raised => exact rfl
        | done => exact cacheResult_keeps s batch

theorem recordAll_keeps (valueOf : Json → String) (batch : List String) :
    (recordAll valueOf batch).Keeps protocol (fun _ p => p = .working []) (.working batch) := by
  induction batch with
  | nil => exact rfl
  | cons id rest ih =>
    apply Prog.keeps_bind (record_keeps valueOf id rest)
    intro _ p recorded
    obtain rfl := recorded
    exact ih

theorem flushed_follows : (ask .flushed).Follows protocol (.working []) :=
  ⟨rfl, fun _ _ _ => trivial⟩

theorem flush_follows (valueOf : Json → String) (yields rounds : Nat) :
    (flush valueOf yields rounds).Follows protocol (.working []) := by
  induction rounds with
  | zero => exact flushed_follows
  | succ rounds ih =>
    refine ⟨trivial, fun empty p next => ?_⟩
    obtain rfl := next
    cases (empty : Bool) with
    | true => exact flushed_follows
    | false =>
      refine ⟨trivial, fun inTime p next => ?_⟩
      obtain rfl := next
      cases (inTime : Bool) with
      | false => exact flushed_follows
      | true =>
        change (drainBatch yields [] >>= fun batch => if batch = [] then ask .flushed
          else recordAll valueOf batch >>= fun _ => flush valueOf yields rounds).Follows protocol
            (.working [])
        apply Prog.follows_bind (drainBatch_keeps yields [])
        intro batch p drained
        obtain rfl := drained
        by_cases empty : batch = []
        · rw [if_pos empty, empty]
          exact flushed_follows
        · rw [if_neg empty]
          apply Prog.follows_bind (recordAll_keeps valueOf batch)
          intro _ p recorded
          obtain rfl := recorded
          exact ih

def Desc.number : Desc → Option Nat
  | .mark _ => none
  | .flush number _ _ => some number

/-- A thread that has a batch is the flush that has begun last. -/
def Point.Holds (w : World × Record) (d : Desc) : Point → Prop
  | .working batch =>
    w.1.flushing = true ∧ d.number.map (· + 1) = some w.1.flushes ∧ w.2.batch = batch
  | .holding taskId batch =>
    w.1.flushing = true ∧ d.number.map (· + 1) = some w.1.flushes ∧
      w.2.batch = taskId :: batch ∧ w.2.drained taskId ≤ w.2.readAt
  | .marking | .finished => True

/-- A thread's own step keeps every mark accounted for and leads to a point that holds. -/
theorem advance {w : World × Record} {c : Choice} {d : Desc} {p : Point} {e : Effect}
    (kept : Kept w) (holds : p.Holds w d) (allowed : protocol.allows p e)
    (recovered : Recovered w d (d, e) (reply w.1 c e)) :
    Kept (w.1.after c e, w.2.after w.1 e (reply w.1 c e)) ∧
      ∃ p', protocol.next p e (reply w.1 c e) p' ∧
        p'.Holds (w.1.after c e, w.2.after w.1 e (reply w.1 c e)) d := by
  cases p with
  | marking =>
    cases e with
    | add taskId => exact ⟨kept.add taskId, .marking, rfl, trivial⟩
    | size => exact ⟨kept, .marking, rfl, trivial⟩
    | iterator => exact ⟨kept, .marking, rfl, trivial⟩
    | iteratorRemove taskId =>
      refine ⟨?_, .marking, rfl, trivial⟩
      by_cases present : taskId ∈ w.1.dirty
      · simp only [World.after, Record.after, if_pos present]
        exact kept.evict present
      · simp only [World.after, Record.after, if_neg present]
        exact kept.passed present
    | _ => exact absurd allowed id
  | working batch =>
    have unchanged := holds
    obtain ⟨working, last, same⟩ := holds
    cases e with
    | isEmpty => exact ⟨kept, .working batch, rfl, unchanged⟩
    | inTime => exact ⟨kept, .working batch, rfl, unchanged⟩
    | next => exact ⟨kept, .working batch, rfl, unchanged⟩
    | put => exact ⟨kept, .working batch, rfl, unchanged⟩
    | remove taskId =>
      by_cases present : taskId ∈ w.1.dirty
      · rw [show reply w.1 c (.remove taskId) = true from decide_eq_true present]
        exact ⟨kept.drain working, .working (batch ++ [taskId]), rfl, working, last, by
          simp [Record.after, same]⟩
      · rw [show reply w.1 c (.remove taskId) = false from decide_eq_false present]
        exact ⟨kept.passed present, .working batch, rfl, working, last, same⟩
    | get taskId =>
      obtain ⟨rest, rfl⟩ : ∃ rest, batch = taskId :: rest :=
        ⟨batch.tail, (List.eq_cons_of_mem_head? allowed)⟩
      by_cases raises : c.raises = true
      · rw [show reply w.1 c (.get taskId) = Attempt.raised c.carriedOut from if_pos raises]
        exact ⟨kept.fail same working, .working rest, rfl, working, last, by
          simp [Record.after, Record.fail, same]⟩
      · have answered : reply w.1 c (.get taskId) =
            Attempt.done ((w.1.docs taskId).bind JavaTaskState.decode) := if_neg raises
        cases found : (w.1.docs taskId).bind JavaTaskState.decode with
        | none =>
          rw [answered, found]
          by_cases missing : w.1.docs taskId = none
          · simp only [Record.after, if_pos missing]
            exact ⟨kept.missing same working, .working rest, rfl, working, last, by simp [same]⟩
          · simp only [Record.after, if_neg missing]
            exact ⟨kept.fail same working, .working rest, rfl, working, last, by
              simp [Record.fail, same]⟩
        | some s =>
          rw [answered, found]
          refine ⟨⟨kept.each, kept.drained, kept.idle⟩, .holding taskId rest, rfl, working, last, same, ?_⟩
          exact kept.drained taskId
    | flushed =>
      obtain rfl : batch = [] := allowed
      exact ⟨kept.flushed same recovered, .finished, rfl, trivial⟩
    | _ => exact absurd allowed id
  | holding taskId batch =>
    have unchanged := holds
    obtain ⟨working, last, same, read⟩ := holds
    cases e with
    | owner asked =>
      obtain rfl : asked = taskId := allowed
      by_cases raises : c.raises = true
      · rw [show reply w.1 c (.owner asked) = Attempt.raised c.carriedOut from if_pos raises]
        exact ⟨kept.fail same working, .working batch, rfl, working, last, by
          simp [Record.after, Record.fail, same]⟩
      · rw [show reply w.1 c (.owner asked) = Attempt.done (w.1.owners asked) from if_neg raises]
        exact ⟨kept, .holding asked batch, rfl, unchanged⟩
    | upsert written userTag row =>
      obtain rfl : written = taskId := allowed
      have wrote := kept.succeed same working read
        (Function.update w.1.rows written (some (userTag, row)))
      have shorter : w.2.batch.tail = batch := by rw [same, List.tail_cons]
      by_cases raises : c.raises = true
      · rw [show reply w.1 c (.upsert written userTag row) = Attempt.raised c.carriedOut from
          if_pos raises]
        cases out : c.carriedOut with
        | true =>
          simp only [World.after, raises, out]
          exact ⟨wrote, .working batch, rfl, working, last, shorter⟩
        | false =>
          simp only [World.after, raises, out]
          exact ⟨kept.fail same working, .working batch, rfl, working, last, shorter⟩
      · rw [show reply w.1 c (.upsert written userTag row) = Attempt.done () from if_neg raises]
        simp only [World.after, raises]
        exact ⟨wrote, .working batch, rfl, working, last, shorter⟩
    | _ => exact absurd allowed id
  | finished => cases e <;> exact absurd allowed id

/-- A thread with a batch is disturbed by nothing but a change of the flushes or the batch. -/
theorem Point.Holds.frame {w w' : World × Record} {d : Desc} {p : Point} (holds : p.Holds w d)
    (flushing : w'.1.flushing = w.1.flushing) (flushes : w'.1.flushes = w.1.flushes)
    (batch : w'.2.batch = w.2.batch) (drained : w'.2.drained = w.2.drained)
    (readAt : w'.2.readAt = w.2.readAt) : p.Holds w' d := by
  cases p with
  | working =>
    simp only [Point.Holds, flushing, flushes, batch]
    exact holds
  | holding =>
    simp only [Point.Holds, flushing, flushes, batch, drained, readAt]
    exact holds
  | marking => trivial
  | finished => trivial

theorem marks_apart {w : World × Record} {c : Choice} {e : Effect} {r : e.Answer}
    (marks : protocol.allows .marking e) :
    (w.1.after c e).flushing = w.1.flushing ∧ (w.1.after c e).flushes = w.1.flushes ∧
      (w.2.after w.1 e r).batch = w.2.batch ∧ (w.2.after w.1 e r).drained = w.2.drained ∧
      (w.2.after w.1 e r).readAt = w.2.readAt := by
  cases e with
  | add => exact ⟨rfl, rfl, rfl, rfl, rfl⟩
  | size => exact ⟨rfl, rfl, rfl, rfl, rfl⟩
  | iterator => exact ⟨rfl, rfl, rfl, rfl, rfl⟩
  | iteratorRemove taskId =>
    refine ⟨rfl, rfl, ?_, ?_, ?_⟩ <;> simp only [Record.after] <;> split <;> rfl
  | _ => exact absurd marks id

/-- Two flushes are not in progress at once. -/
theorem holds_apart {w : World × Record} {d d' : Desc} {p q : Point} (mine : p.Holds w d)
    (other : q.Holds w d') (apart : d.number = none ∨ d.number ≠ d'.number) :
    p = .marking ∨ p = .finished ∨ q = .marking ∨ q = .finished := by
  have numbers (last : d.number.map (· + 1) = some w.1.flushes)
      (last' : d'.number.map (· + 1) = some w.1.flushes) : False := by
    obtain ⟨n, number, count⟩ := Option.map_eq_some_iff.mp last
    obtain ⟨n', number', count'⟩ := Option.map_eq_some_iff.mp last'
    obtain rfl : n = n' := by omega
    rcases apart with none_ | different
    · rw [none_] at number
      contradiction
    · exact different (number.trans number'.symm)
  cases p with
  | marking => exact .inl rfl
  | finished => exact .inr (.inl rfl)
  | working =>
    cases q with
    | marking => exact .inr (.inr (.inl rfl))
    | finished => exact .inr (.inr (.inr rfl))
    | _ => exact (numbers mine.2.1 other.2.1).elim
  | holding =>
    cases q with
    | marking => exact .inr (.inr (.inl rfl))
    | finished => exact .inr (.inr (.inr rfl))
    | _ => exact (numbers mine.2.1 other.2.1).elim

/-- A flush has a number of its own, and what a thread has left to do fits how far it is. -/
def Underway (w : World × Record)
    (t : Thread (Desc × Effect) (fun e => e.2.Answer) Desc) : Prop :=
  (∀ n, t.desc.number = some n → n < w.1.flushes) ∧
    ∃ p, t.rest.Follows (protocol.tagged t.desc) p ∧ p.Holds w t.desc

theorem perform_cases {valueOf : Json → String} {w w' : World × Record} {c : Choice}
    {e : Desc × Effect} {r : e.2.Answer} {forks : List Desc}
    (performed : (watched valueOf).perform w c e = some (w', r, forks)) :
    w' = (w.1.after c e.2, w.2.after w.1 e.2 (reply w.1 c e.2)) ∧ r = reply w.1 c e.2 ∧
      forks = [] := by
  obtain ⟨taken, noted⟩ := Threads.watched_performed performed
  simp only [system, Option.some.injEq, Prod.mk.injEq] at taken
  obtain ⟨world, rfl, forked⟩ := taken
  exact ⟨Prod.ext world.symm noted, rfl, forked.symm⟩

theorem after_flushes (w : World) (c : Choice) (e : Effect) : (w.after c e).flushes = w.flushes := by
  cases e with
  | upsert =>
    simp only [World.after]
    split <;> rfl
  | _ => rfl

def outline (valueOf : Json → String) : Threads.Outline (watched valueOf) Recovered where
  inv := Kept
  ok := Underway
  apart d d' := d.number = none ∨ d.number ≠ d'.number
  own {w c d e k w' r forks} kept underway recovered performed := by
    obtain ⟨numbered, p, ⟨⟨rfl, allowed⟩, later⟩, holds⟩ := underway
    obtain ⟨rfl, rfl, rfl⟩ := perform_cases performed
    obtain ⟨still, p', next, after⟩ := advance kept holds allowed recovered
    refine ⟨still, ⟨?_, p', later _ p' next, after⟩, by simp⟩
    rw [after_flushes]
    exact numbered
  stable {w c d e k w' r forks t} kept underway recovered performed other apart := by
    obtain ⟨-, p, ⟨⟨rfl, allowed⟩, -⟩, holds⟩ := underway
    obtain ⟨rfl, rfl, rfl⟩ := perform_cases performed
    obtain ⟨numbered, q, follows, holds'⟩ := other
    refine ⟨?_, q, follows, ?_⟩
    · rw [after_flushes]
      exact numbered
    · rcases holds_apart holds holds' apart.1 with rfl | rfl | rfl | rfl
      · obtain ⟨flushing, flushes, batch, drained, readAt⟩ := marks_apart allowed
        exact holds'.frame flushing flushes batch drained readAt
      · cases e.2 <;> exact absurd allowed id
      · trivial
      · trivial
  fork_apart {w c d e k w' r forks} _ _ performed := by
    obtain ⟨rfl, rfl, rfl⟩ := perform_cases performed
    simp
  arrive {w d w'} kept arrived := by
    obtain ⟨taken, noted⟩ := Threads.watched_arrived arrived
    cases d with
    | mark taskId =>
      obtain rfl : w' = w := Prod.ext (Option.some.inj taken).symm noted
      refine ⟨kept, ⟨nofun, .marking, Prog.follows_tag _ (markDirty_follows taskId), trivial⟩, ?_⟩
      exact fun t other => ⟨other, em (t.desc.number = none), .inl rfl⟩
    | flush number yields rounds =>
      obtain ⟨⟨rfl, free⟩, world⟩ := Option.ite_none_right_eq_some.mp taken
      obtain rfl : w' = ({ w.1 with flushes := w.1.flushes + 1, flushing := true }, w.2) :=
        Prod.ext (Option.some.inj world).symm noted
      obtain ⟨batch, failed⟩ := kept.idle free
      refine ⟨⟨kept.each, kept.drained, nofun⟩, ⟨?_, .working [],
        Prog.follows_tag _ (flush_follows valueOf yields rounds), rfl, rfl, batch⟩, ?_⟩
      · rintro n ⟨⟩
        exact Nat.lt_succ_self _
      · intro t other
        obtain ⟨numbered, p, follows, holds⟩ := other
        have different : t.desc.number ≠ some w.1.flushes := fun same =>
          Nat.lt_irrefl _ (numbered _ same)
        refine ⟨⟨fun n number => (numbered n number).trans (Nat.lt_succ_self _), p, follows, ?_⟩,
          .inr different, .inr different.symm⟩
        cases p with
        | marking => trivial
        | finished => trivial
        | working => exact absurd holds.1 (by simp [free])
        | holding => exact absurd holds.1 (by simp [free])
  ambient {w move w'} kept moved := by
    obtain ⟨taken, noted⟩ := Threads.watched_moved moved
    obtain rfl : w' = (w.1.move move, w.2) := Prod.ext (Option.some.inj taken).symm noted
    have same : (w.1.move move).dirty = w.1.dirty ∧ (w.1.move move).flushing = w.1.flushing ∧
        (w.1.move move).flushes = w.1.flushes := by
      cases move <;> exact ⟨rfl, rfl, rfl⟩
    refine ⟨⟨fun id => ?_, kept.drained, ?_⟩, fun t other => ?_⟩
    · refine (kept.each id).frame ?_ rfl rfl rfl rfl (fun member => member) rfl (fun lost => lost)
      rw [same.1]
      exact fun left => left
    · rw [same.2.1]
      exact kept.idle
    · obtain ⟨numbered, p, follows, holds⟩ := other
      refine ⟨?_, p, follows, holds.frame same.2.1 same.2.2 rfl rfl rfl⟩
      rw [same.2.2]
      exact numbered

theorem start_kept : Kept start.world :=
  ⟨fun _ => .inl (.inl le_rfl), fun _ => le_rfl, fun _ => ⟨rfl, rfl⟩⟩

/-- When no flush is in progress, no mark is lost, if every task that a flush failed to
record had been marked again by its end. -/
theorem marks_settled {valueOf : Json → String} {events : List (Event Desc Choice Move)} {c : Run}
    (recovered : (watched valueOf).machine.Along ((watched valueOf).Meets Recovered) start events)
    (run : (watched valueOf).machine.exec start events = some c)
    (between : c.world.1.flushing = false) : ∀ taskId, Settled c.world taskId := by
  have kept := ((outline valueOf).run ((outline valueOf).holds_empty start_kept) recovered run).world
  obtain ⟨batch, failed⟩ := kept.idle between
  apply kept.settled batch
  intro x lost
  rw [failed] at lost
  exact absurd lost List.not_mem_nil

instance (w : World × Record) (d : Desc) : (e : Desc × Effect) → (r : e.2.Answer) →
    Decidable (Recovered w d e r)
  | (_, .flushed), _ => inferInstanceAs (Decidable (∀ x ∈ w.2.failed, x.2 < w.2.marks x.1))
  | (_, .add _), _ | (_, .size), _ | (_, .iterator), _ | (_, .iteratorRemove _), _
  | (_, .isEmpty), _ | (_, .inTime), _ | (_, .next), _ | (_, .remove _), _ | (_, .get _), _
  | (_, .owner _), _ | (_, .upsert ..), _ | (_, .put ..), _ => isTrue trivial

/-- A task is stored and marked, and a flush takes it into its batch and reads it. -/
def taken : List (Event Desc Choice Move) :=
  [.ambient (.write "t1" (some (TaskStore.taskCreate "t1" "How many orders?" "shop" "" "now"))),
    .arrive (.mark "t1"), .run 0 {}, .run 0 {}, .arrive (.flush 0 1 1), .run 1 {}, .run 1 {},
    .run 1 { element := some "t1" }, .run 1 {}, .run 1 {}, .run 1 {}]

/-- The database is down; before the flush ends the task is marked once more, and the next
flush finds the database up again. -/
def recovering : List (Event Desc Choice Move) :=
  taken ++ [.run 1 { raises := true }, .arrive (.mark "t1"), .run 2 {}, .run 2 {}, .run 1 {},
    .arrive (.flush 1 1 1), .run 3 {}, .run 3 {}, .run 3 { element := some "t1" }, .run 3 {},
    .run 3 {}, .run 3 {}, .run 3 {}, .run 3 {}]

theorem marks_settled_recovering :
    ∃ c, (watched fun _ => "").machine.exec start recovering = some c ∧
      c.world.1.flushing = false ∧ c.world.2.marks "t1" = 2 ∧ c.world.1.dirty = [] ∧
      Settled c.world "t1" := by
  have ends : ((watched fun _ => "").machine.exec start recovering).any (fun c =>
      c.world.1.flushing = false ∧ c.world.2.marks "t1" = 2 ∧ c.world.1.dirty = []) = true := by
    decide +kernel
  obtain ⟨c, run, final⟩ := (Option.any_eq_true _ _).mp ends
  obtain ⟨between, marks, dirty⟩ := of_decide_eq_true final
  have settled := marks_settled (by decide +kernel) run between "t1"
  exact ⟨c, run, between, marks, dirty, settled⟩

/-- The database is down for one upsert. -/
def failing : List (Event Desc Choice Move) := taken ++ [.run 1 { raises := true }, .run 1 {}]

theorem mark_lost :
    ∃ c, (watched fun _ => "").machine.exec start failing = some c ∧
      c.world.1.flushing = false ∧ ¬ Settled c.world "t1" := by
  have ends : ((watched fun _ => "").machine.exec start failing).any (fun c =>
      c.world.1.flushing = false ∧ c.world.2.marks "t1" = 1 ∧ c.world.2.upserted "t1" = 0 ∧
        c.world.1.dirty = [] ∧ c.world.2.absent "t1" = 0 ∧ c.world.2.evicted "t1" = 0) = true := by
    decide +kernel
  obtain ⟨c, run, final⟩ := (Option.any_eq_true _ _).mp ends
  obtain ⟨between, marks, upserted, dirty, absent, evicted⟩ := of_decide_eq_true final
  refine ⟨c, run, between, ?_⟩
  rintro (done | left | missing | dropped)
  · omega
  · simp [dirty] at left
  · omega
  · omega

end RecorderFlush
end Nl2SqlAgent

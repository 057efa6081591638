import Nl2SqlAgent.SampleConservation

/-! The thread pool under the evaluation loop. A future waits in the pool until one of the
threads is free, and holds its thread until it returns, also when the loop has given it up. -/
namespace Nl2SqlAgent

open Lib

namespace HardTimeouts

open Evaluation

/-- What the pool has made of a future, and when a thread began it. -/
inductive Phase
  | waiting
  | executing (since : Rat)
  | returned (since : Rat) (result : Except String Measured)
  | cancelled
  deriving DecidableEq

def Phase.isExecuting : Phase → Bool
  | .executing _ => true
  | _ => false

def Phase.isWaiting : Phase → Bool
  | .waiting => true
  | _ => false

/-- When a thread began the future. -/
def Phase.began : Phase → Option Rat
  | .executing since => some since
  | .returned since _ => some since
  | _ => none

/-- The futures in the order in which they were submitted, each with its number in the loop. -/
abbrev Pool := List Phase

/-- How many threads are taken. -/
def Pool.busy (pool : Pool) : Nat := pool.countP Phase.isExecuting

def Pool.submit (maxWorkers : Nat) (now : Rat) (pool : Pool) : Pool :=
  pool ++ [if pool.busy < maxWorkers then .executing now else .waiting]

/-- The thread of a future that has returned begins the first one that waits. -/
def Pool.finish (future : Nat) (result : Except String Measured) (now : Rat) (pool : Pool) :
    Option Pool :=
  match pool[future]? with
  | some (.executing since) =>
    let pool := pool.set future (.returned since result)
    match pool.findIdx? Phase.isWaiting with
    | some next => some (pool.set next (.executing now))
    | none => some pool
  | _ => none

/-- `fut.cancel()`: what a thread has begun goes on. -/
def Pool.cancel (future : Nat) (pool : Pool) : Pool :=
  match pool[future]? with
  | some .waiting => pool.set future .cancelled
  | _ => pool

/-- An attempt that was declared timed out, and what the pool had made of it by then. -/
structure Timeout (S : Type) where
  attempt : Running S
  phase : Option Phase
  now : Rat

/-- The loop over its pool. `now` and `declared` are what has happened so far, which the code
does not keep; the loop last went to wait at `waitsFrom`. -/
structure Run (S : Type) where
  loop : Loop S
  pool : Pool := []
  now : Rat := 0
  waitsFrom : Rat := 0
  declared : List (Timeout S) := []

variable {S : Type}

/-- What `wait` returns of the pending futures. -/
def Run.done (s : Run S) : List (Nat × Except String Measured) :=
  s.loop.pending.filterMap fun e =>
    match s.pool[e.future]? with
    | some (Phase.returned _ result) => some (e.future, result)
    | _ => none

/-- The condition of the loops that submit. -/
def Run.hasSlot (c : Setting S) (s : Run S) : Bool :=
  s.loop.pending.length < c.maxWorkers && !s.loop.taskQueue.isEmpty

/-- One item of `expired`. -/
def giveUp (c : Setting S) (now : Rat) (s : Run S) (e : Running S) : Run S :=
  if s.loop.pending.any fun other => other.future == e.future then
    { s with
      loop := takeExpired c s.loop e
      pool := s.pool.cancel e.future
      declared := s.declared ++ [⟨e, s.pool[e.future]?, now⟩] }
  else s

/-- An iteration of `while pending` up to the loop that refills the slots. -/
def sweep (c : Setting S) (w : Wake) (s : Run S) : Run S :=
  (s.loop.pending.filter w.expires).foldl (giveUp c w.now)
    { s with loop := w.done.foldl (takeDone c) s.loop, now := w.now, waitsFrom := w.now }

inductive Event
  | submit
  | finish (future : Nat) (result : Except String Measured) (now : Rat)
  | wake (w : Wake)

/-- The heartbeat of `wait`, in seconds. -/
def waitTimeout : Rat := 15

def step (c : Setting S) (s : Run S) : Event → Option (Run S)
  | .submit =>
    if s.hasSlot c ∧ s.now ≤ c.clock s.loop.futures then
      some { s with
        loop := submitNext c s.loop
        pool := s.pool.submit c.maxWorkers (c.clock s.loop.futures)
        now := c.clock s.loop.futures
        waitsFrom := c.clock s.loop.futures }
    else none
  | .finish future result now =>
    if s.now ≤ now then
      (s.pool.finish future result now).map fun pool => { s with pool := pool, now := now }
    else none
  | .wake w =>
    if !s.hasSlot c ∧ s.loop.pending ≠ [] ∧ s.now ≤ w.now ∧ w.done.Perm s.done ∧
        (w.done ≠ [] ∨ s.waitsFrom + waitTimeout ≤ w.now) then
      some (sweep c w s)
    else none

def machine (c : Setting S) : Machine (Run S) Event := ⟨step c⟩

def initial (samples : List S) : Run S := ⟨{ taskQueue := samples.map fun s => (s, 0) }, [], 0, 0, []⟩

/-- What a step does. -/
inductive Steps (c : Setting S) (s : Run S) : Event → Run S → Prop
  | submit (sample : S) (retries : Nat) (rest : List (S × Nat))
      (queue : s.loop.taskQueue = (sample, retries) :: rest) :
      Steps c s .submit { s with
        loop := { s.loop with
          taskQueue := rest
          pending := s.loop.pending ++
            [⟨s.loop.futures, sample, retries, c.clock s.loop.futures⟩]
          futures := s.loop.futures + 1
          submitted := s.loop.submitted ++ [sample] }
        pool := s.pool.submit c.maxWorkers (c.clock s.loop.futures)
        now := c.clock s.loop.futures
        waitsFrom := c.clock s.loop.futures }
  | finish (future : Nat) (result : Except String Measured) (now : Rat) (pool : Pool)
      (finished : s.pool.finish future result now = some pool) :
      Steps c s (.finish future result now) { s with pool := pool, now := now }
  | wake (w : Wake) (done : w.done.Perm s.done) : Steps c s (.wake w) (sweep c w s)

theorem step_steps {c : Setting S} {s t : Run S} {event : Event}
    (stepped : step c s event = some t) : Steps c s event t := by
  cases event with
  | submit =>
    simp only [step, Option.ite_none_right_eq_some, Option.some.injEq] at stepped
    obtain ⟨⟨slot, -⟩, rfl⟩ := stepped
    simp only [Run.hasSlot, Bool.and_eq_true, decide_eq_true_eq] at slot
    obtain ⟨few, more⟩ := slot
    cases queue : s.loop.taskQueue with
    | nil => simp [queue] at more
    | cons q rest =>
      simp only [submitNext, queue, few, if_true]
      exact .submit q.1 q.2 rest queue
  | finish future result now =>
    simp only [step, Option.ite_none_right_eq_some] at stepped
    obtain ⟨pool, finished, rfl⟩ := Option.map_eq_some_iff.mp stepped.2
    exact .finish future result now pool finished
  | wake w =>
    simp only [step, Option.ite_none_right_eq_some, Option.some.injEq] at stepped
    obtain ⟨⟨-, -, -, done, -⟩, rfl⟩ := stepped
    exact .wake w done

theorem giveUp_loop (c : Setting S) (now : Rat) (s : Run S) (e : Running S) :
    (giveUp c now s e).loop = takeExpired c s.loop e := by
  simp only [giveUp, takeExpired]
  split <;> rfl

theorem sweep_loop (c : Setting S) (w : Wake) (s : Run S) : (sweep c w s).loop =
    (s.loop.pending.filter w.expires).foldl (takeExpired c) (w.done.foldl (takeDone c) s.loop) :=
  (List.foldl_hom Run.loop fun s e => (giveUp_loop c w.now s e).symm).symm

theorem iteration_sweep (c : Setting S) (w : Wake) (s : Run S) :
    iteration c w s.loop = refill c (sweep c w s).loop := by
  rw [sweep_loop]
  rfl

theorem refill_idle {c : Setting S} {s : Run S} (full : s.hasSlot c = false) :
    refill c s.loop = s.loop := by
  rw [refill]
  cases s.loop.taskQueue.length with
  | zero => rfl
  | succ n => exact if_neg (Bool.eq_false_iff.mp full)

/-- The loop fills its slots one after the other. -/
theorem refill_submit {c : Setting S} {s : Run S} (slot : s.hasSlot c = true) :
    refill c (submitNext c s.loop) = refill c s.loop := by
  obtain ⟨few, more⟩ : s.loop.pending.length < c.maxWorkers ∧ s.loop.taskQueue ≠ [] := by
    simpa [Run.hasSlot] using slot
  obtain ⟨q, rest, queue⟩ := List.exists_cons_of_ne_nil more
  have shorter : (submitNext c s.loop).taskQueue = rest := by simp [submitNext, queue, few]
  have whole : refill c s.loop = fill c (rest.length + 1) s.loop := by rw [refill, queue]; rfl
  rw [whole, refill, shorter]
  exact (if_pos slot).symm

/-- What is left of a step for the loop without its pool. -/
def Event.applied (c : Setting S) (l : Loop S) : Event → Loop S
  | .wake w => iteration c w l
  | _ => l

theorem step_refines {c : Setting S} {s t : Run S} {event : Event}
    (stepped : step c s event = some t) :
    refill c t.loop = event.applied c (refill c s.loop) := by
  cases event with
  | submit =>
    simp only [step, Option.ite_none_right_eq_some, Option.some.injEq] at stepped
    obtain ⟨⟨slot, -⟩, rfl⟩ := stepped
    exact refill_submit slot
  | finish future result now =>
    simp only [step, Option.ite_none_right_eq_some] at stepped
    obtain ⟨pool, -, rfl⟩ := Option.map_eq_some_iff.mp stepped.2
    rfl
  | wake w =>
    simp only [step, Option.ite_none_right_eq_some, Option.some.injEq] at stepped
    obtain ⟨⟨waits, -⟩, rfl⟩ := stepped
    have idle : refill c s.loop = s.loop := refill_idle (by simpa using waits)
    rw [idle]
    exact (iteration_sweep c w s).symm

theorem run_refines {c : Setting S} {s t : Run S} {events : List Event}
    (run : (machine c).exec s events = some t) :
    refill c t.loop = events.foldl (fun l event => event.applied c l) (refill c s.loop) := by
  induction events generalizing s with
  | nil =>
    obtain rfl := Option.some.inj run
    rfl
  | cons event rest ih =>
    obtain ⟨next, stepped, later⟩ := Machine.exec_cons_some.mp run
    rw [ih later, List.foldl_cons, step_refines stepped]

/-- The loop's log of timeouts is what was declared. -/
def Logged (c : Setting S) (s : Run S) : Prop :=
  s.loop.timeoutLog = s.declared.map fun d => timeoutEvent c d.attempt
    (if d.attempt.retries < maxSampleRetries then .retry else .crash)

theorem takeDone_log (c : Setting S) (l : Loop S) (d : Nat × Except String Measured) :
    (takeDone c l d).timeoutLog = l.timeoutLog := by
  obtain ⟨future, result⟩ := d
  unfold takeDone
  split
  · rfl
  · cases result with
    | ok m => rfl
    | error exc =>
      simp only
      split <;> rfl

theorem done_log (c : Setting S) (l : Loop S) (done : List (Nat × Except String Measured)) :
    (done.foldl (takeDone c) l).timeoutLog = l.timeoutLog :=
  List.foldlRecOn (motive := fun m : Loop S => m.timeoutLog = l.timeoutLog) _ _ rfl
    fun m same d _ => (takeDone_log c m d).trans same

theorem giveUp_logged (c : Setting S) (now : Rat) {s : Run S} (e : Running S) (keep : Logged c s) :
    Logged c (giveUp c now s e) := by
  unfold giveUp
  split
  · rename_i still
    simp only [Logged, takeExpired, still, if_true, List.map_append, List.map_singleton] at keep ⊢
    rw [← keep]
    split <;> rfl
  · exact keep

theorem step_logged {c : Setting S} {s t : Run S} {event : Event} (keep : Logged c s)
    (stepped : step c s event = some t) : Logged c t := by
  cases step_steps stepped with
  | submit | finish => exact keep
  | wake w done =>
    refine List.foldlRecOn (motive := Logged c) _ _ ?_ fun m keep e _ => giveUp_logged c w.now e keep
    exact (done_log c s.loop w.done).trans keep

theorem run_logged {c : Setting S} {samples : List S} {events : List Event} {t : Run S}
    (run : (machine c).exec (initial samples) events = some t) : Logged c t :=
  Machine.invariant (Logged c) (fun _ _ _ keep stepped => step_logged keep stepped)
    (show Logged c (initial samples) from rfl) run

/-- Every timeout was declared of an attempt that had been executing for longer, and the clock
of no pending attempt has run while it waited in the pool. -/
structure Timely (s : Run S) : Prop where
  declared : ∀ d ∈ s.declared, ∃ since, d.phase = some (.executing since) ∧
    hardTimeout d.attempt.retries < d.now - since
  clocked : ∀ e ∈ s.loop.pending, (s.pool[e.future]?).bind Phase.began = some e.tSubmit

/-- An attempt is submitted while fewer attempts than `max_workers` are executing, with those
among them that the loop has given up. -/
def FindsThread (c : Setting S) (s : Run S) : Event → Prop
  | .submit => s.pool.busy < c.maxWorkers
  | _ => True

instance (c : Setting S) (s : Run S) (event : Event) : Decidable (FindsThread c s event) :=
  match event with
  | .submit => inferInstanceAs (Decidable (_ < _))
  | .finish .. => isTrue trivial
  | .wake _ => isTrue trivial

structure Prompt (s : Run S) : Prop extends Timely s where
  length : s.pool.length = s.loop.futures
  idle : ∀ phase ∈ s.pool, phase.isWaiting = false

section Steps

variable {c : Setting S} {s t : Run S} {pool : Pool}

theorem initial_prompt (samples : List S) : Prompt (initial samples) where
  declared _ member := nomatch member
  clocked _ member := nomatch member
  length := rfl
  idle _ member := nomatch member

theorem clocked_lt {pool : Pool} {future : Nat} {at_ : Rat}
    (clocked : (pool[future]?).bind Phase.began = some at_) : future < pool.length := by
  obtain ⟨phase, found, -⟩ := Option.bind_eq_some_iff.mp clocked
  exact (List.getElem?_eq_some_iff.mp found).1

theorem submit_prompt {sample : S} {retries : Nat} {rest : List (S × Nat)} {now : Rat}
    (keep : Prompt s) (free : s.pool.busy < c.maxWorkers) : Prompt { s with
      loop := { s.loop with
        taskQueue := rest
        pending := s.loop.pending ++ [⟨s.loop.futures, sample, retries, now⟩]
        futures := s.loop.futures + 1
        submitted := s.loop.submitted ++ [sample] }
      pool := s.pool.submit c.maxWorkers now
      now := now
      waitsFrom := now } := by
  have submitted : s.pool.submit c.maxWorkers now = s.pool ++ [.executing now] := by
    simp [Pool.submit, free]
  refine ⟨⟨keep.declared, fun e member => ?_⟩, ?_, ?_⟩
  · simp only [submitted]
    rcases List.mem_append.mp member with old | new
    · have clocked := keep.clocked e old
      rwa [List.getElem?_append_left (clocked_lt clocked)]
    · rw [List.mem_singleton.mp new, ← keep.length, List.getElem?_concat_length]
      rfl
  · simp [submitted, keep.length]
  · intro phase member
    rcases List.mem_append.mp (submitted ▸ member) with old | new
    · exact keep.idle phase old
    · rw [List.mem_singleton.mp new]
      rfl

/-- An attempt that finds no thread waits, and its clock runs. -/
theorem submit_waits {sample : S} {retries : Nat} {rest : List (S × Nat)} {now : Rat}
    (keep : Prompt s) (full : ¬ s.pool.busy < c.maxWorkers) : ¬ Timely { s with
      loop := { s.loop with
        taskQueue := rest
        pending := s.loop.pending ++ [⟨s.loop.futures, sample, retries, now⟩]
        futures := s.loop.futures + 1
        submitted := s.loop.submitted ++ [sample] }
      pool := s.pool.submit c.maxWorkers now
      now := now
      waitsFrom := now } := by
  intro timely
  have clocked := timely.clocked _ (List.mem_append_right _ List.mem_cons_self)
  simp only [Pool.submit, full, if_false, ← keep.length, List.getElem?_concat_length,
    Option.bind_some, Phase.began] at clocked
  contradiction

theorem Pool.finish_idle {future : Nat} {result : Except String Measured} {now : Rat}
    (idle : ∀ phase ∈ s.pool, phase.isWaiting = false)
    (finished : s.pool.finish future result now = some pool) :
    ∃ since, s.pool[future]? = some (.executing since) ∧
      pool = s.pool.set future (.returned since result) := by
  unfold Pool.finish at finished
  split at finished
  · rename_i since executing
    have none : (s.pool.set future (.returned since result)).findIdx? Phase.isWaiting = none := by
      refine List.findIdx?_eq_none_iff.mpr fun phase member => ?_
      rcases List.mem_or_eq_of_mem_set member with old | rfl
      · exact idle phase old
      · rfl
    simp only [none, Option.some.injEq] at finished
    exact ⟨since, executing, finished.symm⟩
  · contradiction

theorem finish_prompt {future : Nat} {result : Except String Measured} {now : Rat}
    (keep : Prompt s) (finished : s.pool.finish future result now = some pool) :
    Prompt { s with pool := pool, now := now } := by
  obtain ⟨since, executing, rfl⟩ := Pool.finish_idle keep.idle finished
  refine ⟨⟨keep.declared, fun e member => ?_⟩, ?_, fun phase member => ?_⟩
  · have clocked := keep.clocked e member
    by_cases same : future = e.future
    · subst same
      have bound := clocked_lt clocked
      rw [executing] at clocked
      simpa [List.getElem?_set, bound, Phase.began] using clocked
    · simpa [List.getElem?_set, same] using clocked
  · rw [List.length_set]
    exact keep.length
  · rcases List.mem_or_eq_of_mem_set member with old | rfl
    · exact keep.idle phase old
    · rfl

theorem Pool.cancel_idle (idle : ∀ phase ∈ pool, phase.isWaiting = false) (future : Nat) :
    pool.cancel future = pool := by
  unfold Pool.cancel
  split
  · rename_i waiting
    exact absurd (idle _ (List.mem_of_getElem? waiting)) (by decide)
  · rfl

/-- A sweep as far as it has come: the pool is as it was, and what is still pending was pending
and not done. -/
structure Sweeping (w : Wake) (s m : Run S) : Prop where
  pool : m.pool = s.pool
  futures : m.loop.futures = s.loop.futures
  pending : m.loop.pending ⊆ s.loop.pending
  running : ∀ d ∈ w.done, ∀ e ∈ m.loop.pending, e.future ≠ d.1
  declared : ∀ d ∈ m.declared, ∃ since, d.phase = some (.executing since) ∧
    hardTimeout d.attempt.retries < d.now - since

theorem ends_futures {l l' : Loop S} {e : Running S} (ends : Ends c e l l') :
    l'.futures = l.futures := by
  cases ends with
  | requeued => rfl
  | settled ending final entered => exact entered.futures

theorem takeDone_futures (l : Loop S) (d : Nat × Except String Measured) :
    (takeDone c l d).futures = l.futures := by
  rcases takeDone_cases c l d with ⟨same, _⟩ | ⟨e, _, _, ends⟩
  · rw [same]
  · exact ends_futures ends

theorem takeExpired_futures (l : Loop S) (e : Running S) :
    (takeExpired c l e).futures = l.futures := by
  rcases takeExpired_cases c l e with ⟨same, _⟩ | ⟨_, ends⟩
  · rw [same]
  · exact ends_futures ends

/-- A pending attempt that is not done is executing, since its clock began. -/
theorem Timely.executing (timely : Timely s) {e : Running S} (member : e ∈ s.loop.pending)
    (runs : ∀ d ∈ s.done, d.1 ≠ e.future) : s.pool[e.future]? = some (.executing e.tSubmit) := by
  have clocked := timely.clocked e member
  cases found : s.pool[e.future]? with
  | none => simp [found] at clocked
  | some phase =>
    rw [found] at clocked
    cases phase with
    | executing since =>
      obtain rfl : since = e.tSubmit := by simpa [Phase.began] using clocked
      rfl
    | returned since result =>
      have done : (e.future, result) ∈ s.done :=
        List.mem_filterMap.mpr ⟨e, member, by simp [found]⟩
      exact absurd rfl (runs _ done)
    | waiting => simp [Phase.began] at clocked
    | cancelled => simp [Phase.began] at clocked

theorem giveUp_sweeping {w : Wake} {m : Run S} {e : Running S} (keep : Prompt s)
    (done : w.done.Perm s.done) (member : e ∈ s.loop.pending.filter w.expires)
    (swept : Sweeping w s m) : Sweeping w s (giveUp c w.now m e) := by
  unfold giveUp
  split
  · rename_i still
    obtain ⟨other, pending, same⟩ := List.any_eq_true.mp still
    obtain ⟨among, past⟩ := List.mem_filter.mp member
    have runs (d) (isDone : d ∈ s.done) : d.1 ≠ e.future := fun is =>
      swept.running d (done.mem_iff.mpr isDone) other pending ((beq_iff_eq.mp same).trans is.symm)
    have executing := keep.executing among runs
    refine ⟨?_, (takeExpired_futures _ _).trans swept.futures, fun x later => ?_, ?_, ?_⟩
    · simp only [swept.pool]
      exact Pool.cancel_idle keep.idle _
    · exact swept.pending (takeExpired_subset _ later)
    · exact fun d isDone x later => swept.running d isDone x (takeExpired_subset _ later)
    · intro d logged
      rcases List.mem_append.mp logged with old | new
      · exact swept.declared d old
      · rw [List.mem_singleton.mp new]
        exact ⟨e.tSubmit, swept.pool ▸ executing, of_decide_eq_true past⟩
  · exact swept

theorem sweep_prompt {w : Wake} (keep : Prompt s) (done : w.done.Perm s.done) :
    Prompt (sweep c w s) := by
  have begins : Sweeping w s { s with
      loop := w.done.foldl (takeDone c) s.loop, now := w.now, waitsFrom := w.now } := by
    refine ⟨rfl, ?_, done_subset w.done, fun d isDone => done_gone isDone, keep.declared⟩
    exact List.foldlRecOn (motive := fun l : Loop S => l.futures = s.loop.futures) _ _ rfl
      fun l same d _ => (takeDone_futures l d).trans same
  have swept : Sweeping w s (sweep c w s) :=
    List.foldlRecOn (motive := Sweeping w s) _ _ begins
      fun m swept e member => giveUp_sweeping keep done member swept
  refine ⟨⟨swept.declared, fun e member => ?_⟩, ?_, ?_⟩
  · rw [swept.pool]
    exact keep.clocked e (swept.pending member)
  · rw [swept.pool, swept.futures]
    exact keep.length
  · rw [swept.pool]
    exact keep.idle

theorem step_prompt {event : Event} (keep : Prompt s) (stepped : step c s event = some t)
    (finds : FindsThread c s event) : Prompt t := by
  cases step_steps stepped with
  | submit sample retries rest queue => exact submit_prompt keep finds
  | finish future result now pool finished => exact finish_prompt keep finished
  | wake w done => exact sweep_prompt keep done

theorem step_timely_iff {event : Event} (keep : Prompt s) (stepped : step c s event = some t) :
    Timely t ↔ FindsThread c s event := by
  constructor
  · intro timely
    cases step_steps stepped with
    | submit sample retries rest queue =>
      by_contra full
      exact submit_waits keep full timely
    | finish | wake => trivial
  · exact fun finds => (step_prompt keep stepped finds).toTimely

end Steps

theorem busy_le_pending (s : Run S) (kept : ∀ future since,
    s.pool[future]? = some (.executing since) → ∃ e ∈ s.loop.pending, e.future = future) :
    s.pool.busy ≤ s.loop.pending.length := by
  have numbered : s.pool.map some = (List.range s.pool.length).map fun k => s.pool[k]? := by
    apply List.ext_getElem (by simp)
    intro k bound _
    rw [List.length_map] at bound
    simp [bound]
  have counted : s.pool.busy =
      ((List.range s.pool.length).filter fun k => (s.pool[k]?).any Phase.isExecuting).length := by
    calc s.pool.busy = (s.pool.map some).countP (Option.any Phase.isExecuting) := by
          simp [Pool.busy, List.countP_map, Function.comp_def]
      _ = _ := by rw [numbered, List.countP_map, List.countP_eq_length_filter]; rfl
  have within : (List.range s.pool.length).filter (fun k => (s.pool[k]?).any Phase.isExecuting) ⊆
      s.loop.pending.map Running.future := by
    intro k member
    obtain ⟨phase, found, executing⟩ := (Option.any_eq_true _ _).mp (List.mem_filter.mp member).2
    cases phase with
    | executing since =>
      obtain ⟨e, pending, same⟩ := kept k since found
      exact same ▸ List.mem_map_of_mem pending
    | waiting | returned | cancelled => contradiction
  rw [counted, ← List.length_map Running.future]
  exact (List.subperm_of_subset (List.nodup_range.filter _) within).length_le

/-- Only attempts that were given up and go on can take the thread of another. -/
theorem findsThread_of_kept {c : Setting S} {s : Run S} (slot : s.hasSlot c = true)
    (kept : ∀ future since, s.pool[future]? = some (.executing since) →
      ∃ e ∈ s.loop.pending, e.future = future) : FindsThread c s .submit := by
  simp only [Run.hasSlot, Bool.and_eq_true, decide_eq_true_eq] at slot
  exact (busy_le_pending s kept).trans_lt slot.1

/-- Timeouts hit only attempts that run, and only for the time they run, in the runs that
submit every attempt to a free thread. -/
theorem timeouts_timely_iff (c : Setting S) (samples : List S) (events : List Event) :
    (machine c).Along (fun _ _ t => Timely t) (initial samples) events ↔
      (machine c).Along (fun s event _ => FindsThread c s event) (initial samples) events := by
  symm
  exact Machine.along_iff_of_invariant Prompt
    (fun _ _ _ keep stepped finds => step_prompt keep stepped finds)
    (fun _ _ _ keep stepped => (step_timely_iff keep stepped).symm) (initial_prompt samples)

/-- Two samples on one thread, submitted again as soon as their attempts have timed out. -/
def oneWorker : Setting (Fin 2) :=
  setting [⟨"1", "shop", "simple", "SELECT 1"⟩, ⟨"2", "shop", "simple", "SELECT 2"⟩] "rag" 1
    fun future => [0, 121, 422, 903, 1024, 1325].getD future 0

/-- The first attempt never returns. -/
def stuck : List Event :=
  [121, 422, 903, 1024, 1325, 1806].flatMap fun now => [.submit, .wake ⟨[], now⟩]

/-- The second sample times out three times and crashes without ever having been executed. -/
theorem innocent_crashes : ∃ t, (machine oneWorker).exec (initial [0, 1]) stuck = some t ∧
    t.loop.timeoutLog.map (fun event => (event.questionId, event.action)) =
      [("1", .retry), ("1", .retry), ("1", .crash), ("2", .retry), ("2", .retry), ("2", .crash)] ∧
    t.declared.map (fun d => (d.attempt.sample, d.phase)) =
      [(0, some (.executing 0)), (0, some .waiting), (0, some .waiting),
        (1, some .waiting), (1, some .waiting), (1, some .waiting)] := by
  have run : ((machine oneWorker).exec (initial [0, 1]) stuck).map (fun t =>
      (t.loop.timeoutLog.map (fun event => (event.questionId, event.action)),
        t.declared.map fun d => (d.attempt.sample, d.phase))) = some
      ([("1", .retry), ("1", .retry), ("1", .crash), ("2", .retry), ("2", .retry), ("2", .crash)],
        [(0, some (.executing 0)), (0, some .waiting), (0, some .waiting),
          (1, some .waiting), (1, some .waiting), (1, some .waiting)]) := by decide +kernel
  obtain ⟨t, executed, seen⟩ := Option.map_eq_some_iff.mp run
  exact ⟨t, executed, congrArg Prod.fst seen, congrArg Prod.snd seen⟩

/-- In every run the loop over its pool is the loop that meets the wake-ups alone, up to the
slots that are still to be filled, and its log is what was declared. -/
theorem pool_refines (c : Setting S) (samples : List S) {events : List Event} {t : Run S}
    (run : (machine c).exec (initial samples) events = some t) :
    refill c t.loop = events.foldl (fun l event => event.applied c l) (start c samples) ∧
      Logged c t :=
  ⟨run_refines run, run_logged run⟩

theorem pool_refines_stuck : ∃ t, (machine oneWorker).exec (initial [0, 1]) stuck = some t ∧
    refill oneWorker t.loop =
      stuck.foldl (fun l event => event.applied oneWorker l) (start oneWorker [0, 1]) ∧
    Logged oneWorker t := by
  obtain ⟨t, run⟩ := Option.isSome_iff_exists.mp
    (show ((machine oneWorker).exec (initial [0, 1]) stuck).isSome = true by decide +kernel)
  exact ⟨t, run, pool_refines oneWorker [0, 1] run⟩

end HardTimeouts
end Nl2SqlAgent

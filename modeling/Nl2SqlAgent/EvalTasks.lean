import Nl2SqlAgent.EvalThread

/-! The evaluation tasks of one process: `start_eval_task` and `cancel_task` from concurrent
requests, and the threads that they start. A task is in `_active_tasks` from its registration
until its thread has ended, under its number. -/
namespace Nl2SqlAgent

open Lib

namespace EvalTasks

open EvalThread (Thread)

structure Task where
  thread : Thread
  started : Bool := false
  deriving DecidableEq, Repr

/-- A request in `start_eval_task`: `is_task_running` has taken its list of the active tasks,
has found one running or none, or the new task is registered. -/
inductive Start
  | checking (seen : List Nat)
  | running
  | clear
  | registered (task : Nat)
  | answered
  | raised
  deriving DecidableEq, Repr

/-- `answers` are the existing tasks that starts were answered with, as they were then, which
the code does not keep. -/
structure State where
  starts : List Start := []
  tasks : List Task := []
  answers : List (Nat × Thread) := []
  deriving DecidableEq, Repr

/-- `load` raises where the gold file or the store does. -/
inductive Event
  | arrive
  | check (request : Nat)
  | find (request : Nat)
  | load (request : Nat)
  | register (request : Nat) (names : List String) (nCases : Nat)
  | launch (request : Nat)
  | cancel (task : Nat)
  | move (task : Nat) (event : EvalThread.Event)
  deriving DecidableEq, Repr

/-- The keys of `_active_tasks`, in their order. -/
def State.active (s : State) : List Nat :=
  (List.range s.tasks.length).filter fun i => s.tasks[i]?.any fun task => task.thread.pc ≠ .ended

def State.unset (s : State) (i : Nat) : Bool := s.tasks[i]?.any fun task => !task.thread.cancelled

def step (s : State) : Event → Option State
  | .arrive => some { s with starts := s.starts ++ [.checking s.active] }
  | .check r =>
    match s.starts[r]? with
    | some (.checking seen) =>
      some { s with starts := s.starts.set r (if seen.any s.unset then .running else .clear) }
    | _ => none
  | .find r =>
    match s.starts[r]? with
    | some .running =>
      match s.active.find? s.unset with
      | some i => s.tasks[i]?.map fun task =>
        { s with starts := s.starts.set r .answered, answers := s.answers ++ [(i, task.thread)] }
      | none => some { s with starts := s.starts.set r .raised }
    | _ => none
  | .load r =>
    match s.starts[r]? with
    | some .clear => some { s with starts := s.starts.set r .raised }
    | _ => none
  | .register r names nCases =>
    match s.starts[r]? with
    | some .clear =>
      some { s with
        starts := s.starts.set r (.registered s.tasks.length)
        tasks := s.tasks ++ [{ thread := EvalThread.created names nCases }] }
    | _ => none
  | .launch r =>
    match s.starts[r]? with
    | some (.registered i) => s.tasks[i]?.map fun task =>
      { s with
        starts := s.starts.set r .answered
        tasks := s.tasks.set i { task with started := true } }
    | _ => none
  | .cancel i =>
    s.tasks[i]?.bind fun task => (EvalThread.step task.thread .cancel).map fun thread =>
      { s with tasks := s.tasks.set i { task with thread := thread } }
  | .move i event =>
    s.tasks[i]?.bind fun task =>
      if task.started ∧ event ≠ .cancel then
        (EvalThread.step task.thread event).map fun thread =>
          { s with tasks := s.tasks.set i { task with thread := thread } }
      else none

def machine : Machine State Event := ⟨step⟩

/-- The thread has stored a last status, if any, and will run no sample. -/
def Over (t : Thread) : Prop := t.pc = .finished ∨ t.pc = .ended

instance (t : Thread) : Decidable (Over t) := inferInstanceAs (Decidable (_ ∨ _))

/-- At most one thread has a pool open, and whoever was answered with an existing task was
answered with one that was running and not cancelled. -/
structure OneAtATime (s : State) : Prop where
  exclusive : ∀ (i j : Nat) (a b : Task), s.tasks[i]? = some a → s.tasks[j]? = some b →
    a.thread.sampling = true → b.thread.sampling = true → i = j
  answers : ∀ answer ∈ s.answers, ¬ Over answer.2 ∧ answer.2.cancelled = false

/-- No start finds nothing running while another is on its way to its registration or the
thread of some task is not over, and none looks for the running task while one that is over
and was not cancelled is still registered. -/
def Alone (s : State) : Event → Prop
  | .check r => ∀ seen, s.starts[r]? = some (.checking seen) → seen.any s.unset = false →
      Start.clear ∉ s.starts ∧ ∀ task ∈ s.tasks, Over task.thread
  | .find _ => ∀ task ∈ s.tasks, task.thread.pc = .finished → task.thread.cancelled = true
  | _ => True

/-- What a step does. -/
inductive Steps (s : State) : Event → State → Prop
  | starts (event : Event) (r : Nat) (start : Start) (other : start ≠ .clear) :
      Steps s event { s with starts := s.starts.set r start }
  | arrive : Steps s .arrive { s with starts := s.starts ++ [.checking s.active] }
  | clear (r : Nat) (seen : List Nat) (checking : s.starts[r]? = some (.checking seen))
      (none : seen.any s.unset = false) :
      Steps s (.check r) { s with starts := s.starts.set r .clear }
  | find (r i : Nat) (task : Task) (at_ : s.tasks[i]? = some task)
      (running : task.thread.pc ≠ .ended) (kept : task.thread.cancelled = false) :
      Steps s (.find r) { s with
        starts := s.starts.set r .answered, answers := s.answers ++ [(i, task.thread)] }
  | register (r : Nat) (names : List String) (nCases : Nat) (clear : s.starts[r]? = some .clear) :
      Steps s (.register r names nCases) { s with
        starts := s.starts.set r (.registered s.tasks.length)
        tasks := s.tasks ++ [{ thread := EvalThread.created names nCases }] }
  | launch (r i : Nat) (task : Task) (at_ : s.tasks[i]? = some task) :
      Steps s (.launch r) { s with
        starts := s.starts.set r .answered
        tasks := s.tasks.set i { task with started := true } }
  | thread (event : Event) (i : Nat) (task : Task) (move : EvalThread.Event) (thread : Thread)
      (at_ : s.tasks[i]? = some task) (stepped : EvalThread.step task.thread move = some thread) :
      Steps s event { s with tasks := s.tasks.set i { task with thread := thread } }

theorem step_steps {s t : State} {event : Event} (stepped : step s event = some t) :
    Steps s event t := by
  cases event with
  | arrive =>
    obtain rfl := Option.some.inj stepped
    exact .arrive
  | check r =>
    simp only [step] at stepped
    split at stepped
    · rename_i seen checking
      obtain rfl := Option.some.inj stepped
      cases found : seen.any s.unset with
      | true => exact .starts _ r .running nofun
      | false => exact .clear r seen checking found
    · contradiction
  | find r =>
    simp only [step] at stepped
    split at stepped
    · split at stepped
      · rename_i i found
        obtain ⟨task, at_, rfl⟩ := Option.map_eq_some_iff.mp stepped
        have active := (List.mem_filter.mp (List.mem_of_find?_eq_some found)).2
        have unset := List.find?_some found
        simp only [State.unset, at_, Option.any_some, Bool.not_eq_true'] at unset
        simp only [at_, Option.any_some, decide_eq_true_eq] at active
        exact .find r i task at_ active unset
      · obtain rfl := Option.some.inj stepped
        exact .starts _ r .raised nofun
    · contradiction
  | load r =>
    simp only [step] at stepped
    split at stepped
    · obtain rfl := Option.some.inj stepped
      exact .starts _ r .raised nofun
    · contradiction
  | register r names nCases =>
    simp only [step] at stepped
    split at stepped
    · rename_i clear
      obtain rfl := Option.some.inj stepped
      exact .register r names nCases clear
    · contradiction
  | launch r =>
    simp only [step] at stepped
    split at stepped
    · rename_i i registered
      obtain ⟨task, at_, rfl⟩ := Option.map_eq_some_iff.mp stepped
      exact .launch r i task at_
    · contradiction
  | cancel i =>
    obtain ⟨task, at_, later⟩ := Option.bind_eq_some_iff.mp stepped
    obtain ⟨thread, moved, rfl⟩ := Option.map_eq_some_iff.mp later
    exact .thread _ i task .cancel thread at_ moved
  | move i event =>
    obtain ⟨task, at_, later⟩ := Option.bind_eq_some_iff.mp stepped
    obtain ⟨-, taken⟩ := Option.ite_none_right_eq_some.mp later
    obtain ⟨thread, moved, rfl⟩ := Option.map_eq_some_iff.mp taken
    exact .thread _ i task event thread at_ moved

/-- One start or task at most has still to run samples. -/
structure Keeps (s : State) : Prop where
  starts : ∀ r r' : Nat, s.starts[r]? = some Start.clear → s.starts[r']? = some Start.clear → r = r'
  idle : ∀ r : Nat, s.starts[r]? = some Start.clear → ∀ task ∈ s.tasks, Over task.thread
  tasks : ∀ (i j : Nat) (a b : Task), s.tasks[i]? = some a → s.tasks[j]? = some b → ¬ Over a.thread →
    ¬ Over b.thread → i = j
  answers : ∀ answer ∈ s.answers, ¬ Over answer.2 ∧ answer.2.cancelled = false

theorem sampling_not_over {t : Thread} (sampling : t.sampling = true) : ¬ Over t := by
  rintro (at_ | at_) <;> simp [EvalThread.Thread.sampling, at_] at sampling

theorem Keeps.oneAtATime {s : State} (keep : Keeps s) : OneAtATime s where
  exclusive i j a b first second samplesA samplesB :=
    keep.tasks i j a b first second (sampling_not_over samplesA) (sampling_not_over samplesB)
  answers := keep.answers

theorem over_step {t u : Thread} {event : EvalThread.Event} (past : Over t)
    (stepped : EvalThread.step t event = some u) : Over u := by
  cases EvalThread.step_steps stepped with
  | lost | stop | drain | drainFailed | complete | fail => exact .inl rfl
  | retire => exact .inr rfl
  | cancel => exact past
  | begin at_ | enter at_ | through at_ | submit k at_ | submitted k at_ | leave sample left at_
  | raised left at_ | count ex left at_ | close at_ =>
    rcases past with done | done <;> rw [at_] at done <;> contradiction
  | failInside at_ =>
    rcases at_ with ⟨k, at_⟩ | ⟨k, at_⟩ <;> rcases past with done | done <;>
      rw [at_] at done <;> contradiction

theorem set_clear {starts : List Start} {r i : Nat} {start : Start} (other : start ≠ .clear)
    (clear : (starts.set r start)[i]? = some .clear) : i ≠ r ∧ starts[i]? = some .clear := by
  rw [List.getElem?_set] at clear
  split at clear
  · split at clear
    · exact absurd (Option.some.inj clear) other
    · contradiction
  · rename_i different
    exact ⟨Ne.symm different, clear⟩

section Preserved

variable {s t : State} {event : Event}

theorem initial_keeps : Keeps {} where
  starts _ _ first := nomatch first
  idle _ first := nomatch first
  tasks _ _ _ _ first := nomatch first
  answers _ member := nomatch member

/-- A start goes on to anything but a registration. -/
theorem Keeps.starts_set (keep : Keeps s) (r : Nat) (start : Start) (other : start ≠ .clear) :
    Keeps { s with starts := s.starts.set r start } where
  starts i j first second :=
    keep.starts i j (set_clear other first).2 (set_clear other second).2
  idle i clear := keep.idle i (set_clear other clear).2
  tasks := keep.tasks
  answers := keep.answers

theorem Keeps.tasks_set (keep : Keeps s) {i : Nat} {task next : Task}
    (at_ : s.tasks[i]? = some task) (past : Over task.thread → Over next.thread) :
    Keeps { s with tasks := s.tasks.set i next } := by
  have was (j : Nat) (x : Task) (found : (s.tasks.set i next)[j]? = some x) :
      ∃ y : Task, s.tasks[j]? = some y ∧ (Over y.thread → Over x.thread) := by
    rw [List.getElem?_set] at found
    split at found
    · rename_i same
      split at found
      · obtain rfl := Option.some.inj found
        exact ⟨task, same ▸ at_, past⟩
      · contradiction
    · exact ⟨x, found, id⟩
  refine ⟨keep.starts, fun r clear x member => ?_, fun j k a b first second runsA runsB => ?_,
    keep.answers⟩
  · obtain ⟨j, found⟩ := List.mem_iff_getElem?.mp member
    obtain ⟨y, before, still⟩ := was j x found
    exact still (keep.idle r clear y (List.mem_of_getElem? before))
  · obtain ⟨y, beforeA, stillA⟩ := was j a first
    obtain ⟨z, beforeB, stillB⟩ := was k b second
    exact keep.tasks j k y z beforeA beforeB (mt stillA runsA) (mt stillB runsB)

theorem Keeps.clear (keep : Keeps s) {r : Nat} (free : Start.clear ∉ s.starts)
    (past : ∀ task ∈ s.tasks, Over task.thread) :
    Keeps { s with starts := s.starts.set r .clear } := by
  have only (i : Nat) (clear : (s.starts.set r .clear)[i]? = some .clear) : i = r := by
    rw [List.getElem?_set] at clear
    split at clear
    · rename_i same
      exact same.symm
    · exact absurd (List.mem_of_getElem? clear) free
  exact ⟨fun i j first second => (only i first).trans (only j second).symm, fun _ _ => past,
    keep.tasks, keep.answers⟩

theorem Keeps.register (keep : Keeps s) {r : Nat} (clear : s.starts[r]? = some .clear)
    (names : List String) (nCases : Nat) : Keeps { s with
      starts := s.starts.set r (.registered s.tasks.length)
      tasks := s.tasks ++ [{ thread := EvalThread.created names nCases }] } := by
  have none (i : Nat)
      (others : (s.starts.set r (.registered s.tasks.length))[i]? = some .clear) : False := by
    have other : Start.registered s.tasks.length ≠ .clear := nofun
    obtain ⟨different, before⟩ := set_clear other others
    exact different (keep.starts i r before clear)
  -- All other tasks are over, so the new one is the only one that is not.
  have last (i : Nat) (x : Task)
      (found : (s.tasks ++ [({ thread := EvalThread.created names nCases } : Task)])[i]? = some x)
      (runs : ¬ Over x.thread) : i = s.tasks.length := by
    rcases Nat.lt_or_ge i s.tasks.length with before | behind
    · rw [List.getElem?_append_left before] at found
      exact absurd (keep.idle r clear x (List.mem_of_getElem? found)) runs
    · have bound := (List.getElem?_eq_some_iff.mp found).1
      simp only [List.length_append, List.length_singleton] at bound
      omega
  exact ⟨fun i _ first _ => (none i first).elim, fun i first => (none i first).elim,
    fun i j a b first second runsA runsB => (last i a first runsA).trans (last j b second runsB).symm,
    keep.answers⟩

theorem step_keeps (keep : Keeps s) (stepped : step s event = some t) (alone : Alone s event) :
    Keeps t := by
  cases step_steps stepped with
  | starts event r start other => exact keep.starts_set r start other
  | arrive =>
    have before (i : Nat) (clear : (s.starts ++ [.checking s.active])[i]? = some Start.clear) :
        s.starts[i]? = some .clear := by
      rcases Nat.lt_or_ge i s.starts.length with old | new
      · rwa [List.getElem?_append_left old] at clear
      · have last := List.mem_of_getElem? (List.getElem?_append_right new ▸ clear)
        exact absurd (List.mem_singleton.mp last) nofun
    exact ⟨fun i j first second => keep.starts i j (before i first) (before j second),
      fun i clear => keep.idle i (before i clear), keep.tasks, keep.answers⟩
  | clear r seen checking none =>
    obtain ⟨free, past⟩ := alone seen checking none
    exact keep.clear free past
  | find r i task at_ running kept =>
    have next := keep.starts_set r .answered nofun
    refine ⟨next.starts, next.idle, next.tasks, fun answer member => ?_⟩
    rcases List.mem_append.mp member with old | new
    · exact keep.answers answer old
    · rw [List.mem_singleton.mp new]
      refine ⟨?_, kept⟩
      rintro (done | done)
      · have cancelled := alone task (List.mem_of_getElem? at_) done
        rw [kept] at cancelled
        contradiction
      · exact running done
  | register r names nCases clear => exact keep.register clear names nCases
  | launch r i task at_ =>
    have started : Keeps { s with tasks := s.tasks.set i { task with started := true } } :=
      keep.tasks_set at_ id
    exact started.starts_set r .answered nofun
  | thread event i task move thread at_ moved =>
    exact keep.tasks_set at_ fun past => over_step past moved

end Preserved

/-- In every run whose starts go alone, at most one thread executes samples, and whoever is
answered with an existing task is answered with one that is running. -/
theorem one_at_a_time {events : List Event} {t : State}
    (alone : machine.Along (fun s event _ => Alone s event) {} events)
    (run : machine.exec {} events = some t) : OneAtATime t :=
  (Machine.invariant_along Keeps (fun _ _ _ keep stepped alone => step_keeps keep stepped alone)
    initial_keeps alone run).oneAtATime

instance (s : State) (event : Event) : Decidable (Alone s event) :=
  match event with
  | .check r =>
    match checking : s.starts[r]? with
    | some (.checking seen) =>
      decidable_of_iff (seen.any s.unset = false →
          Start.clear ∉ s.starts ∧ ∀ task ∈ s.tasks, Over task.thread)
        ⟨fun holds other same none => by
          obtain rfl := Start.checking.inj (Option.some.inj (checking.symm.trans same))
          exact holds none, fun all none => all seen checking none⟩
    | some .running | some .clear | some (.registered _) | some .answered | some .raised | none =>
      isTrue fun other same => by simp [checking] at same
  | .find _ => inferInstanceAs (Decidable (∀ task ∈ s.tasks, _))
  | .arrive | .load _ | .register .. | .launch _ | .cancel _ | .move .. => isTrue trivial

/-- A first start evaluates one sample while a second is answered with its task. -/
def alone : List Event :=
  [.arrive, .check 0, .register 0 ["R0_Baseline"] 1, .launch 0, .move 0 .begin, .move 0 .poll,
    .move 0 .submit, .arrive, .check 1, .find 1, .move 0 .submit, .move 0 (.take (some true))]

theorem one_at_a_time_alone : ∃ t, machine.exec {} alone = some t ∧
    t.tasks.any (fun task => task.thread.sampling) = true ∧ OneAtATime t := by
  have runs : (machine.exec {} alone).any (fun t =>
      t.tasks.any fun task => task.thread.sampling) = true := by decide
  obtain ⟨t, run, samples⟩ := (Option.any_eq_true _ _).mp runs
  exact ⟨t, run, samples, one_at_a_time (by decide) run⟩

/-- A start that comes while the pool of a cancelled task drains, two starts that have both
found nothing running, and one that is answered with a task that is completed. -/
theorem two_at_a_time :
    (machine.exec {} [.arrive, .check 0, .register 0 ["R0_Baseline"] 2, .launch 0, .move 0 .begin,
        .move 0 .poll, .move 0 .submit, .cancel 0, .arrive, .check 1, .register 1 ["R0_Baseline"] 1,
        .launch 1, .move 1 .begin, .move 1 .poll, .move 1 .submit]).any (fun t =>
      t.tasks.all fun task => task.thread.sampling) = true ∧
    (machine.exec {} [.arrive, .arrive, .check 0, .check 1, .register 0 ["R0_Baseline"] 1,
        .register 1 ["R0_Baseline"] 1, .launch 0, .launch 1, .move 0 .begin, .move 0 .poll,
        .move 1 .begin, .move 1 .poll]).any (fun t =>
      t.tasks.all fun task => task.thread.sampling) = true ∧
    (machine.exec {} [.arrive, .check 0, .register 0 ["R0_Baseline"] 0, .launch 0, .move 0 .begin,
        .move 0 .poll, .move 0 .submit, .move 0 .close, .move 0 .poll, .move 0 .complete, .arrive,
        .check 1, .find 1]).any (fun t =>
      t.answers.any fun answer => answer.2.stored.status = .completed) = true := by
  decide

end EvalTasks
end Nl2SqlAgent

import Nl2SqlAgent.Lib.Machine
import Nl2SqlAgent.Lib.PyDict

/-! `_run_eval_thread` of the evaluation task manager: the configurations one after another,
the samples of each through a pool, the cancel event between them, and the task's record. -/
namespace Nl2SqlAgent

open Lib

namespace EvalThread

inductive Status
  | pending
  | running
  | completed
  | failed
  | cancelled
  deriving DecidableEq, Repr

structure ConfigEntry where
  name : String
  total : Nat
  completed : Nat := 0
  passed : Nat := 0
  deriving DecidableEq, Repr

/-- What is stored of a task, up to its times and texts. -/
structure Progress where
  status : Status := .pending
  configs : List ConfigEntry
  currentConfig : String := ""
  currentSample : Nat := 0
  totalConfigs : Nat
  totalSamples : Nat
  overallCompleted : Nat := 0
  overallPassed : Nat := 0
  deriving DecidableEq, Repr

/-- Where the thread is: before a configuration, in its pool with so many samples submitted
or so many futures to come, on its way out of the pool, or behind the last configuration. -/
inductive Pc
  | start
  | top
  | submitting (submitted : Nat)
  | taking (left : Nat)
  | draining (raised : Bool)
  | report
  | finished
  | ended
  deriving DecidableEq, Repr

/-- The thread's variables, its cancel event and the stored task. -/
structure Thread where
  names : List String
  nCases : Nat
  pc : Pc := .start
  cfgIdx : Nat := 0
  completed : Nat := 0
  passed : Nat := 0
  allResults : PyDict String Nat := []
  cancelled : Bool := false
  stored : Progress
  deriving DecidableEq, Repr

/-- As `start_eval_task` leaves it. -/
def created (names : List String) (nCases : Nat) : Thread where
  names := names
  nCases := nCases
  stored := {
    configs := names.map fun name => { name := name, total := nCases }
    totalConfigs := names.length
    totalSamples := nCases * names.length }

/-- `sample` is what a future comes to: whether the sample passes, or an exception. -/
inductive Event
  | begin
  | lost
  | poll
  | submit
  | take (sample : Option Bool)
  | close
  | drain
  | complete
  | fail
  | retire
  | cancel
  deriving DecidableEq, Repr

def Thread.cfgName (t : Thread) : String := t.names.getD t.cfgIdx ""

def Thread.store (t : Thread) (status : Status) : Progress := { t.stored with status := status }

def updateProgress (t : Thread) : Progress :=
  { t.stored with
    currentConfig := t.cfgName
    currentSample := t.completed
    overallCompleted := t.cfgIdx * t.nCases + t.completed
    overallPassed := ((t.stored.configs.take t.cfgIdx).map ConfigEntry.passed).sum + t.passed
    configs := t.stored.configs.modify t.cfgIdx fun e =>
      { e with completed := t.completed, passed := t.passed } }

/-- A sample's result goes into the counts and the record. -/
def count (t : Thread) (left : Nat) (ex : Bool) : Thread :=
  let t := { t with
    pc := .taking left, completed := t.completed + 1, passed := t.passed + ex.toNat }
  { t with stored := updateProgress t }

def step (t : Thread) : Event → Option Thread
  | .begin =>
    match t.pc with
    | .start => some { t with pc := .top, stored := t.store .running }
    | _ => none
  | .lost =>
    match t.pc with
    | .start => some { t with pc := .finished }
    | _ => none
  | .poll =>
    match t.pc with
    | .top =>
      if t.cfgIdx < t.names.length then
        if t.cancelled then some { t with pc := .finished, stored := t.store .cancelled }
        else some { t with pc := .submitting 0, completed := 0, passed := 0 }
      else some { t with pc := .report }
    | _ => none
  | .submit =>
    match t.pc with
    | .submitting k =>
      if k < t.nCases && !t.cancelled then some { t with pc := .submitting (k + 1) }
      else some { t with pc := .taking k }
    | _ => none
  | .take sample =>
    match t.pc with
    | .taking (left + 1) =>
      if t.cancelled then some { t with pc := .draining false, stored := t.store .cancelled }
      else
        match sample with
        | none => some { t with pc := .draining true }
        | some ex => some (count t left ex)
    | _ => none
  | .close =>
    match t.pc with
    | .taking 0 =>
      some { t with
        pc := .top
        cfgIdx := t.cfgIdx + 1
        allResults := t.allResults.set t.cfgName t.passed }
    | _ => none
  | .drain =>
    match t.pc with
    | .draining false => some { t with pc := .finished }
    | .draining true => some { t with pc := .finished, stored := t.store .failed }
    | _ => none
  | .complete =>
    match t.pc with
    | .report =>
      some { t with
        pc := .finished
        stored := { t.store .completed with overallPassed := (t.allResults.map Prod.snd).sum } }
    | _ => none
  | .fail =>
    match t.pc with
    | .start | .top | .report => some { t with pc := .finished, stored := t.store .failed }
    | .submitting _ | .taking _ => some { t with pc := .draining true }
    | _ => none
  | .retire =>
    match t.pc with
    | .finished => some { t with pc := .ended }
    | _ => none
  | .cancel =>
    match t.pc with
    | .ended => none
    | _ => some { t with cancelled := true }

def machine : Machine Thread Event := ⟨step⟩

/-- The pool of a configuration is open. -/
def Thread.sampling (t : Thread) : Bool :=
  match t.pc with
  | .submitting _ | .taking _ | .draining _ => true
  | _ => false

/-- What a step does. -/
inductive Steps (t : Thread) : Event → Thread → Prop
  | begin (at_ : t.pc = .start) : Steps t .begin { t with pc := .top, stored := t.store .running }
  | lost (at_ : t.pc = .start) : Steps t .lost { t with pc := .finished }
  | stop (at_ : t.pc = .top) (more : t.cfgIdx < t.names.length) (cancelled : t.cancelled = true) :
      Steps t .poll { t with pc := .finished, stored := t.store .cancelled }
  | enter (at_ : t.pc = .top) (more : t.cfgIdx < t.names.length) (kept : t.cancelled = false) :
      Steps t .poll { t with pc := .submitting 0, completed := 0, passed := 0 }
  | through (at_ : t.pc = .top) (none : ¬ t.cfgIdx < t.names.length) :
      Steps t .poll { t with pc := .report }
  | submit (k : Nat) (at_ : t.pc = .submitting k) (more : k < t.nCases)
      (kept : t.cancelled = false) : Steps t .submit { t with pc := .submitting (k + 1) }
  | submitted (k : Nat) (at_ : t.pc = .submitting k) (all : t.cancelled = false → t.nCases ≤ k) :
      Steps t .submit { t with pc := .taking k }
  | leave (sample : Option Bool) (left : Nat) (at_ : t.pc = .taking (left + 1))
      (cancelled : t.cancelled = true) :
      Steps t (.take sample) { t with pc := .draining false, stored := t.store .cancelled }
  | raised (left : Nat) (at_ : t.pc = .taking (left + 1)) :
      Steps t (.take none) { t with pc := .draining true }
  | count (ex : Bool) (left : Nat) (at_ : t.pc = .taking (left + 1)) (kept : t.cancelled = false) :
      Steps t (.take (some ex)) (count t left ex)
  | close (at_ : t.pc = .taking 0) :
      Steps t .close { t with
        pc := .top
        cfgIdx := t.cfgIdx + 1
        allResults := t.allResults.set t.cfgName t.passed }
  | drain (at_ : t.pc = .draining false) : Steps t .drain { t with pc := .finished }
  | drainFailed (at_ : t.pc = .draining true) :
      Steps t .drain { t with pc := .finished, stored := t.store .failed }
  | complete (at_ : t.pc = .report) :
      Steps t .complete { t with
        pc := .finished
        stored := { t.store .completed with overallPassed := (t.allResults.map Prod.snd).sum } }
  | fail (at_ : t.pc = .start ∨ t.pc = .top ∨ t.pc = .report) :
      Steps t .fail { t with pc := .finished, stored := t.store .failed }
  | failInside (at_ : (∃ k, t.pc = .submitting k) ∨ ∃ k, t.pc = .taking k) :
      Steps t .fail { t with pc := .draining true }
  | retire (at_ : t.pc = .finished) : Steps t .retire { t with pc := .ended }
  | cancel (at_ : t.pc ≠ .ended) : Steps t .cancel { t with cancelled := true }

theorem step_steps {t u : Thread} {event : Event} (stepped : step t event = some u) :
    Steps t event u := by
  cases event with
  | begin | lost | retire | complete | close =>
    simp only [step] at stepped
    split at stepped
    · rename_i at_
      obtain rfl := Option.some.inj stepped
      constructor
      exact at_
    · contradiction
  | poll =>
    simp only [step] at stepped
    split at stepped
    · rename_i at_
      split at stepped
      · rename_i more
        split at stepped
        · rename_i cancelled
          obtain rfl := Option.some.inj stepped
          exact .stop at_ more cancelled
        · rename_i kept
          obtain rfl := Option.some.inj stepped
          exact .enter at_ more (Bool.eq_false_iff.mpr kept)
      · rename_i none
        obtain rfl := Option.some.inj stepped
        exact .through at_ none
    · contradiction
  | submit =>
    simp only [step] at stepped
    split at stepped
    · rename_i k at_
      split at stepped
      · rename_i more
        obtain rfl := Option.some.inj stepped
        simp only [Bool.and_eq_true, decide_eq_true_eq, Bool.not_eq_true'] at more
        exact .submit k at_ more.1 more.2
      · rename_i none
        obtain rfl := Option.some.inj stepped
        simp only [Bool.and_eq_true, decide_eq_true_eq, Bool.not_eq_true'] at none
        exact .submitted k at_ fun kept => not_lt.mp fun more => none ⟨more, kept⟩
    · contradiction
  | take sample =>
    simp only [step] at stepped
    split at stepped
    · rename_i left at_
      split at stepped
      · rename_i cancelled
        obtain rfl := Option.some.inj stepped
        exact .leave sample left at_ cancelled
      · rename_i kept
        cases sample with
        | none =>
          obtain rfl := Option.some.inj stepped
          exact .raised left at_
        | some ex =>
          obtain rfl := Option.some.inj stepped
          exact .count ex left at_ (Bool.eq_false_iff.mpr kept)
    · contradiction
  | drain =>
    simp only [step] at stepped
    split at stepped
    · rename_i at_
      obtain rfl := Option.some.inj stepped
      exact .drain at_
    · rename_i at_
      obtain rfl := Option.some.inj stepped
      exact .drainFailed at_
    · contradiction
  | fail =>
    simp only [step] at stepped
    split at stepped
    · rename_i at_
      obtain rfl := Option.some.inj stepped
      exact .fail (.inl at_)
    · rename_i at_
      obtain rfl := Option.some.inj stepped
      exact .fail (.inr (.inl at_))
    · rename_i at_
      obtain rfl := Option.some.inj stepped
      exact .fail (.inr (.inr at_))
    · rename_i k at_
      obtain rfl := Option.some.inj stepped
      exact .failInside (.inl ⟨k, at_⟩)
    · rename_i k at_
      obtain rfl := Option.some.inj stepped
      exact .failInside (.inr ⟨k, at_⟩)
    · contradiction
  | cancel =>
    simp only [step] at stepped
    split at stepped
    · contradiction
    · rename_i at_
      obtain rfl := Option.some.inj stepped
      exact .cancel at_

/-- A task that is stored as completed has every sample counted, and no cancellation. -/
structure Complete (t : Thread) : Prop where
  overall : t.stored.status = .completed → t.stored.overallCompleted = t.stored.totalSamples
  configs : t.stored.status = .completed → ∀ e ∈ t.stored.configs, e.completed = e.total
  passed : t.stored.status = .completed →
    t.stored.overallPassed = (t.stored.configs.map ConfigEntry.passed).sum
  kept : t.stored.status = .completed → t.cancelled = false

/-- The thread will see the cancel event before it could store the task as completed. -/
def Listens (t : Thread) : Prop :=
  match t.pc with
  | .start | .top => t.cfgIdx < t.names.length
  | .submitting k | .taking k => 0 < k ∨ t.cfgIdx + 1 < t.names.length
  | .draining _ => True
  | .report => False
  | .finished => t.stored.status ≠ .completed
  | .ended => True

/-- A cancellation comes while the thread listens, and no configuration has the name of an
earlier one of which a sample has passed. -/
def Sound (t : Thread) : Event → Prop
  | .cancel => Listens t
  | .close => ∀ passed, t.allResults.lookup t.cfgName = some passed → passed = 0
  | _ => True

instance (t : Thread) : Decidable (Listens t) := by
  unfold Listens
  split <;> infer_instance

instance (t : Thread) (event : Event) : Decidable (Sound t event) :=
  match event with
  | .cancel => inferInstanceAs (Decidable (Listens t))
  | .close =>
    match found : t.allResults.lookup t.cfgName with
    | none => isTrue fun passed other => by simp [found] at other
    | some passed =>
      decidable_of_iff (passed = 0) ⟨fun zero other same => by
        rw [found] at same
        exact Option.some.inj same ▸ zero, fun all => all passed found⟩
  | .begin | .lost | .poll | .submit | .take _ | .drain | .complete | .fail | .retire => isTrue trivial

/-- What the record says of a thread that was not cancelled. -/
def At (t : Thread) (before after : List ConfigEntry) : Prop :=
  match t.pc with
  | .start | .top | .report => t.stored.configs = before ++ after ∧
      t.stored.overallCompleted = t.cfgIdx * t.nCases
  | .submitting k => k ≤ t.nCases ∧ t.completed = 0 ∧ t.passed = 0 ∧
      t.stored.overallCompleted = t.cfgIdx * t.nCases ∧
      ∃ name total, t.stored.configs = before ++ ⟨name, total, 0, 0⟩ :: after
  | .taking left => t.completed + left = t.nCases ∧
      t.stored.overallCompleted = t.cfgIdx * t.nCases + t.completed ∧
      ∃ name total, t.stored.configs = before ++ ⟨name, total, t.completed, t.passed⟩ :: after
  | _ => True

/-- The configurations behind the thread are counted in full, those ahead not at all. -/
def Counted (t : Thread) : Prop := ∃ before after : List ConfigEntry,
  before.length = t.cfgIdx ∧ (∀ e ∈ before, e.completed = t.nCases) ∧
  (before.map ConfigEntry.passed).sum = (t.allResults.map Prod.snd).sum ∧
  (∀ e ∈ after, e.completed = 0 ∧ e.passed = 0) ∧ At t before after

/-- The thread is at a configuration where it needs one, and has not completed the task. -/
def Located (t : Thread) : Prop :=
  match t.pc with
  | .start | .top => t.cfgIdx ≤ t.names.length ∧ t.stored.status ≠ .completed
  | .submitting _ | .taking _ | .draining _ =>
    t.cfgIdx < t.names.length ∧ t.stored.status ≠ .completed
  | .report => t.cfgIdx = t.names.length ∧ t.stored.status ≠ .completed
  | .finished | .ended => True

/-- The record has the task's configurations and totals. -/
structure Shaped (t : Thread) : Prop where
  total : t.stored.totalSamples = t.nCases * t.names.length
  totals : ∀ e ∈ t.stored.configs, e.total = t.nCases
  length : t.stored.configs.length = t.names.length
  located : Located t

structure Keeps (t : Thread) : Prop extends Shaped t, Complete t where
  counted : t.cancelled = false → Counted t
  heard : t.cancelled = true → Listens t

section Steps

variable {t u : Thread} {event : Event}

theorem created_keeps (names : List String) (nCases : Nat) : Keeps (created names nCases) := by
  have entries (e) (member : e ∈ (created names nCases).stored.configs) :
      e.total = nCases ∧ e.completed = 0 ∧ e.passed = 0 := by
    obtain ⟨name, -, rfl⟩ := List.mem_map.mp member
    exact ⟨rfl, rfl, rfl⟩
  exact {
    total := rfl
    totals := fun e member => (entries e member).1
    length := List.length_map _
    located := ⟨Nat.zero_le _, nofun⟩
    overall := nofun
    configs := nofun
    passed := nofun
    kept := nofun
    counted := fun _ => ⟨[], _, rfl, nofun, rfl, fun e member => (entries e member).2,
      rfl, (Nat.zero_mul _).symm⟩
    heard := nofun }

theorem modify_at (before after : List ConfigEntry) (e : ConfigEntry) (f : ConfigEntry → ConfigEntry) :
    (before ++ e :: after).modify before.length f = before ++ f e :: after := by
  induction before with
  | nil => rfl
  | cons first rest ih =>
    simp only [List.cons_append, List.length_cons, List.modify_succ_cons, ih]

theorem updateProgress_totals (t : Thread) (total : Nat)
    (all : ∀ e ∈ t.stored.configs, e.total = total) :
    ∀ e ∈ (updateProgress t).configs, e.total = total := by
  intro e member
  obtain ⟨i, at_i⟩ := List.mem_iff_getElem?.mp member
  simp only [updateProgress, List.getElem?_modify] at at_i
  obtain ⟨old, found, rfl⟩ := Option.map_eq_some_iff.mp at_i
  have was := all old (List.mem_of_getElem? found)
  split <;> exact was

theorem step_shaped (keep : Shaped t) (stepped : step t event = some u) : Shaped u := by
  obtain ⟨total, totals, length, located⟩ := keep
  cases step_steps stepped with
  | begin at_ =>
    rw [Located, at_] at located
    exact ⟨total, totals, length, located.1, nofun⟩
  | lost | stop | drain | drainFailed | complete | fail | retire =>
    exact ⟨total, totals, length, trivial⟩
  | enter at_ more =>
    rw [Located, at_] at located
    exact ⟨total, totals, length, more, located.2⟩
  | through at_ none =>
    rw [Located, at_] at located
    exact ⟨total, totals, length, le_antisymm located.1 (not_lt.mp none), located.2⟩
  | submit k at_ | submitted k at_ =>
    rw [Located, at_] at located
    exact ⟨total, totals, length, located⟩
  | leave sample left at_ =>
    rw [Located, at_] at located
    exact ⟨total, totals, length, located.1, nofun⟩
  | raised left at_ =>
    rw [Located, at_] at located
    exact ⟨total, totals, length, located⟩
  | count ex left at_ =>
    rw [Located, at_] at located
    refine ⟨total, updateProgress_totals _ _ totals, ?_, located⟩
    simpa [count, updateProgress] using length
  | close at_ =>
    rw [Located, at_] at located
    exact ⟨total, totals, length, located.1, located.2⟩
  | failInside at_ =>
    refine ⟨total, totals, length, ?_⟩
    rcases at_ with ⟨k, at_⟩ | ⟨k, at_⟩
    · rw [Located, at_] at located
      exact located
    · rw [Located, at_] at located
      exact located
  | cancel => exact ⟨total, totals, length, located⟩

theorem step_heard (shaped : Shaped t) (heard : t.cancelled = true → Listens t)
    (stepped : step t event = some u) (sound : Sound t event) : u.cancelled = true → Listens u := by
  intro cancelled
  cases step_steps stepped with
  | begin at_ =>
    have before := heard cancelled
    rw [Listens, at_] at before
    exact before
  | lost at_ | drain at_ =>
    have located := shaped.located
    rw [Located, at_] at located
    exact located.2
  | stop | drainFailed | fail => exact nofun
  | enter at_ more kept => exact absurd (kept.symm.trans cancelled) Bool.false_ne_true
  | through at_ none =>
    have before := heard cancelled
    rw [Listens, at_] at before
    exact absurd before none
  | submit k at_ more kept => exact absurd (kept.symm.trans cancelled) Bool.false_ne_true
  | submitted k at_ =>
    have before := heard cancelled
    rw [Listens, at_] at before
    exact before
  | leave | raised | failInside | retire => trivial
  | count ex left at_ kept => exact absurd (kept.symm.trans cancelled) Bool.false_ne_true
  | close at_ =>
    have before := heard cancelled
    rw [Listens, at_] at before
    exact before.resolve_left (lt_irrefl 0)
  | complete at_ =>
    have before := heard cancelled
    rw [Listens, at_] at before
    exact before.elim
  | cancel => exact sound

theorem listens_uncompleted (shaped : Shaped t) (listens : Listens t) (running : t.pc ≠ .ended) :
    t.stored.status ≠ .completed := by
  have located := shaped.located
  cases at_ : t.pc with
  | start | top | submitting | taking | draining | report =>
    rw [Located, at_] at located
    exact located.2
  | finished =>
    rw [Listens, at_] at listens
    exact listens
  | ended => exact absurd at_ running

theorem step_complete (shaped : Shaped t) (complete : Complete t)
    (counted : t.cancelled = false → Counted t)
    (heard : t.cancelled = true → Listens t) (stepped : step t event = some u)
    (sound : Sound t event) : Complete u := by
  have located := shaped.located
  cases step_steps stepped with
  | begin | stop | leave | drainFailed | fail => exact ⟨nofun, nofun, nofun, nofun⟩
  | lost | drain | retire | enter | through | submit | submitted | raised | close | failInside =>
    exact ⟨complete.overall, complete.configs, complete.passed, complete.kept⟩
  | count ex left at_ =>
    rw [Located, at_] at located
    exact ⟨fun done => absurd done located.2, fun done => absurd done located.2,
      fun done => absurd done located.2, fun done => absurd done located.2⟩
  | complete at_ =>
    rw [Located, at_] at located
    have kept : t.cancelled = false := by
      by_contra cancelled
      have listens := heard (Bool.not_eq_false _ ▸ cancelled)
      rw [Listens, at_] at listens
      exact listens
    obtain ⟨before, after, length, full, sum, -, rest⟩ := counted kept
    rw [At, at_] at rest
    obtain ⟨configs, overall⟩ := rest
    have none : after = [] := by
      have all := shaped.length
      rw [configs, List.length_append, length, located.1] at all
      exact List.length_eq_zero_iff.mp (by omega)
    rw [none, List.append_nil] at configs
    refine ⟨fun _ => ?_, fun _ e member => ?_, fun _ => ?_, fun _ => kept⟩
    · exact overall.trans ((congrArg (· * t.nCases) located.1).trans
        ((Nat.mul_comm _ _).trans shaped.total.symm))
    · have same : e.total = t.nCases := shaped.totals e member
      exact (full e (configs ▸ member)).trans same.symm
    · exact sum.symm.trans (congrArg (fun entries => (entries.map ConfigEntry.passed).sum) configs.symm)
  | cancel at_ =>
    have uncompleted := listens_uncompleted shaped sound at_
    exact ⟨complete.overall, complete.configs, complete.passed, fun done => absurd done uncompleted⟩

theorem step_counted (shaped : Shaped t) (counted : t.cancelled = false → Counted t)
    (stepped : step t event = some u) (sound : Sound t event) : u.cancelled = false → Counted u := by
  intro kept
  have located := shaped.located
  cases step_steps stepped with
  | begin at_ =>
    obtain ⟨before, after, length, full, sum, ahead, rest⟩ := counted kept
    rw [At, at_] at rest
    exact ⟨before, after, length, full, sum, ahead, rest⟩
  | lost | stop | leave | raised | drain | drainFailed | complete | fail | failInside | retire =>
    obtain ⟨before, after, length, full, sum, ahead, -⟩ := counted kept
    exact ⟨before, after, length, full, sum, ahead, trivial⟩
  | enter at_ more =>
    obtain ⟨before, after, length, full, sum, ahead, rest⟩ := counted kept
    rw [At, at_] at rest
    obtain ⟨configs, overall⟩ := rest
    cases after with
    | nil =>
      have all := shaped.length
      rw [configs, List.append_nil, length] at all
      omega
    | cons e after =>
      obtain ⟨name, total, completed, passed⟩ := e
      obtain ⟨rfl, rfl⟩ := ahead _ List.mem_cons_self
      exact ⟨before, after, length, full, sum, fun x member => ahead x (List.mem_cons_of_mem _ member),
        Nat.zero_le _, rfl, rfl, overall, name, total, configs⟩
  | through at_ none =>
    obtain ⟨before, after, length, full, sum, ahead, rest⟩ := counted kept
    rw [At, at_] at rest
    exact ⟨before, after, length, full, sum, ahead, rest⟩
  | submit k at_ more =>
    obtain ⟨before, after, length, full, sum, ahead, rest⟩ := counted kept
    rw [At, at_] at rest
    exact ⟨before, after, length, full, sum, ahead, more, rest.2⟩
  | submitted k at_ all =>
    obtain ⟨before, after, length, full, sum, ahead, rest⟩ := counted kept
    rw [At, at_] at rest
    obtain ⟨few, completed, passed, overall, name, total, configs⟩ := rest
    have every := all kept
    refine ⟨before, after, length, full, sum, ahead, ?_, ?_, name, total, ?_⟩
    · simp only [completed]
      omega
    · simpa only [completed, Nat.add_zero] using overall
    · simpa only [completed, passed] using configs
  | count ex left at_ =>
    obtain ⟨before, after, length, full, sum, ahead, rest⟩ := counted kept
    rw [At, at_] at rest
    obtain ⟨counts, overall, name, total, configs⟩ := rest
    refine ⟨before, after, length, full, sum, ahead, ?_, rfl, name, total, ?_⟩
    · simp only [count]
      omega
    · simp only [count, updateProgress, configs, ← length, modify_at]
  | close at_ =>
    obtain ⟨before, after, length, full, sum, ahead, rest⟩ := counted kept
    rw [At, at_] at rest
    obtain ⟨counts, overall, name, total, configs⟩ := rest
    have set_ := PyDict.sum_set t.allResults t.cfgName t.passed
    have unnamed : (t.allResults.lookup t.cfgName).getD 0 = 0 := by
      cases found : t.allResults.lookup t.cfgName with
      | none => rfl
      | some earlier => exact sound earlier found
    refine ⟨before ++ [⟨name, total, t.completed, t.passed⟩], after, ?_, fun e member => ?_, ?_, ahead,
      ?_, ?_⟩
    · simp [length]
    · rcases List.mem_append.mp member with old | new
      · exact full e old
      · rw [List.mem_singleton.mp new]
        exact counts
    · simp only [List.map_append, List.map_singleton, List.sum_append, List.sum_singleton]
      omega
    · simpa using configs
    · simp only [overall, Nat.add_mul]
      omega
  | cancel => cases kept

theorem step_keeps (keep : Keeps t) (stepped : step t event = some u) (sound : Sound t event) :
    Keeps u where
  toShaped := step_shaped keep.toShaped stepped
  toComplete := step_complete keep.toShaped keep.toComplete keep.counted keep.heard stepped sound
  counted := step_counted keep.toShaped keep.counted stepped sound
  heard := step_heard keep.toShaped keep.heard stepped sound

end Steps

/-- The thread can still store the task as completed, with its cancel event as it is. -/
def CanComplete (t : Thread) : Prop := ∃ events u, machine.exec t events = some u ∧
  u.stored.status = .completed ∧ u.cancelled = t.cancelled

theorem canComplete_step {t : Thread} (event : Event) (u : Thread) (stepped : step t event = some u)
    (same : u.cancelled = t.cancelled) (later : CanComplete u) : CanComplete t := by
  obtain ⟨events, last, run, completed, kept⟩ := later
  exact ⟨event :: events, last, Machine.exec_cons_some.mpr ⟨u, stepped, run⟩, completed,
    kept.trans same⟩

theorem report_completes {t : Thread} (at_ : t.pc = .report) : CanComplete t := by
  let u : Thread := { t with
    pc := .finished
    stored := { t.store .completed with overallPassed := (t.allResults.map Prod.snd).sum } }
  have stepped : machine.step t .complete = some u := by simp only [machine, step, at_, u]
  exact ⟨[.complete], u, by rw [Machine.exec_singleton, stepped], rfl, rfl⟩

theorem top_completes {t : Thread} (at_ : t.pc = .top) (through : ¬ t.cfgIdx < t.names.length) :
    CanComplete t := by
  refine canComplete_step .poll { t with pc := .report } ?_ rfl (report_completes rfl)
  simp only [step, at_, through, if_false]

theorem closed_completes {t : Thread} (at_ : t.pc = .taking 0)
    (last : ¬ t.cfgIdx + 1 < t.names.length) : CanComplete t := by
  refine canComplete_step .close { t with
    pc := .top
    cfgIdx := t.cfgIdx + 1
    allResults := t.allResults.set t.cfgName t.passed } ?_ rfl (top_completes rfl last)
  simp only [step, at_]

/-- Accepted by a thread that does not listen, a cancellation can end in a completed task. -/
theorem unheard_completes {t : Thread} (unheard : ¬ Listens t) :
    CanComplete { t with cancelled := true } := by
  cases at_ : t.pc with
  | start =>
    rw [Listens, at_] at unheard
    refine canComplete_step .begin { t with
      pc := .top, cancelled := true, stored := t.store .running } ?_ rfl (top_completes rfl unheard)
    simp only [step]
    rfl
  | top =>
    rw [Listens, at_] at unheard
    exact top_completes rfl unheard
  | submitting k =>
    rw [Listens, at_] at unheard
    obtain ⟨none, last⟩ := not_or.mp unheard
    obtain rfl : k = 0 := by omega
    refine canComplete_step .submit { t with pc := .taking 0, cancelled := true } ?_ rfl
      (closed_completes rfl last)
    simp only [step, Bool.not_true, Bool.and_false, Bool.false_eq_true, if_false]
  | taking k =>
    rw [Listens, at_] at unheard
    obtain ⟨none, last⟩ := not_or.mp unheard
    obtain rfl : k = 0 := by omega
    exact closed_completes rfl last
  | draining raised =>
    rw [Listens, at_] at unheard
    exact absurd trivial unheard
  | report => exact report_completes rfl
  | finished =>
    rw [Listens, at_] at unheard
    exact ⟨[], _, rfl, not_not.mp unheard, rfl⟩
  | ended =>
    rw [Listens, at_] at unheard
    exact absurd trivial unheard

/-- Along every run in which the thread hears each cancellation and no name of a
configuration returns whose samples have passed, a completed task is complete. -/
theorem completed_complete (names : List String) (nCases : Nat) {events : List Event} {t : Thread}
    (sound : machine.Along (fun t event _ => Sound t event) (created names nCases) events)
    (run : machine.exec (created names nCases) events = some t) : Complete t :=
  (Machine.invariant_along Keeps (fun _ _ _ keep stepped sound => step_keeps keep stepped sound)
    (created_keeps names nCases) sound run).toComplete

/-- Two configurations over one sample. -/
def smallRun : List Event :=
  [.begin, .poll, .submit, .submit, .take (some true), .close,
    .poll, .submit, .submit, .take (some false), .close, .poll, .complete, .retire]

theorem completed_complete_small : ∃ t,
    machine.exec (created ["R0_Baseline", "R1_Decomposer"] 1) smallRun = some t ∧
      t.stored.status = .completed ∧ Complete t := by
  have runs : (machine.exec (created ["R0_Baseline", "R1_Decomposer"] 1) smallRun).any
      (fun t => t.stored.status = .completed) = true := by decide
  obtain ⟨t, run, completed⟩ := (Option.any_eq_true _ _).mp runs
  exact ⟨t, run, of_decide_eq_true completed, completed_complete _ _ (by decide) run⟩

/-- A cancellation before the only submission, one behind the last result, and two
configurations of one name. -/
theorem completed_incomplete :
    (machine.exec (created ["R0_Baseline"] 1)
        [.begin, .poll, .cancel, .submit, .close, .poll, .complete]).any (fun t =>
      t.stored.status = .completed ∧ t.cancelled = true ∧ t.stored.overallCompleted = 0 ∧
        t.stored.totalSamples = 1) = true ∧
    (machine.exec (created ["R0_Baseline"] 1)
        [.begin, .poll, .submit, .submit, .take (some true), .cancel, .close, .poll, .complete]).any
      (fun t => t.stored.status = .completed ∧ t.cancelled = true) = true ∧
    (machine.exec (created ["R0_Baseline", "R0_Baseline"] 1) smallRun).any (fun t =>
      t.stored.status = .completed ∧ t.cancelled = false ∧ t.stored.overallPassed = 0 ∧
        (t.stored.configs.map ConfigEntry.passed).sum = 1) = true := by
  decide

end EvalThread
end Nl2SqlAgent

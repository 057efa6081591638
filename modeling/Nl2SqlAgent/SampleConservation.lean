import Mathlib.Data.List.FinRange
import Nl2SqlAgent.Evaluation

/-! What the evaluation loop leaves behind. A sample waits, runs or is settled, and what is
said of it where it is agrees with what has happened to it; every attempt that ends leaves
less to do. -/
namespace Nl2SqlAgent

open Lib

namespace Evaluation

variable {S : Type}

/-- The results are the entries of the settled samples, and the counts are theirs. -/
structure Reckoned (c : Setting S) (l : Loop S) : Prop where
  results : l.caseResults = l.settled.map fun a => entry c a.sample a.ending
  completed : l.completed = l.caseResults.length
  passed : l.passed = l.caseResults.countP CaseResult.ex
  crashed : l.crashed = l.settled.countP fun a => a.ending.failed
  totals : ∀ d, (l.diffStats d).total = l.caseResults.countP fun r => r.difficulty == d
  passes : ∀ d, (l.diffStats d).passed = l.caseResults.countP fun r => r.difficulty == d && r.ex

section Counts

variable {c : Setting S} {l l' : Loop S} {e : Running S}

theorem countP_concat {α : Type} (p : α → Bool) (xs : List α) (x : α) :
    (xs ++ [x]).countP p = xs.countP p + (p x).toNat := by
  cases holds : p x <;> simp [List.countP_append, holds]

theorem settled_requeued (l : Loop S) (e : Running S) {ending : Ending}
    {log : List TimeoutEvent} {queue : List (S × Nat)}
    (failed : ending.failed = true) (few : e.retries < maxSampleRetries) :
    Loop.settled { leave e ending l with timeoutLog := log, taskQueue := queue } = l.settled := by
  simp [Loop.settled, leave, Attempt.final, failed, few]

theorem Enters.settled {ending : Ending} {r : CaseResult} {crash : Bool}
    (final : Attempt.final ⟨e.sample, e.retries, ending⟩ = true)
    (entered : Enters r crash (leave e ending l) l') :
    l'.settled = l.settled ++ [⟨e.sample, e.retries, ending⟩] := by
  have ended : l'.ended = l.ended ++ [⟨e.sample, e.retries, ending⟩] := entered.ended
  simp [Loop.settled, ended, List.filter_append, final]

theorem Ends.reckoned (ends : Ends c e l l') (keep : Reckoned c l) : Reckoned c l' := by
  cases ends with
  | requeued ending log failed few =>
    exact {
      results := by
        rw [settled_requeued l e failed few]
        exact keep.results
      completed := keep.completed
      passed := keep.passed
      crashed := by
        rw [settled_requeued l e failed few]
        exact keep.crashed
      totals := keep.totals
      passes := keep.passes }
  | settled ending final entered =>
    have results : l'.caseResults = l.caseResults ++ [entry c e.sample ending] := entered.caseResults
    have settled := entered.settled final
    exact {
      results := by simp [results, settled, keep.results]
      completed := by simpa [results, leave] using entered.completed.trans (congrArg (· + 1) keep.completed)
      passed := by
        rw [results, countP_concat, ← keep.passed]
        exact entered.passed
      crashed := by
        rw [settled, countP_concat, ← keep.crashed]
        exact entered.crashed
      totals := fun d => by
        rw [results, countP_concat, ← keep.totals d]
        exact entered.totals d
      passes := fun d => by
        rw [results, countP_concat, ← keep.passes d]
        exact entered.passes d }

theorem takeDone_reckoned (d : Nat × Except String Measured) (keep : Reckoned c l) :
    Reckoned c (takeDone c l d) := by
  rcases takeDone_cases c l d with ⟨same, _⟩ | ⟨e, _, _, ends⟩
  · rw [same]
    exact keep
  · exact ends.reckoned keep

theorem takeExpired_reckoned (e : Running S) (keep : Reckoned c l) :
    Reckoned c (takeExpired c l e) := by
  rcases takeExpired_cases c l e with ⟨same, _⟩ | ⟨_, ends⟩
  · rw [same]
    exact keep
  · exact ends.reckoned keep

theorem refill_reckoned (keep : Reckoned c l) : Reckoned c (refill c l) :=
  fill_induction (Reckoned c) (fun _ _ _ _ _ keep => ⟨keep.results, keep.completed, keep.passed,
    keep.crashed, keep.totals, keep.passes⟩) _ keep

theorem start_reckoned (c : Setting S) (samples : List S) : Reckoned c (start c samples) :=
  refill_reckoned ⟨rfl, rfl, rfl, rfl, fun _ => rfl, fun _ => rfl⟩

theorem iteration_reckoned (w : Wake) (keep : Reckoned c l) : Reckoned c (iteration c w l) := by
  apply refill_reckoned
  refine List.foldlRecOn (motive := Reckoned c) _ _ ?_ fun l keep e _ => takeExpired_reckoned e keep
  exact List.foldlRecOn (motive := Reckoned c) _ _ keep fun l keep d _ => takeDone_reckoned d keep

end Counts

section Places

variable [DecidableEq S] {c : Setting S} {samples : List S} {l l' : Loop S} {e : Running S}

/-- Every sample is in one place, and what is said of it there agrees with what happened. -/
structure Placed (samples : List S) (l : Loop S) : Prop where
  conserved : l.holdings.Perm samples
  futures : (l.pending.map Running.future).Nodup
  fresh : ∀ e ∈ l.pending, e.future < l.futures
  queued : ∀ q ∈ l.taskQueue, l.submitted.count q.1 = q.2 ∧ q.2 ≤ maxSampleRetries
  running : ∀ e ∈ l.pending,
    l.submitted.count e.sample = e.retries + 1 ∧ e.retries ≤ maxSampleRetries
  finals : ∀ a ∈ l.settled, l.submitted.count a.sample ≤ maxSampleRetries + 1 ∧
    (l.attempts a.sample).getLast? = some a.ending

theorem Placed.unique (keep : Placed samples l) {e other : Running S} (member : e ∈ l.pending)
    (also : other ∈ l.pending) (same : other.future = e.future) : other = e :=
  List.inj_on_of_nodup_map keep.futures also member same

/-- Taking one out of a list whose keys are distinct. -/
theorem perm_cons_filter {α β : Type} [BEq β] [LawfulBEq β] {key : α → β} {xs : List α} {x : α}
    (distinct : (xs.map key).Nodup) (member : x ∈ xs) :
    xs.Perm (x :: xs.filter fun y => key y != key x) := by
  induction xs with
  | nil => simp at member
  | cons y ys ih =>
    obtain ⟨apart, distinct⟩ := List.nodup_cons.mp distinct
    rcases List.mem_cons.mp member with rfl | later
    · have all : (ys.filter fun y => key y != key x) = ys := by
        apply List.filter_eq_self.mpr
        intro y member
        exact bne_iff_ne.mpr fun same => apart (same ▸ List.mem_map_of_mem member)
      simp [all]
    · have different : key y ≠ key x := fun same => apart (same ▸ List.mem_map_of_mem later)
      simp only [List.filter_cons, bne_iff_ne.mpr different, if_true]
      exact ((ih distinct later).cons y).trans (List.Perm.swap x y _)

/-- An attempt that is over was the only one of its sample that ran. -/
theorem Placed.pending_perm (keep : Placed samples l) (member : e ∈ l.pending) :
    l.pending.Perm (e :: l.pending.filter fun other => other.future != e.future) :=
  perm_cons_filter keep.futures member

theorem attempts_concat (l : Loop S) (a : Attempt S) {s : S} (other : a.sample ≠ s) :
    (((l.ended ++ [a]).filter fun a => a.sample = s).map Attempt.ending) = l.attempts s := by
  simp [Loop.attempts, List.filter_append, other]

theorem Ends.holdings (ends : Ends c e l l') (keep : Placed samples l) (member : e ∈ l.pending) :
    l'.holdings.Perm l.holdings := by
  have split := (keep.pending_perm member).map Running.sample
  apply List.perm_iff_count.mpr
  intro s
  have counts := split.count_eq s
  cases ends with
  | requeued ending log failed few =>
    simp only [Loop.holdings, settled_requeued l e failed few]
    simp only [leave, List.map_cons, List.cons_append, List.count_append, List.count_cons]
      at counts ⊢
    omega
  | settled ending final entered =>
    simp only [Loop.holdings, entered.taskQueue, entered.pending, entered.settled final, leave,
      List.map_append, List.map_cons, List.map_nil, List.count_append, List.count_cons,
      List.count_nil] at counts ⊢
    omega

/-- Where a sample is, no other entry of the three places is about it. -/
theorem Placed.settled_apart (keep : Placed samples l) (distinct : samples.Nodup)
    (member : e ∈ l.pending) : ∀ a ∈ l.settled, e.sample ≠ a.sample := by
  intro a settled same
  have nodup := (keep.conserved.nodup_iff).mpr distinct
  have apart := (List.nodup_append.mp nodup).2.2
  exact apart _ (List.mem_append_right _ (List.mem_map_of_mem member)) _
    (List.mem_map_of_mem settled) same

theorem Ends.placed (ends : Ends c e l l') (distinct : samples.Nodup) (keep : Placed samples l)
    (member : e ∈ l.pending) : Placed samples l' := by
  have conserved := (ends.holdings keep member).trans keep.conserved
  have pending := ends.pending
  have within : l'.pending.Sublist l.pending := pending ▸ List.filter_sublist
  have apart := keep.settled_apart distinct member
  obtain ⟨count, few⟩ := keep.running e member
  have futures := keep.futures.sublist (within.map Running.future)
  cases ends with
  | requeued ending log failed more =>
    refine ⟨conserved, futures, fun e also => keep.fresh e (within.subset also), ?_,
      fun e also => keep.running e (within.subset also), ?_⟩
    · intro q queued
      rcases List.mem_cons.mp queued with rfl | queued
      · exact ⟨count, more⟩
      · exact keep.queued q queued
    · intro a settled
      rw [settled_requeued l e failed more] at settled
      obtain ⟨submissions, last⟩ := keep.finals a settled
      refine ⟨submissions, Eq.trans (congrArg List.getLast? ?_) last⟩
      exact attempts_concat l ⟨e.sample, e.retries, ending⟩ (apart a settled)
  | settled ending final entered =>
    have ended : l'.ended = l.ended ++ [⟨e.sample, e.retries, ending⟩] := entered.ended
    have submitted : l'.submitted = l.submitted := entered.submitted
    refine ⟨conserved, futures, fun e also => ?_, ?_, fun e also => ?_, ?_⟩
    · rw [entered.futures]
      exact keep.fresh e (within.subset also)
    · rw [entered.taskQueue, submitted]
      exact keep.queued
    · rw [submitted]
      exact keep.running e (within.subset also)
    · intro a settled
      rw [entered.settled final, List.mem_append, List.mem_singleton] at settled
      rw [submitted]
      rcases settled with settled | rfl
      · obtain ⟨submissions, last⟩ := keep.finals a settled
        refine ⟨submissions, Eq.trans (congrArg List.getLast? ?_) last⟩
        rw [Loop.attempts, ended]
        exact attempts_concat l ⟨e.sample, e.retries, ending⟩ (apart a settled)
      · have submissions : l.submitted.count e.sample ≤ maxSampleRetries + 1 := by omega
        refine ⟨submissions, ?_⟩
        simp [Loop.attempts, ended, List.filter_append]

theorem refill_placed (distinct : samples.Nodup) (keep : Placed samples l) :
    Placed samples (refill c l) := by
  refine fill_induction (Placed samples) ?_ _ keep
  intro l s retries rest queue keep
  obtain ⟨count, few⟩ := keep.queued (s, retries) (queue ▸ List.mem_cons_self)
  have nodup := (keep.conserved.nodup_iff).mpr distinct
  simp only [Loop.holdings, queue, List.map_cons, List.cons_append, List.nodup_cons,
    List.mem_append, List.mem_map, not_or, not_exists, not_and] at nodup
  obtain ⟨⟨⟨notQueued, notRunning⟩, notSettled⟩, -⟩ := nodup
  have others {t : S} (other : t ≠ s) : (l.submitted ++ [s]).count t = l.submitted.count t := by
    simp [List.count_append, Ne.symm other]
  refine ⟨?_, ?_, ?_, ?_, ?_, ?_⟩
  · refine List.Perm.trans (List.perm_iff_count.mpr fun t => ?_) keep.conserved
    simp only [Loop.holdings, Loop.settled, queue, List.map_append, List.map_cons, List.map_nil,
      List.count_append, List.count_cons, List.count_nil]
    omega
  · simp only [List.map_append, List.map_cons, List.map_nil]
    refine List.nodup_append.mpr ⟨keep.futures, List.nodup_singleton _, ?_⟩
    intro future member other last same
    obtain ⟨e, running, rfl⟩ := List.mem_map.mp member
    have fresh := keep.fresh e running
    have last := List.mem_singleton.mp last
    omega
  · intro e member
    rcases List.mem_append.mp member with member | last
    · exact Nat.lt_succ_of_lt (keep.fresh e member)
    · obtain rfl := List.mem_singleton.mp last
      exact Nat.lt_succ_self _
  · intro q member
    rw [others (notQueued q member)]
    exact keep.queued q (queue ▸ List.mem_cons_of_mem _ member)
  · intro e member
    rcases List.mem_append.mp member with member | last
    · rw [others (notRunning e member)]
      exact keep.running e member
    · obtain rfl := List.mem_singleton.mp last
      exact ⟨by simp [List.count_append, count], few⟩
  · intro a member
    rw [others (notSettled a member)]
    exact keep.finals a member

theorem start_placed (c : Setting S) (distinct : samples.Nodup) : Placed samples (start c samples) := by
  refine refill_placed distinct ⟨?_, List.nodup_nil, ?_, ?_, ?_, ?_⟩
  · simp [Loop.holdings, Loop.settled, Function.comp_def]
  · exact fun e member => nomatch member
  · intro q member
    obtain ⟨s, -, rfl⟩ := List.mem_map.mp member
    exact ⟨rfl, Nat.zero_le _⟩
  · exact fun e member => nomatch member
  · exact fun a member => nomatch member

theorem takeDone_placed (distinct : samples.Nodup) (d : Nat × Except String Measured)
    (keep : Placed samples l) : Placed samples (takeDone c l d) := by
  rcases takeDone_cases c l d with ⟨same, _⟩ | ⟨e, member, _, ends⟩
  · rw [same]
    exact keep
  · exact ends.placed distinct keep member

/-- What the loop found expired is in `pending` as it was found, or no longer at all. -/
theorem expired_placed (distinct : samples.Nodup) (expired : List (Running S))
    (found : ∀ e ∈ expired, ∀ other ∈ l.pending, other.future = e.future → other = e)
    (keep : Placed samples l) : Placed samples (expired.foldl (takeExpired c) l) := by
  induction expired generalizing l with
  | nil => exact keep
  | cons e rest ih =>
    refine ih (fun e member other still => ?_) ?_
    · exact found e (List.mem_cons_of_mem _ member) other (takeExpired_subset _ still)
    · rcases takeExpired_cases c l e with ⟨same, _⟩ | ⟨⟨other, member, future⟩, ends⟩
      · rw [same]
        exact keep
      · obtain rfl := found e List.mem_cons_self other member future
        exact ends.placed distinct keep member

theorem done_placed (distinct : samples.Nodup) (done : List (Nat × Except String Measured))
    (keep : Placed samples l) : Placed samples (done.foldl (takeDone c) l) :=
  List.foldlRecOn (motive := Placed samples) _ _ keep
    fun _ keep d _ => takeDone_placed distinct d keep

/-- What expires of the pending futures is found again, as it was, after `done`. -/
theorem Placed.found (keep : Placed samples l) (w : Wake) :
    ∀ e ∈ l.pending.filter w.expires, ∀ other ∈ (w.done.foldl (takeDone c) l).pending,
      other.future = e.future → other = e :=
  fun _ member _ still => keep.unique (List.mem_of_mem_filter member) (done_subset w.done still)

theorem iteration_placed (distinct : samples.Nodup) (w : Wake) (keep : Placed samples l) :
    Placed samples (iteration c w l) :=
  refill_placed distinct
    (expired_placed distinct _ (keep.found w) (done_placed distinct w.done keep))

/-- How often the samples that are not settled can still be submitted. -/
def Loop.credit (l : Loop S) : Nat :=
  (l.taskQueue.map fun q => maxSampleRetries + 1 - q.2).sum +
    (l.pending.map fun e => maxSampleRetries + 1 - e.retries).sum

/-- The iteration meets the end of the attempt. -/
def Wake.Ends (w : Wake) (e : Running S) : Prop :=
  (∃ d ∈ w.done, d.1 = e.future) ∨ w.expires e = true

theorem Ends.lowers (ends : Ends c e l l') (keep : Placed samples l) (member : e ∈ l.pending) :
    l'.credit < l.credit := by
  have split := ((keep.pending_perm member).map fun e : Running S =>
    maxSampleRetries + 1 - e.retries).sum_nat
  have few := (keep.running e member).2
  rw [List.map_cons, List.sum_cons] at split
  simp only [Loop.credit, ends.pending]
  cases ends with
  | requeued ending log failed more =>
    simp only [List.map_cons, List.sum_cons]
    omega
  | settled ending final entered =>
    rw [entered.taskQueue]
    simp only [leave]
    omega

/-- Nothing happened, or less is left to do. -/
def Falls (l l' : Loop S) : Prop := l' = l ∨ l'.credit < l.credit

omit [DecidableEq S] in
theorem Falls.trans {l'' : Loop S} (first : Falls l l') (second : Falls l' l'') : Falls l l'' := by
  rcases second with rfl | lower
  · exact first
  · rcases first with rfl | below
    · exact .inr lower
    · exact .inr (lower.trans below)

omit [DecidableEq S] in
theorem Falls.le (falls : Falls l l') : l'.credit ≤ l.credit := by
  rcases falls with rfl | below
  · exact le_rfl
  · exact below.le

theorem done_falls (distinct : samples.Nodup) (done : List (Nat × Except String Measured))
    (keep : Placed samples l) : Falls l (done.foldl (takeDone c) l) := by
  induction done generalizing l with
  | nil => exact .inl rfl
  | cons d rest ih =>
    refine Falls.trans ?_ (ih (takeDone_placed distinct d keep))
    rcases takeDone_cases c l d with ⟨same, _⟩ | ⟨e, member, _, ends⟩
    · exact .inl same
    · exact .inr (ends.lowers keep member)

theorem expired_falls (distinct : samples.Nodup) (expired : List (Running S))
    (found : ∀ e ∈ expired, ∀ other ∈ l.pending, other.future = e.future → other = e)
    (keep : Placed samples l) : Falls l (expired.foldl (takeExpired c) l) := by
  induction expired generalizing l with
  | nil => exact .inl rfl
  | cons e rest ih =>
    have later := ih (l := takeExpired c l e) fun gone member other still =>
      found gone (List.mem_cons_of_mem _ member) other (takeExpired_subset _ still)
    rcases takeExpired_cases c l e with ⟨same, _⟩ | ⟨⟨other, member, future⟩, ends⟩
    · exact Falls.trans (.inl same) (later (by rwa [same]))
    · obtain rfl := found e List.mem_cons_self other member future
      exact Falls.trans (.inr (ends.lowers keep member)) (later (ends.placed distinct keep member))

omit [DecidableEq S] in
/-- The queue only gives samples to the pool. -/
theorem refill_credit (c : Setting S) (l : Loop S) :
    (refill c l).credit = l.credit ∧ l.pending ⊆ (refill c l).pending := by
  refine fill_induction (fun m => m.credit = l.credit ∧ l.pending ⊆ m.pending) ?_ _
    ⟨rfl, List.Subset.refl _⟩
  rintro m s retries rest queue ⟨same, within⟩
  refine ⟨?_, fun e member => List.mem_append_left _ (within member)⟩
  rw [← same]
  simp only [Loop.credit, queue, List.map_cons, List.sum_cons, List.map_append, List.map_nil,
    List.sum_append, List.sum_nil]
  omega

theorem iteration_credit (distinct : samples.Nodup) (w : Wake) (keep : Placed samples l) :
    (iteration c w l).credit ≤ l.credit ∧
      ((∃ e ∈ l.pending, w.Ends e) → (iteration c w l).credit < l.credit) := by
  have falls := Falls.trans (done_falls (c := c) distinct w.done keep)
    (expired_falls (c := c) distinct _ (keep.found w) (done_placed distinct w.done keep))
  simp only [iteration, (refill_credit c _).1]
  refine ⟨falls.le, fun ⟨e, member, ends⟩ => falls.resolve_left fun same => ?_⟩
  -- The future of the attempt is gone after one of the two loops.
  have still := member
  rw [← same] at still
  rcases ends with ⟨d, among, future⟩ | past
  · exact done_gone among e (expired_subset _ still) future.symm
  · exact expired_gone (List.mem_filter.mpr ⟨member, past⟩) e still rfl

theorem iteration_keeps {w : Wake} (keep : Placed samples l) (member : e ∈ l.pending)
    (runs : ¬ w.Ends e) : e ∈ (iteration c w l).pending := by
  simp only [Wake.Ends, not_or, not_exists, not_and] at runs
  have afterDone : e ∈ (w.done.foldl (takeDone c) l).pending :=
    List.foldlRecOn (motive := fun m : Loop S => e ∈ m.pending) _ _ member
      fun m still d among => takeDone_keeps still (Ne.symm (runs.1 d among))
  apply (refill_credit c _).2
  refine List.foldlRecOn (motive := fun m : Loop S => e ∈ m.pending) _ _ afterDone ?_
  intro m still gone among
  apply takeExpired_keeps still
  intro same
  obtain ⟨pending, past⟩ := List.mem_filter.mp among
  exact runs.2 (keep.unique pending member same ▸ past)

/-- What the loop leaves behind when it has dealt with the samples. -/
structure Accounted (c : Setting S) (samples : List S) (l : Loop S) : Prop where
  completed : l.completed = samples.length
  results : (l.caseResults.map some).Perm
    (samples.map fun s => (l.attempts s).getLast?.map (entry c s))
  submissions : ∀ s ∈ samples, l.submitted.count s ≤ maxSampleRetries + 1
  passed : l.passed = l.caseResults.countP CaseResult.ex
  crashed : l.crashed = samples.countP fun s => (l.attempts s).getLast?.any Ending.failed
  totals : ∀ d, (l.diffStats d).total = l.caseResults.countP fun r => r.difficulty == d
  passes : ∀ d, (l.diffStats d).passed = l.caseResults.countP fun r => r.difficulty == d && r.ex

theorem accounted (reckoned : Reckoned c l) (placed : Placed samples l)
    (idle : l.pending = []) (empty : l.taskQueue = []) : Accounted c samples l := by
  have all : (l.settled.map Attempt.sample).Perm samples := by
    simpa [Loop.holdings, idle, empty] using placed.conserved
  have length : l.caseResults.length = samples.length := by
    rw [reckoned.results, List.length_map, ← all.length_eq, List.length_map]
  have last (a : Attempt S) (member : a ∈ l.settled) := (placed.finals a member).2
  have results : l.caseResults.map some = (l.settled.map Attempt.sample).map fun s =>
      (l.attempts s).getLast?.map (entry c s) := by
    rw [reckoned.results, List.map_map, List.map_map]
    exact List.map_congr_left fun a member => by simp [last a member]
  have crashed : l.crashed = (l.settled.map Attempt.sample).countP fun s =>
      (l.attempts s).getLast?.any Ending.failed := by
    rw [reckoned.crashed, List.countP_map]
    exact List.countP_congr fun a member => by simp [last a member]
  exact {
    completed := reckoned.completed.trans length
    results := results ▸ all.map _
    submissions := fun s member => by
      obtain ⟨a, settled, rfl⟩ := List.mem_map.mp (all.mem_iff.mpr member)
      exact (placed.finals a settled).1
    passed := reckoned.passed
    crashed := crashed.trans (all.countP_eq _)
    totals := reckoned.totals
    passes := reckoned.passes }

end Places

section Runs

/-- The samples of the list are told apart by where they stand in it. -/
def setting (samples : List BirdSample) (cfgKnowledge : String) (maxWorkers : Nat)
    (clock : Nat → Rat) : Setting (Fin samples.length) where
  about := samples.get
  cfgKnowledge := cfgKnowledge
  maxWorkers := maxWorkers
  clock := clock

/-- The loop after so many iterations. -/
def after (c : Setting S) (samples : List S) (wakes : Nat → Wake) (n : Nat) : Loop S :=
  orbit (fun k => iteration c (wakes k)) (start c samples) n

/-- Every submitted attempt completes, raises or exceeds its timeout. -/
def Fair (c : Setting S) (samples : List S) (wakes : Nat → Wake) : Prop :=
  ∀ n, ∀ e ∈ (after c samples wakes n).pending, ∃ m ≥ n, (wakes m).Ends e

variable [DecidableEq S] {c : Setting S} {samples : List S}

theorem after_placed (distinct : samples.Nodup) (wakes : Nat → Wake) (n : Nat) :
    Placed samples (after c samples wakes n) :=
  orbit_invariant (Placed samples) (fun k _ keep => iteration_placed distinct (wakes k) keep)
    (start_placed c distinct) n

omit [DecidableEq S] in
theorem after_reckoned (wakes : Nat → Wake) (n : Nat) : Reckoned c (after c samples wakes n) :=
  orbit_invariant (Reckoned c) (fun k _ keep => iteration_reckoned (wakes k) keep)
    (start_reckoned c samples) n

omit [DecidableEq S] in
theorem after_idle (workers : 1 ≤ c.maxWorkers) (wakes : Nat → Wake) (n : Nat)
    (idle : (after c samples wakes n).pending = []) : (after c samples wakes n).taskQueue = [] := by
  cases n with
  | zero => exact refill_idle workers idle
  | succ n => exact refill_idle workers idle

/-- An attempt runs on until an iteration meets its end, which leaves less to do. -/
theorem credit_recurs (distinct : samples.Nodup) {wakes : Nat → Wake} (fair : Fair c samples wakes)
    {n : Nat} (running : (after c samples wakes n).pending ≠ []) :
    ∃ m ≥ n, (after c samples wakes (m + 1)).credit < (after c samples wakes m).credit := by
  obtain ⟨e, member⟩ := List.exists_mem_of_ne_nil _ running
  by_contra never
  simp only [not_exists, not_and, not_lt] at never
  have placed (m : Nat) := after_placed (c := c) distinct wakes m
  have unmet (m : Nat) (later : m ≥ n) (still : e ∈ (after c samples wakes m).pending) :
      ¬ (wakes m).Ends e := fun ends =>
    absurd ((iteration_credit distinct (wakes m) (placed m)).2 ⟨e, still, ends⟩)
      (not_lt.mpr (never m later))
  have stays (k : Nat) : e ∈ (after c samples wakes (n + k)).pending := by
    induction k with
    | zero => exact member
    | succ k ih => exact iteration_keeps (placed (n + k)) ih (unmet _ (Nat.le_add_right n k) ih)
  obtain ⟨m, later, ends⟩ := fair n e member
  obtain ⟨k, rfl⟩ := Nat.exists_eq_add_of_le later
  exact unmet (n + k) later (stays k) ends

theorem loop_ends (distinct : samples.Nodup) (workers : 1 ≤ c.maxWorkers) {wakes : Nat → Wake}
    (fair : Fair c samples wakes) :
    ∃ n, EndsAt (fun k => iteration c (wakes k)) (fun l => l.pending = []) (start c samples) n ∧
      Accounted c samples (after c samples wakes n) := by
  have falls (n : Nat) : (after c samples wakes (n + 1)).credit ≤ (after c samples wakes n).credit :=
    (iteration_credit distinct (wakes n) (after_placed distinct wakes n)).1
  have reached : ∃ n, EndsAt (fun k => iteration c (wakes k)) (fun l => l.pending = [])
      (start c samples) n :=
    exists_endsAt_of_recurring Loop.credit falls fun n running => credit_recurs distinct fair running
  obtain ⟨n, ends⟩ := reached
  have idle : (after c samples wakes n).pending = [] := ends.ended
  exact ⟨n, ends, accounted (after_reckoned wakes n) (after_placed distinct wakes n) idle
    (after_idle workers wakes n idle)⟩

/-- In whatever order attempts complete, raise and time out, the loop ends with every
sample settled once. -/
theorem samples_settled (samples : List BirdSample) (cfgKnowledge : String) {maxWorkers : Nat}
    (workers : 1 ≤ maxWorkers) (clock : Nat → Rat) (wakes : Nat → Wake)
    (fair : Fair (setting samples cfgKnowledge maxWorkers clock) (List.finRange _) wakes) :
    ∃ n, EndsAt (fun k => iteration (setting samples cfgKnowledge maxWorkers clock) (wakes k))
        (fun l => l.pending = []) (start (setting samples cfgKnowledge maxWorkers clock)
          (List.finRange _)) n ∧
      Accounted (setting samples cfgKnowledge maxWorkers clock) (List.finRange _)
        (after (setting samples cfgKnowledge maxWorkers clock) (List.finRange _) wakes n) :=
  loop_ends (List.nodup_finRange _) workers fair

/-- Two samples of one worker, where every attempt raises once more futures are there. -/
theorem samples_settled_raising :
    ∃ n, EndsAt (fun k => iteration
        (setting [⟨"1", "shop", "simple", "SELECT 1"⟩, ⟨"2", "shop", "simple", "SELECT 2"⟩] "rag" 1
          fun _ => 0) ⟨(List.range (k + 1)).map fun future => (future, .error "timeout"), 0⟩)
        (fun l => l.pending = []) (start
          (setting [⟨"1", "shop", "simple", "SELECT 1"⟩, ⟨"2", "shop", "simple", "SELECT 2"⟩] "rag" 1
            fun _ => 0) (List.finRange _)) n ∧
      Accounted (setting [⟨"1", "shop", "simple", "SELECT 1"⟩, ⟨"2", "shop", "simple", "SELECT 2"⟩]
          "rag" 1 fun _ => 0) (List.finRange _)
        (after (setting [⟨"1", "shop", "simple", "SELECT 1"⟩, ⟨"2", "shop", "simple", "SELECT 2"⟩]
          "rag" 1 fun _ => 0) (List.finRange _)
          (fun k => ⟨(List.range (k + 1)).map fun future => (future, .error "timeout"), 0⟩) n) := by
  apply samples_settled _ "rag" le_rfl (fun _ => 0) _
  intro n e _
  refine ⟨max n e.future, Nat.le_max_left _ _, .inl ⟨(e.future, .error "timeout"), ?_, rfl⟩⟩
  exact List.mem_map.mpr ⟨e.future, List.mem_range.mpr (by omega), rfl⟩

end Runs

end Evaluation
end Nl2SqlAgent

import Nl2SqlAgent.CacheProvenance

/-! How old a cached result gets: as long as the recorder writes back only what a task's
own run produced, no entry outlives its run by more than a flush and the longest
lifetime. A task that was answered from the cache is written back too, with a lifetime
that starts again. -/
namespace Nl2SqlAgent

open Lib

namespace ResultCache

open TaskLifecycle (Submission Stamp Task TaskEvent Entry cacheKey recorded)

variable {timing : Timing} {env : Env} {w w' : World}

/-- The flush writes nothing back, or a result of the task's own run. -/
def ownResult (w : World) : Event → Bool
  | .flush id _ =>
    ((w.base.tasks id).bind fun t => recorded t.doc).all fun _ =>
      (w.results id).all fun run => run.task = id
  | _ => true

/-- Marks are flushed in time; those of a task that its own run made a success are not
younger than the run; entries end in time. -/
structure Fresh (timing : Timing) (w : World) : Prop where
  marks : ∀ mark ∈ w.dirty, mark.2 ≤ w.now ∧ w.now ≤ mark.2 + timing.flushDelay
  own : ∀ id t run, w.base.tasks id = some t → TaskStore.status t.doc = "SUCCESS" →
    w.results id = some run → run.task = id → ∀ mark ∈ w.dirty, mark.1 = id →
    mark.2 ≤ run.finished
  entries : ∀ key entry run id, w.base.qcache key = some entry → w.entries key = some (run, id) →
    w.now ≤ w.expires key ∧
    w.expires key ≤ run.finished + timing.flushDelay + 1100 * timing.ttl

theorem marked_cases {id : String} {mark : String × Nat} (member : mark ∈ w.marked id) :
    mark ∈ w.dirty ∨ mark = (id, w.now) := by
  unfold World.marked at member
  split at member
  · exact .inl member
  · exact (List.mem_cons.mp member).symm

/-- The marks of the other tasks are the old ones. -/
theorem marked_other {id other : String} {mark : String × Nat} {b : Bool}
    (member : mark ∈ if b then w.marked id else w.dirty) (named : mark.1 = other)
    (distinct : other ≠ id) : mark ∈ w.dirty := by
  split at member
  · rcases marked_cases member with old | rfl
    · exact old
    · exact absurd named.symm distinct
  · exact member

theorem Fresh.marked (fresh : Fresh timing w) (id : String) :
    ∀ mark ∈ w.marked id, mark.2 ≤ w.now ∧ w.now ≤ mark.2 + timing.flushDelay := by
  intro mark member
  rcases marked_cases member with old | rfl
  · exact fresh.marks mark old
  · simp

theorem Fresh.tick (fresh : Fresh timing w) {ms : Nat} (ticked : tick timing w ms = some w') :
    Fresh timing w' := by
  obtain ⟨inTime, same⟩ := Option.ite_none_right_eq_some.mp ticked
  obtain rfl := Option.some.inj same
  refine ⟨?_, fresh.own, ?_⟩
  · intro mark member
    have before := (fresh.marks mark member).1
    have after := inTime mark member
    exact ⟨by simp only; omega, after⟩
  · intro key entry run id cached kept
    obtain ⟨alive, cached⟩ := Option.ite_none_left_eq_some.mp cached
    have bound := (fresh.entries key entry run id cached kept).2
    exact ⟨by simp only; omega, bound⟩

theorem Fresh.submit (fresh : Fresh timing w) (traced : Traced env w)
    {endpoint : TaskThreads.Endpoint} {id : String} {s : Submission} {stamp : Stamp}
    (submitted : submit w endpoint id s stamp = some w') : Fresh timing w' := by
  obtain ⟨unused, same⟩ := Option.ite_none_right_eq_some.mp submitted
  obtain rfl := Option.some.inj same
  refine ⟨?_, ?_, fresh.entries⟩
  · simp only
    split
    · exact fresh.marked id
    · exact fresh.marks
  · intro other t run found success behind mine mark member named
    rcases set_cases found with ⟨rfl, rfl⟩ | ⟨distinct, old⟩
    · by_cases hit : hits w endpoint s = true
      · -- the run behind the entry is that of another task
        obtain ⟨-, present⟩ := of_decide_eq_true hit
        obtain ⟨entry, cached⟩ := Option.isSome_iff_exists.mp present
        obtain ⟨run', ran, writer, kept, -⟩ := traced.cached _ entry cached
        simp only [hit, kept, if_true, Function.update_self, Option.map_some,
          Option.some.injEq] at behind
        subst behind
        exact absurd mine (other_of_fresh unused (traced.runs run' ran).2)
      · have pending := submitted_fresh other stamp (Bool.eq_false_iff.mpr hit)
        rw [pending] at success
        exact absurd success (by decide)
    · have behind' : w.results other = some run := by
        simp only at behind
        split at behind
        · rwa [Function.update_of_ne distinct] at behind
        · exact behind
      have member' : mark ∈ w.dirty := marked_other member named distinct
      exact fresh.own other t run old success behind' mine mark member' named

theorem Fresh.task (fresh : Fresh timing w) (traced : Traced env w) {id : String}
    {event : TaskEvent} {stamp : Stamp} (moved : task env w id event stamp = some w') :
    Fresh timing w' := by
  simp only [ResultCache.task, Option.bind_eq_bind, Option.bind_eq_some_iff, Option.some.injEq]
    at moved
  obtain ⟨t, found, t', stepped, rfl⟩ := moved
  obtain ⟨url, fine⟩ := traced.sound.tasks id t found
  refine ⟨?_, ?_, fresh.entries⟩
  · simp only
    split
    · exact fresh.marked id
    · exact fresh.marks
  · intro other u run present success behind mine mark member named
    rcases set_cases present with ⟨rfl, rfl⟩ | ⟨distinct, old⟩
    · by_cases succeeded : succeeds u event = true
      · -- the run ends now
        have silent : notifies t event = false := by
          cases event with
          | succeed => rfl
          | _ => contradiction
        simp only [succeeded, if_true, Function.update_self, Option.some.injEq] at behind
        simp only [silent] at member
        subst behind
        exact (fresh.marks mark member).1
      · rcases success_step fine stepped success with rfl | ⟨same, silent⟩
        · exact absurd (decide_eq_true success) succeeded
        · simp only [succeeded] at behind
          simp only [silent] at member
          rw [same] at success
          exact fresh.own other t run found success behind mine mark member named
    · have behind' : w.results other = some run := by
        simp only at behind
        split at behind
        · rwa [Function.update_of_ne distinct] at behind
        · exact behind
      have member' : mark ∈ w.dirty := marked_other member named distinct
      exact fresh.own other u run old success behind' mine mark member' named

theorem Fresh.unmark (fresh : Fresh timing w) (id : String) : Fresh timing (w.unmark id) :=
  ⟨fun mark member => fresh.marks mark (List.mem_filter.mp member).1,
    fun other t run found success behind mine mark member =>
      fresh.own other t run found success behind mine mark (List.mem_filter.mp member).1,
    fresh.entries⟩

theorem Fresh.flush (fresh : Fresh timing w) (traced : Traced env w) {id : String} {life : Nat}
    (flushed : flush timing w id life = some w') (own : ownResult w (.flush id life) = true) :
    Fresh timing w' := by
  obtain ⟨marked, jittered, rfl | ⟨t, key, entry, found, stored, rfl⟩⟩ := flush_cases flushed
  · exact fresh.unmark id
  · have cleared := fresh.unmark id
    refine ⟨cleared.marks, cleared.own, ?_⟩
    intro other entry' run writer cached kept
    by_cases same : other = key
    · subst same
      simp only [World.put, World.unmark, Function.update_self] at kept ⊢
      obtain ⟨run, behind, pair⟩ := Option.map_eq_some_iff.mp kept
      obtain ⟨rfl, rfl⟩ := Prod.mk.inj pair
      have mine : run.task = id := by
        simpa [ownResult, found, stored, behind] using own
      obtain ⟨url, fine⟩ := traced.sound.tasks id t found
      obtain ⟨status, -⟩ := recorded_gives fine.stage.holds stored
      obtain ⟨mark, member, named⟩ := List.mem_map.mp marked
      have older := fresh.own id t run found status behind mine mark member named
      have inTime := (fresh.marks mark member).2
      obtain ⟨-, longest⟩ := of_decide_eq_true jittered
      constructor <;> omega
    · simp only [World.put, World.unmark, Function.update_of_ne same] at cached kept ⊢
      exact fresh.entries other entry' run writer cached kept

theorem Fresh.step (fresh : Fresh timing w) (traced : Traced env w) {event : Event}
    (stepped : step timing env w event = some w') (own : ownResult w event = true) :
    Fresh timing w' := by
  cases event with
  | tick ms => exact fresh.tick stepped
  | submit endpoint id s stamp => exact fresh.submit traced stepped
  | task id event stamp => exact fresh.task traced stepped
  | flush id life => exact fresh.flush traced stepped own
  | forget id =>
    obtain rfl := Option.some.inj stepped
    exact fresh.unmark id

theorem start_fresh : Fresh timing start :=
  ⟨fun _ member => (nomatch member), fun _ _ _ found => (nomatch found),
    fun _ _ _ _ cached => (nomatch cached)⟩

/-- If the recorder writes back only results of the task's own run, whatever the cache
serves was produced by a run that ended at most a flush and the longest lifetime ago. -/
theorem cache_fresh {events : List Event}
    (own : (machine timing env).Along (fun w event _ => ownResult w event = true) start events)
    (run : (machine timing env).exec start events = some w) :
    ∀ key entry, w.base.qcache key = some entry → ∃ r ∈ w.runs, ∃ id,
      w.entries key = some (r, id) ∧ Gives r.doc entry.sql entry.execResult ∧
      w.now ≤ w.expires key ∧
      w.expires key ≤ r.finished + timing.flushDelay + 1100 * timing.ttl := by
  obtain ⟨traced, fresh⟩ : Traced env w ∧ Fresh timing w :=
    Machine.invariant_along (fun w => Traced env w ∧ Fresh timing w)
      (fun _ _ _ holds stepped own => ⟨holds.1.step stepped, holds.2.step holds.1 stepped own⟩)
      ⟨start_traced, start_fresh⟩ own run
  intro key entry cached
  obtain ⟨r, member, id, kept, -, gives⟩ := traced.cached key entry cached
  exact ⟨r, member, id, kept, gives, fresh.entries key entry r id cached kept⟩

theorem cache_fresh_answered :
    ∃ w entry, (machine configured .plain).exec start answered = some w ∧
      w.base.qcache (keyOf asked) = some entry ∧ ∃ r ∈ w.runs, w.now ≤ r.finished + 1984000 := by
  obtain ⟨w, run, ⟨entry, cached⟩, -⟩ := answered_cached
  obtain ⟨r, member, id, -, -, alive, bound⟩ :=
    cache_fresh (by decide +kernel) run (keyOf asked) entry cached
  refine ⟨w, entry, run, cached, r, member, ?_⟩
  simp only [configured] at bound
  omega

/-- Shortly before the entry expires a submit is answered from it; the flush of that task
writes the same result back. -/
def prolonged : List Event :=
  answered ++ [.tick 1799000, .submit .gateway "t2" asked {}, .flush "t2" 1800000, .tick 200000]

theorem hit_prolongs_entry :
    ∃ w entry, (machine configured .plain).exec start prolonged = some w ∧
      w.base.qcache (keyOf asked) = some entry ∧
      ∀ r ∈ w.runs, r.finished + configured.flushDelay + 1100 * configured.ttl < w.now := by
  have ends : ((machine configured .plain).exec start prolonged).any (fun w =>
      (w.base.qcache (keyOf asked)).isSome ∧
      ∀ r ∈ w.runs, r.finished + configured.flushDelay + 1100 * configured.ttl < w.now) = true := by
    decide +kernel
  obtain ⟨w, run, final⟩ := (Option.any_eq_true _ _).mp ends
  obtain ⟨cached, old⟩ := of_decide_eq_true final
  obtain ⟨entry, cached⟩ := Option.isSome_iff_exists.mp cached
  exact ⟨w, entry, run, cached, old⟩

end ResultCache
end Nl2SqlAgent

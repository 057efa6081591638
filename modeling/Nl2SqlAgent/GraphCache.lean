import Nl2SqlAgent.SchemaContext
import Nl2SqlAgent.Lib.Machine

/-! Concurrent calls of `_build_graph` (`retrieval/fk_expand.py`). Every read and every write
of `_graph_cache` and `_graph_db_url` is a step of its own, and any call may take the next. -/
namespace Nl2SqlAgent

open Lib

namespace GraphCache

open FkGraph

/-- What a call comes to; it raises where the schema cannot be read. -/
inductive Answer
  | returned (graph : Option Graph)
  | raised
  deriving DecidableEq

/-- What a call does next. From `rechecking` to `releasing` it holds `_graph_lock`. -/
inductive Point
  /-- `_graph_cache is not None` -/
  | checking
  /-- `_graph_db_url == db` -/
  | comparing
  /-- `return _graph_cache`, without the lock -/
  | hitting
  | locking
  | rechecking
  | recomparing
  | building
  /-- `_graph_cache = dict(graph)` -/
  | writing (graph : Graph)
  /-- `_graph_db_url = db` -/
  | keying
  /-- `return _graph_cache`, with the lock -/
  | reading
  | releasing (answer : Answer)
  | done (answer : Answer)
  deriving DecidableEq

def Point.inside : Point → Bool
  | .rechecking | .recomparing | .building | .writing _ | .keying | .reading | .releasing _ => true
  | _ => false

structure Call where
  databaseUrl : Option String
  point : Point := .checking
  deriving DecidableEq

structure State where
  cache : Option Graph := none
  url : Option String := none
  lock : Option Nat := none
  calls : List Call := []
  deriving DecidableEq

def State.goto (s : State) (i : Nat) (c : Call) (point : Point) : State :=
  { s with calls := s.calls.set i { c with point := point } }

/-- The graph built from the schema of the database, with no cache in between. -/
def built (rt : Runtime) (dbs : Databases) (databaseUrl : Option String) : Graph :=
  graphOf rt (dbs.info rt (dbs.url databaseUrl))

/-- The next step of a call; `readable`: whether the schema of its database can be read. -/
def advance (rt : Runtime) (dbs : Databases) (s : State) (i : Nat) (c : Call) (readable : Bool) :
    Option State :=
  let db := dbs.url c.databaseUrl
  match c.point with
  | .checking => some (s.goto i c (if s.cache.isSome then .comparing else .locking))
  | .comparing => some (s.goto i c (if s.url = some db then .hitting else .locking))
  | .hitting => some (s.goto i c (.done (.returned s.cache)))
  | .locking =>
    if s.lock = none then some ({ s with lock := some i }.goto i c .rechecking) else none
  | .rechecking => some (s.goto i c (if s.cache.isSome then .recomparing else .building))
  | .recomparing => some (s.goto i c (if s.url = some db then .reading else .building))
  | .building =>
    some (s.goto i c (if readable then .writing (built rt dbs c.databaseUrl) else .releasing .raised))
  | .writing graph => some ({ s with cache := some graph }.goto i c .keying)
  | .keying => some ({ s with url := some db }.goto i c .reading)
  | .reading => some (s.goto i c (.releasing (.returned s.cache)))
  | .releasing answer => some ({ s with lock := none }.goto i c (.done answer))
  | .done _ => none

inductive Event
  | call (databaseUrl : Option String)
  | advance (i : Nat) (readable : Bool := true)

def step (rt : Runtime) (dbs : Databases) (s : State) : Event → Option State
  | .call databaseUrl => some { s with calls := s.calls ++ [{ databaseUrl }] }
  | .advance i readable => (s.calls[i]?).bind fun c => advance rt dbs s i c readable

def machine (rt : Runtime) (dbs : Databases) : Machine State Event := ⟨step rt dbs⟩

/-- Whatever a call has returned is the graph of its own database. -/
def Coherent (rt : Runtime) (dbs : Databases) (s : State) : Prop :=
  ∀ c ∈ s.calls, ∀ graph, c.point = .done (.returned graph) →
    graph = some (built rt dbs c.databaseUrl)

/-- A graph is not written while a call for a database with another graph stands between its
comparison and its return without the lock, and no comparison succeeds while such a call
stands between its two writes. -/
def Call.Apart (rt : Runtime) (dbs : Databases) (s : State) (c : Call) : Prop :=
  match c.point with
  | .writing graph => ∀ other ∈ s.calls, other.point = .hitting →
      built rt dbs other.databaseUrl = graph
  | .comparing => s.url = some (dbs.url c.databaseUrl) → ∀ other ∈ s.calls, other.point = .keying →
      built rt dbs other.databaseUrl = built rt dbs c.databaseUrl
  | _ => True

instance (rt : Runtime) (dbs : Databases) (s : State) (c : Call) : Decidable (c.Apart rt dbs s) := by
  unfold Call.Apart
  split <;> infer_instance

def Apart (rt : Runtime) (dbs : Databases) (s : State) : Event → State → Prop
  | .advance i _, _ => ∀ c ∈ s.calls[i]?, c.Apart rt dbs s
  | .call _, _ => True

instance (rt : Runtime) (dbs : Databases) (s s' : State) (event : Event) :
    Decidable (Apart rt dbs s event s') :=
  match event with
  | .advance i _ => inferInstanceAs (Decidable (∀ c ∈ s.calls[i]?, c.Apart rt dbs s))
  | .call _ => isTrue trivial

section

variable {rt : Runtime} {dbs : Databases} {s s' : State} {i : Nat} {c : Call} {event : Event}

/-- Who is inside holds the lock, and has the graph of its database from the first write on. -/
structure Holds (rt : Runtime) (dbs : Databases) (s : State) (i : Nat) (c : Call) : Prop where
  lock : c.point.inside = true ↔ s.lock = some i
  writing : ∀ graph, c.point = .writing graph → graph = built rt dbs c.databaseUrl
  cached : c.point = .keying ∨ c.point = .reading → s.cache = some (built rt dbs c.databaseUrl)
  releasing : ∀ graph, c.point = .releasing (.returned graph) →
    graph = some (built rt dbs c.databaseUrl)

/-- What the lock keeps, whatever the calls without it do. -/
structure Locked (rt : Runtime) (dbs : Databases) (s : State) : Prop where
  calls : ∀ i c, s.calls[i]? = some c → Holds rt dbs s i c
  holder : ∀ i, s.lock = some i → i < s.calls.length
  keyed : (∀ c ∈ s.calls, c.point ≠ .keying) → ∀ url, s.url = some url →
    s.cache = some (graphOf rt (dbs.info rt url))

/-- Another call is where it was, and finds the cache as it was if it is inside. -/
theorem Holds.other {j : Nat} (holds : Holds rt dbs s j c) (lock : s'.lock = some j ↔ s.lock = some j)
    (cache : c.point.inside = true → s'.cache = s.cache) : Holds rt dbs s' j c where
  lock := holds.lock.trans lock.symm
  writing := holds.writing
  cached := by
    intro place
    have inside : c.point.inside = true := by rcases place with here | here <;> simp [here, Point.inside]
    rw [cache inside]
    exact holds.cached place
  releasing := holds.releasing

theorem Locked.move {point : Point} (locked : Locked rt dbs s) (here : s.calls[i]? = some c)
    (calls : s'.calls = s.calls.set i { c with point := point })
    (own : Holds rt dbs s' i { c with point := point })
    (lock : ∀ j, j ≠ i → (s'.lock = some j ↔ s.lock = some j))
    (cache : s'.cache = s.cache ∨ c.point.inside = true)
    (keyed : (∀ c ∈ s'.calls, c.point ≠ .keying) → ∀ url, s'.url = some url →
      s'.cache = some (graphOf rt (dbs.info rt url))) : Locked rt dbs s' where
  calls := by
    intro j c' found
    rw [calls, List.getElem?_set] at found
    split at found
    next same =>
      obtain ⟨bound, -⟩ := List.getElem?_eq_some_iff.mp here
      rw [if_pos (same ▸ bound)] at found
      obtain rfl := Option.some.inj found
      exact same ▸ own
    next other =>
      have holds := locked.calls j c' found
      refine holds.other (lock j (Ne.symm other)) fun inside => cache.resolve_right fun busy => ?_
      -- both would hold the lock
      have mine := (locked.calls i c here).lock.mp busy
      have theirs := holds.lock.mp inside
      exact other (Option.some.inj (mine.symm.trans theirs))
  holder := by
    intro j held
    rw [calls, List.length_set]
    by_cases same : j = i
    · exact same ▸ (List.getElem?_eq_some_iff.mp here).1
    · exact locked.holder j ((lock j same).mp held)
  keyed := keyed

theorem unkeyed {point : Point} (here : s.calls[i]? = some c) (before : c.point ≠ .keying)
    (none : ∀ c' ∈ s.calls.set i { c with point := point }, c'.point ≠ .keying) :
    ∀ c' ∈ s.calls, c'.point ≠ .keying := by
  intro c' member
  obtain ⟨j, found⟩ := List.mem_iff_getElem?.mp member
  by_cases same : j = i
  · subst same
    obtain rfl := Option.some.inj (found.symm.trans here)
    exact before
  · refine none c' (List.mem_iff_getElem?.mpr ⟨j, ?_⟩)
    rw [List.getElem?_set_ne (Ne.symm same)]
    exact found

theorem Locked.alone (locked : Locked rt dbs s) (here : s.calls[i]? = some c) (mine : s.lock = some i)
    (before : c.point ≠ .keying) : ∀ c' ∈ s.calls, c'.point ≠ .keying := by
  intro c' member keying
  obtain ⟨j, found⟩ := List.mem_iff_getElem?.mp member
  have theirs := (locked.calls j c' found).lock.mp (by simp [keying, Point.inside])
  obtain rfl := Option.some.inj (theirs.symm.trans mine)
  obtain rfl := Option.some.inj (found.symm.trans here)
  exact before keying

theorem Locked.goto {point : Point} (locked : Locked rt dbs s) (here : s.calls[i]? = some c)
    (own : Holds rt dbs s i { c with point := point }) (before : c.point ≠ .keying) :
    Locked rt dbs (s.goto i c point) :=
  locked.move here rfl ⟨own.lock, own.writing, own.cached, own.releasing⟩ (fun _ _ => Iff.rfl)
    (.inl rfl) fun none => locked.keyed (unkeyed here before none)

/-- Where nothing is known of the graph yet. -/
def Point.plain : Point → Bool
  | .writing _ | .keying | .reading | .releasing _ => false
  | _ => true

theorem Holds.plain {point : Point} (holds : Holds rt dbs s i c) (side : point.inside = c.point.inside)
    (plain : point.plain = true) : Holds rt dbs s i { c with point := point } := by
  refine ⟨by rw [side]; exact holds.lock, ?_, ?_, ?_⟩
  · rintro graph rfl
    contradiction
  · rintro (rfl | rfl) <;> contradiction
  · rintro graph rfl
    contradiction

theorem advance_locked {readable : Bool} (locked : Locked rt dbs s) (here : s.calls[i]? = some c)
    (advanced : advance rt dbs s i c readable = some s') : Locked rt dbs s' := by
  have holds := locked.calls i c here
  unfold advance at advanced
  cases at_ : c.point with
  | checking =>
    simp only [at_] at advanced
    obtain rfl := Option.some.inj advanced
    refine locked.goto here (holds.plain ?_ ?_) (by simp [at_]) <;>
      split <;> simp [at_, Point.inside, Point.plain]
  | comparing =>
    simp only [at_] at advanced
    obtain rfl := Option.some.inj advanced
    refine locked.goto here (holds.plain ?_ ?_) (by simp [at_]) <;>
      split <;> simp [at_, Point.inside, Point.plain]
  | hitting =>
    simp only [at_] at advanced
    obtain rfl := Option.some.inj advanced
    exact locked.goto here (holds.plain (by simp [at_, Point.inside]) rfl) (by simp [at_])
  | locking =>
    simp only [at_] at advanced
    obtain ⟨unlocked, moved⟩ := Option.ite_none_right_eq_some.mp advanced
    obtain rfl := Option.some.inj moved
    refine locked.move here rfl ⟨by simp [State.goto, Point.inside], nofun, by simp, nofun⟩ ?_ (.inl rfl)
      fun none => locked.keyed (unkeyed here (by simp [at_]) none)
    intro j other
    simp [State.goto, unlocked, Ne.symm other]
  | rechecking =>
    simp only [at_] at advanced
    obtain rfl := Option.some.inj advanced
    refine locked.goto here (holds.plain ?_ ?_) (by simp [at_]) <;>
      split <;> simp [at_, Point.inside, Point.plain]
  | recomparing =>
    have mine : s.lock = some i := holds.lock.mp (by simp [at_, Point.inside])
    simp only [at_] at advanced
    obtain rfl := Option.some.inj advanced
    split
    next same =>
      have others : ∀ c' ∈ s.calls, c'.point ≠ .keying := locked.alone here mine (by simp [at_])
      refine locked.goto here ⟨by simp [mine, Point.inside], nofun, fun _ => ?_, nofun⟩ (by simp [at_])
      exact locked.keyed others _ same
    next => exact locked.goto here (holds.plain (by simp [at_, Point.inside]) rfl) (by simp [at_])
  | building =>
    have mine : s.lock = some i := holds.lock.mp (by simp [at_, Point.inside])
    simp only [at_] at advanced
    obtain rfl := Option.some.inj advanced
    split
    next =>
      refine locked.goto here ⟨by simp [mine, Point.inside], ?_, by simp, nofun⟩ (by simp [at_])
      rintro graph ⟨⟩
      rfl
    next =>
      exact locked.goto here ⟨by simp [mine, Point.inside], nofun, by simp, nofun⟩ (by simp [at_])
  | writing graph =>
    have mine : s.lock = some i := holds.lock.mp (by simp [at_, Point.inside])
    simp only [at_] at advanced
    obtain rfl := Option.some.inj advanced
    obtain rfl := holds.writing graph at_
    refine locked.move here rfl ⟨by simp [State.goto, mine, Point.inside], nofun, fun _ => rfl, nofun⟩
      (fun _ _ => Iff.rfl) (.inr (by simp [at_, Point.inside])) fun none => ?_
    -- the call itself stands between its two writes
    obtain ⟨bound, -⟩ := List.getElem?_eq_some_iff.mp here
    exact absurd rfl (none _ (List.mem_of_getElem? (List.getElem?_set_self bound)))
  | keying =>
    have mine : s.lock = some i := holds.lock.mp (by simp [at_, Point.inside])
    have cached := holds.cached (.inl at_)
    simp only [at_] at advanced
    obtain rfl := Option.some.inj advanced
    refine locked.move here rfl ⟨by simp [State.goto, mine, Point.inside], nofun, fun _ => cached, nofun⟩
      (fun _ _ => Iff.rfl) (.inl rfl) fun _ url keyed => ?_
    obtain rfl := Option.some.inj keyed
    exact cached
  | reading =>
    have mine : s.lock = some i := holds.lock.mp (by simp [at_, Point.inside])
    have cached := holds.cached (.inr at_)
    simp only [at_] at advanced
    obtain rfl := Option.some.inj advanced
    refine locked.goto here ⟨by simp [mine, Point.inside], nofun, by simp, ?_⟩ (by simp [at_])
    rintro graph ⟨⟩
    exact cached
  | releasing answer =>
    have mine : s.lock = some i := holds.lock.mp (by simp [at_, Point.inside])
    simp only [at_] at advanced
    obtain rfl := Option.some.inj advanced
    refine locked.move here rfl ⟨by simp [State.goto, Point.inside], nofun, by simp, nofun⟩ ?_ (.inl rfl)
      fun none => locked.keyed (unkeyed here (by simp [at_]) none)
    intro j other
    simp [State.goto, mine, Ne.symm other]
  | done answer => simp [at_] at advanced

theorem locked_initial : Locked rt dbs {} := ⟨by simp, by simp, by simp⟩

theorem step_locked (locked : Locked rt dbs s) (stepped : step rt dbs s event = some s') :
    Locked rt dbs s' := by
  cases event with
  | call databaseUrl =>
    obtain rfl := Option.some.inj stepped
    refine ⟨fun i c found => ?_, fun i held => ?_, fun none => locked.keyed fun c member =>
      none c (List.mem_append_left _ member)⟩
    · rw [List.getElem?_append] at found
      split at found
      next old => exact (locked.calls i c found).other Iff.rfl fun _ => rfl
      next new =>
        obtain rfl := List.mem_singleton.mp (List.mem_of_getElem? found)
        have unheld : ¬ s.lock = some i := fun held => new (locked.holder i held)
        exact ⟨by simp [Point.inside, unheld], nofun, by simp, nofun⟩
    · rw [List.length_append]
      exact Nat.lt_add_right _ (locked.holder i held)
  | advance i readable =>
    obtain ⟨c, here, advanced⟩ := Option.bind_eq_some_iff.mp stepped
    exact advance_locked locked here advanced

/-- A call that is about to return without the lock finds its graph, and one that is done has
returned it. -/
structure Hits (rt : Runtime) (dbs : Databases) (s : State) (c : Call) : Prop where
  hitting : c.point = .hitting → s.cache = some (built rt dbs c.databaseUrl)
  done : ∀ graph, c.point = .done (.returned graph) → graph = some (built rt dbs c.databaseUrl)

def Right (rt : Runtime) (dbs : Databases) (s : State) : Prop := ∀ c ∈ s.calls, Hits rt dbs s c

theorem Right.move {point : Point} (right : Right rt dbs s)
    (calls : s'.calls = s.calls.set i { c with point := point })
    (own : Hits rt dbs s' { c with point := point })
    (cache : ∀ c' ∈ s.calls, c'.point = .hitting → s'.cache = some (built rt dbs c'.databaseUrl)) :
    Right rt dbs s' := by
  intro c' member
  rw [calls] at member
  rcases List.mem_or_eq_of_mem_set member with old | rfl
  · exact ⟨cache c' old, (right c' old).done⟩
  · exact own

/-- Steps to a place where nothing is returned yet, which leave the cache alone. -/
theorem Right.goto {point : Point} (right : Right rt dbs s)
    (calls : s'.calls = s.calls.set i { c with point := point }) (cache : s'.cache = s.cache)
    (hitting : point ≠ .hitting) (done : ∀ answer, point ≠ .done answer) : Right rt dbs s' :=
  right.move calls ⟨fun here => absurd here hitting, fun _ here => absurd here (done _)⟩
    fun c' member here => cache ▸ (right c' member).hitting here

theorem advance_right {readable : Bool} (locked : Locked rt dbs s) (right : Right rt dbs s)
    (here : s.calls[i]? = some c) (apart : Apart rt dbs s (.advance i readable) s')
    (advanced : advance rt dbs s i c readable = some s') : Right rt dbs s' := by
  have allowed : c.Apart rt dbs s := apart c here
  have member := List.mem_of_getElem? here
  unfold advance at advanced
  cases at_ : c.point with
  | comparing =>
    simp only [Call.Apart, at_] at advanced allowed
    obtain rfl := Option.some.inj advanced
    split
    next same =>
      refine right.move rfl ⟨fun _ => ?_, nofun⟩ fun c' old => (right c' old).hitting
      -- either a call stands between its writes, or the two globals belong together
      by_cases none : ∀ c' ∈ s.calls, c'.point ≠ .keying
      · exact locked.keyed none _ same
      · obtain ⟨c', old, keying⟩ : ∃ c' ∈ s.calls, c'.point = .keying := by
          simpa only [not_forall, not_not, exists_prop] using none
        obtain ⟨j, found⟩ := List.mem_iff_getElem?.mp old
        have cached := (locked.calls j c' found).cached (.inl keying)
        rw [allowed same c' old keying] at cached
        exact cached
    next => exact right.goto rfl rfl nofun nofun
  | hitting =>
    have cached := (right c member).hitting at_
    simp only [at_] at advanced
    obtain rfl := Option.some.inj advanced
    refine right.move rfl ⟨nofun, ?_⟩ fun c' old => (right c' old).hitting
    rintro graph ⟨⟩
    exact cached
  | writing graph =>
    simp only [Call.Apart, at_] at advanced allowed
    obtain rfl := Option.some.inj advanced
    exact right.move rfl ⟨nofun, nofun⟩ fun c' old hitting =>
      congrArg some (allowed c' old hitting).symm
  | releasing answer =>
    obtain ⟨j, found⟩ := List.mem_iff_getElem?.mp member
    have released := (locked.calls j c found).releasing
    simp only [at_] at advanced
    obtain rfl := Option.some.inj advanced
    refine right.move rfl ⟨nofun, ?_⟩ fun c' old => (right c' old).hitting
    rintro graph ⟨⟩
    exact released graph at_
  | done answer => simp [at_] at advanced
  | locking =>
    simp only [at_] at advanced
    obtain ⟨-, moved⟩ := Option.ite_none_right_eq_some.mp advanced
    obtain rfl := Option.some.inj moved
    exact right.goto rfl rfl nofun nofun
  | _ =>
    simp only [at_] at advanced
    obtain rfl := Option.some.inj advanced
    try split
    all_goals exact right.goto rfl rfl nofun nofun

theorem step_right (locked : Locked rt dbs s) (right : Right rt dbs s)
    (stepped : step rt dbs s event = some s') (apart : Apart rt dbs s event s') : Right rt dbs s' := by
  cases event with
  | call databaseUrl =>
    obtain rfl := Option.some.inj stepped
    intro c member
    rcases List.mem_append.mp member with old | new
    · exact ⟨(right c old).hitting, (right c old).done⟩
    · obtain rfl := List.mem_singleton.mp new
      exact ⟨nofun, nofun⟩
  | advance i readable =>
    obtain ⟨c, here, advanced⟩ := Option.bind_eq_some_iff.mp stepped
    exact advance_right locked right here apart advanced

/-- A call about to return without the lock returns what is cached. -/
theorem hitting_wrong {j : Nat} {other : Call} {graph : Graph} (found : s.calls[j]? = some other)
    (hitting : other.point = .hitting) (cache : s.cache = some graph)
    (differs : built rt dbs other.databaseUrl ≠ graph) :
    ∃ t, step rt dbs s (.advance j) = some t ∧ ¬ Coherent rt dbs t := by
  refine ⟨s.goto j other (.done (.returned s.cache)), by simp [step, found, advance, hitting], ?_⟩
  intro coherent
  obtain ⟨bound, -⟩ := List.getElem?_eq_some_iff.mp found
  have returned := coherent _ (List.mem_of_getElem? (List.getElem?_set_self bound)) s.cache rfl
  exact differs (Option.some.inj (returned.symm.trans cache))

/-- After a step that is not apart, the next one can return the graph of another database. -/
theorem step_wrong (locked : Locked rt dbs s) (stepped : step rt dbs s event = some s')
    (violated : ¬ Apart rt dbs s event s') :
    ∃ j t, step rt dbs s' (.advance j) = some t ∧ ¬ Coherent rt dbs t := by
  cases event with
  | call databaseUrl => exact absurd trivial violated
  | advance i readable =>
    obtain ⟨c, here, advanced⟩ := Option.bind_eq_some_iff.mp stepped
    obtain ⟨bound, -⟩ := List.getElem?_eq_some_iff.mp here
    simp only [Apart, here, Option.mem_def, Option.some.injEq, forall_eq', Call.Apart] at violated
    unfold advance at advanced
    cases at_ : c.point with
    | comparing =>
      simp only [at_, Classical.not_imp, not_forall] at violated advanced
      obtain ⟨same, writer, member, keying, differs⟩ := violated
      obtain rfl := Option.some.inj advanced
      obtain ⟨k, found⟩ := List.mem_iff_getElem?.mp member
      have cached := (locked.calls k writer found).cached (.inl keying)
      rw [if_pos same]
      exact ⟨i, hitting_wrong (List.getElem?_set_self bound) rfl cached (Ne.symm differs)⟩
    | writing graph =>
      simp only [at_, not_forall, exists_prop] at violated advanced
      obtain ⟨reader, member, hitting, differs⟩ := violated
      obtain rfl := Option.some.inj advanced
      obtain ⟨j, found⟩ := List.mem_iff_getElem?.mp member
      have other : i ≠ j := by
        rintro rfl
        obtain rfl := Option.some.inj (found.symm.trans here)
        simp [at_] at hitting
      exact ⟨j, hitting_wrong ((List.getElem?_set_ne other).trans found) hitting rfl differs⟩
    | _ => simp [at_] at violated

/-- In every run whose steps are apart, every call returns the graph of its own database, and
behind a step that is not, the next step can return another's. -/
theorem graphs_coherent (rt : Runtime) (dbs : Databases) {events : List Event} {s : State}
    (run : (machine rt dbs).exec {} events = some s) :
    ((machine rt dbs).Along (Apart rt dbs) {} events → Coherent rt dbs s) ∧
      ∀ event s', (machine rt dbs).step s event = some s' → ¬ Apart rt dbs s event s' →
        ∃ j t, (machine rt dbs).step s' (.advance j) = some t ∧ ¬ Coherent rt dbs t := by
  have locked : Locked rt dbs s :=
    Machine.invariant (Locked rt dbs) (fun _ _ _ => step_locked) locked_initial run
  refine ⟨fun along => ?_, fun event s' => step_wrong locked⟩
  have right : Locked rt dbs s ∧ Right rt dbs s :=
    Machine.invariant_along (fun s => Locked rt dbs s ∧ Right rt dbs s)
      (fun _ _ _ keep stepped apart => ⟨step_locked keep.1 stepped, step_right keep.1 keep.2 stepped apart⟩)
      ⟨locked_initial, nofun⟩ along run
  exact fun c member => (right.2 c member).done

/-- The second call looks at the two globals between the two writes of the first. -/
def overlapping : List Event :=
  [.call (some "sqlite:///shop.db"), .call none] ++ List.replicate 5 (.advance 0) ++
    List.replicate 2 (.advance 1) ++ List.replicate 3 (.advance 0) ++ List.replicate 8 (.advance 1)

theorem graphs_coherent_overlapping :
    ∃ s, (machine Runtime.ascii SchemaContext.shop).exec {} overlapping = some s ∧
      (∀ c ∈ s.calls, ∃ graph, c.point = .done (.returned graph)) ∧
      Coherent Runtime.ascii SchemaContext.shop s := by
  have ends : ((machine Runtime.ascii SchemaContext.shop).exec {} overlapping).any (fun s =>
      s.calls.all fun c => c.point matches .done (.returned _)) = true := by decide +kernel
  obtain ⟨s, run, done⟩ := (Option.any_eq_true _ _).mp ends
  refine ⟨s, run, fun c member => ?_, (graphs_coherent _ _ run).1 (by decide +kernel)⟩
  have returned := List.all_eq_true.mp done c member
  split at returned
  next graph point => exact ⟨graph, point⟩
  next => contradiction

/-- The second call has compared and has not returned yet when the third writes its graph. -/
def overtaken : List Event :=
  .call (some "sqlite:///shop.db") :: List.replicate 8 (.advance 0) ++
  .call (some "sqlite:///shop.db") :: List.replicate 2 (.advance 1) ++
  .call none :: List.replicate 7 (.advance 2) ++ [.advance 1]

/-- It returns the graph of the other database, which has none of its tables. -/
theorem other_graph_returned : ∃ s, (machine Runtime.ascii SchemaContext.shop).exec {} overtaken = some s ∧
    s.calls[1]? = some ⟨some "sqlite:///shop.db", .done (.returned (some []))⟩ ∧
    built Runtime.ascii SchemaContext.shop (some "sqlite:///shop.db") ≠ [] := by
  have run : ((machine Runtime.ascii SchemaContext.shop).exec {} overtaken).bind (·.calls[1]?) =
      some ⟨some "sqlite:///shop.db", .done (.returned (some []))⟩ := by decide +kernel
  obtain ⟨s, executed, second⟩ := Option.bind_eq_some_iff.mp run
  exact ⟨s, executed, second, by decide +kernel⟩

/-- A call that nobody interrupts, at an idle cache, is `_build_graph`. -/
theorem alone_builds (cache : Option Cache) (databaseUrl : Option String) :
    ∃ n, ((machine rt dbs).exec ⟨cache.map Cache.graph, cache.map Cache.url, none, [{ databaseUrl }]⟩
        (List.replicate n (.advance 0))) =
      some ⟨some (buildGraph rt dbs cache databaseUrl).graph, some (buildGraph rt dbs cache databaseUrl).url,
        none, [⟨databaseUrl, .done (.returned (some (buildGraph rt dbs cache databaseUrl).graph))⟩]⟩ := by
  cases cache with
  | none => exact ⟨8, rfl⟩
  | some c =>
    by_cases same : c.url = dbs.url databaseUrl
    · refine ⟨3, ?_⟩
      simp [Machine.exec, machine, step, advance, State.goto, buildGraph, same]
    · refine ⟨10, ?_⟩
      simp [Machine.exec, machine, step, advance, State.goto, buildGraph, same, built]

end

end GraphCache
end Nl2SqlAgent

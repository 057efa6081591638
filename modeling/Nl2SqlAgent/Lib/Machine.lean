import Mathlib.Data.List.Basic
import Mathlib.Data.Nat.Find
import Mathlib.Order.Monotone.Basic

/-! Machines whose nondeterminism is in the event: a step is a partial function
of a state and an event, a run is a list of events. Conditions on the steps of a
run are predicates on state, event and successor. -/
namespace Lib

structure Machine (σ : Type u) (ε : Type v) where
  step : σ → ε → Option σ

namespace Machine

def exec (m : Machine σ ε) : σ → List ε → Option σ
  | s, [] => some s
  | s, event :: rest => (m.step s event).bind fun next => exec m next rest

/-- Every step of the run satisfies `condition`. A refused event ends the run. -/
def Along (m : Machine σ ε) (condition : σ → ε → σ → Prop) : σ → List ε → Prop
  | _, [] => True
  | s, event :: rest => ∀ next, m.step s event = some next →
      condition s event next ∧ Along m condition next rest

variable {m : Machine σ ε} {condition : σ → ε → σ → Prop}

@[simp] theorem exec_nil : m.exec s [] = some s := rfl

theorem exec_cons : m.exec s (event :: rest) = (m.step s event).bind fun t => m.exec t rest := rfl

theorem exec_cons_some :
    m.exec s (event :: rest) = some t ↔ ∃ next, m.step s event = some next ∧
      m.exec next rest = some t := by
  simp only [exec_cons, Option.bind_eq_some_iff]

theorem exec_append (xs ys : List ε) :
    m.exec s (xs ++ ys) = (m.exec s xs).bind fun t => m.exec t ys := by
  induction xs generalizing s with
  | nil => rfl
  | cons event rest ih => simp only [List.cons_append, exec_cons, Option.bind_assoc, ih]

theorem exec_append_some (xs ys : List ε) :
    m.exec s (xs ++ ys) = some u ↔ ∃ t, m.exec s xs = some t ∧ m.exec t ys = some u := by
  simp only [exec_append, Option.bind_eq_some_iff]

theorem exec_singleton : m.exec s [event] = m.step s event := by
  simp [exec_cons]

@[simp] theorem along_nil : m.Along condition s [] := trivial

theorem along_cons (stepped : m.step s event = some next) :
    m.Along condition s (event :: rest) ↔ condition s event next ∧ m.Along condition next rest := by
  constructor
  · exact fun along => along next stepped
  · intro parts other taken
    obtain rfl : next = other := Option.some.inj (stepped.symm.trans taken)
    exact parts

instance instDecidableAlong (m : Machine σ ε) (condition : σ → ε → σ → Prop)
    [∀ s e t, Decidable (condition s e t)] : ∀ s events, Decidable (m.Along condition s events)
  | _, [] => isTrue trivial
  | s, event :: rest =>
    match taken : m.step s event with
    | none => isTrue fun next other => by simp [taken] at other
    | some next =>
      have := instDecidableAlong m condition next rest
      decidable_of_iff _ (along_cons taken).symm

theorem along_true : m.Along (fun _ _ _ => True) s events := by
  induction events generalizing s with
  | nil => trivial
  | cons event rest ih => exact fun _ _ => ⟨trivial, ih⟩

theorem along_of_events {allowed : ε → Prop} (all : ∀ event ∈ events, allowed event) :
    m.Along (fun _ event _ => allowed event) s events := by
  induction events generalizing s with
  | nil => trivial
  | cons event rest ih =>
    exact fun _ _ => ⟨all event List.mem_cons_self,
      ih fun other member => all other (List.mem_cons_of_mem _ member)⟩

theorem Along.mono (along : m.Along condition s events)
    (weaker : ∀ s e t, condition s e t → other s e t) : m.Along other s events := by
  induction events generalizing s with
  | nil => trivial
  | cons event rest ih =>
    intro next taken
    obtain ⟨here, later⟩ := along next taken
    exact ⟨weaker _ _ _ here, ih later⟩

/-- An invariant that every step meeting the condition keeps holds at the end of
every run whose steps all meet it. -/
theorem invariant_along (property : σ → Prop)
    (preserved : ∀ s e t, property s → m.step s e = some t → condition s e t → property t)
    (initial : property s) (along : m.Along condition s events)
    (run : m.exec s events = some t) : property t := by
  induction events generalizing s with
  | nil =>
    obtain rfl := Option.some.inj run
    exact initial
  | cons event rest ih =>
    obtain ⟨next, stepped, later⟩ := exec_cons_some.mp run
    obtain ⟨here, after⟩ := along next stepped
    exact ih (preserved _ _ _ initial stepped here) after later

theorem invariant (property : σ → Prop)
    (preserved : ∀ s e t, property s → m.step s e = some t → property t)
    (initial : property s) (run : m.exec s events = some t) : property t :=
  invariant_along property (fun s e t keep taken _ => preserved s e t keep taken) initial
    along_true run

/-- What every step does from a state with the invariant, every step of a run does. -/
theorem along_of_invariant (property : σ → Prop)
    (preserved : ∀ s e t, property s → m.step s e = some t → condition s e t → property t)
    (implied : ∀ s e t, property s → m.step s e = some t → condition s e t → other s e t)
    (initial : property s) (along : m.Along condition s events) : m.Along other s events := by
  induction events generalizing s with
  | nil => trivial
  | cons event rest ih =>
    intro next stepped
    obtain ⟨here, later⟩ := along next stepped
    exact ⟨implied _ _ _ initial stepped here, ih (preserved _ _ _ initial stepped here) later⟩

/-- Two conditions that agree on the steps from states with the invariant, which either
keeps, hold along the same runs. -/
theorem along_iff_of_invariant (property : σ → Prop)
    (preserved : ∀ s e t, property s → m.step s e = some t → condition s e t → property t)
    (agree : ∀ s e t, property s → m.step s e = some t → (condition s e t ↔ other s e t))
    (initial : property s) : m.Along condition s events ↔ m.Along other s events := by
  constructor
  · intro along
    exact along_of_invariant property preserved
      (fun s e t keep taken holds => (agree s e t keep taken).mp holds) initial along
  · intro along
    exact along_of_invariant property
      (fun s e t keep taken holds => preserved s e t keep taken ((agree s e t keep taken).mpr holds))
      (fun s e t keep taken holds => (agree s e t keep taken).mpr holds) initial along

/-- What no step brings about held from the start of a run that ends with it. -/
theorem holds_before (property : σ → Prop)
    (back : ∀ s e t, m.step s e = some t → property t → property s)
    (run : m.exec s events = some t) (final : property t) : property s := by
  induction events generalizing s with
  | nil =>
    obtain rfl := Option.some.inj run
    exact final
  | cons event rest ih =>
    obtain ⟨next, stepped, later⟩ := exec_cons_some.mp run
    exact back s event next stepped (ih later)

/-- It then holds after every step if it holds at the end. -/
theorem along_iff_final (property : σ → Prop)
    (back : ∀ s e t, m.step s e = some t → property t → property s) (initial : property s)
    (run : m.exec s events = some t) :
    m.Along (fun _ _ next => property next) s events ↔ property t := by
  constructor
  · intro along
    exact invariant_along property (fun _ _ _ _ _ holds => holds) initial along run
  · intro final
    induction events generalizing s with
    | nil => trivial
    | cons event rest ih =>
      obtain ⟨next, stepped, later⟩ := exec_cons_some.mp run
      have here := holds_before property back later final
      exact (along_cons stepped).mpr ⟨here, ih here later⟩

/-- A rank that every step lowers bounds the length of a run. -/
theorem length_le_rank (rank : σ → Nat) (lowers : ∀ s e t, m.step s e = some t → rank t < rank s)
    (run : m.exec s events = some t) : events.length + rank t ≤ rank s := by
  induction events generalizing s with
  | nil =>
    obtain rfl := Option.some.inj run
    simp
  | cons event rest ih =>
    obtain ⟨next, stepped, later⟩ := exec_cons_some.mp run
    have here := lowers s event next stepped
    have after := ih later
    simp only [List.length_cons]
    omega

/-- The machine driven by events that carry more than it reads. -/
def relabel (m : Machine σ ε) (label : δ → ε) : Machine σ δ := ⟨fun s event => m.step s (label event)⟩

theorem relabel_exec (label : δ → ε) (s : σ) (events : List δ) :
    (m.relabel label).exec s events = m.exec s (events.map label) := by
  induction events generalizing s with
  | nil => rfl
  | cons event rest ih =>
    simp only [List.map_cons, exec_cons]
    exact congrArg (Option.bind (m.step s (label event))) (funext fun next => ih next)

/-- The machine with a note beside its state, taken of the step just made. -/
def noted (m : Machine σ ε) (note : σ → ε → σ → ν → ν) : Machine (σ × ν) ε :=
  ⟨fun s event => (m.step s.1 event).map fun t => (t, note s.1 event t s.2)⟩

theorem noted_step {note : σ → ε → σ → ν → ν} {s t : σ × ν} :
    (m.noted note).step s event = some t ↔
      m.step s.1 event = some t.1 ∧ t.2 = note s.1 event t.1 s.2 := by
  constructor
  · intro stepped
    obtain ⟨next, taken, rfl⟩ := Option.map_eq_some_iff.mp stepped
    exact ⟨taken, rfl⟩
  · rintro ⟨taken, same⟩
    exact Option.map_eq_some_iff.mpr ⟨t.1, taken, by rw [← same]⟩

theorem noted_exec (note : σ → ε → σ → ν → ν) (s : σ × ν) (events : List ε) :
    ((m.noted note).exec s events).map Prod.fst = m.exec s.1 events := by
  induction events generalizing s with
  | nil => rfl
  | cons event rest ih =>
    cases taken : m.step s.1 event with
    | none => simp [exec_cons, noted, taken]
    | some next => simpa [exec_cons, noted, taken] using ih (next, note s.1 event next s.2)

/-- A condition along a run holds along it when notes are taken. -/
theorem Along.noted {note : σ → ε → σ → ν → ν} {s : σ × ν} (along : m.Along condition s.1 events) :
    (m.noted note).Along (fun s event t => condition s.1 event t.1) s events := by
  induction events generalizing s with
  | nil => trivial
  | cons event rest ih =>
    intro next stepped
    obtain ⟨here, later⟩ := along next.1 (noted_step.mp stepped).1
    exact ⟨here, ih later⟩

theorem noted_run {note : σ → ε → σ → ν → ν} {s t : σ × ν}
    (run : (m.noted note).exec s events = some t) : m.exec s.1 events = some t.1 := by
  rw [← noted_exec note s events, run]
  rfl

end Machine

/-- Where the steps lead, the `n`-th being the behaviour's. -/
def orbit (next : Nat → σ → σ) (s : σ) : Nat → σ
  | 0 => s
  | n + 1 => next n (orbit next s n)

/-- The orbit comes to its end with its `n`-th step, and not before. -/
structure EndsAt (next : Nat → σ → σ) (done : σ → Prop) (s : σ) (n : Nat) : Prop where
  ended : done (orbit next s n)
  before : ∀ k < n, ¬ done (orbit next s k)

section Orbit

variable {next : Nat → σ → σ} {done : σ → Prop} {s : σ}

/-- A rank that every step lowers until the end brings the orbit there within it. -/
theorem exists_endsAt (rank : σ → Nat) [DecidablePred done]
    (lowers : ∀ n s, ¬ done s → rank (next n s) < rank s) :
    ∃ n ≤ rank s, EndsAt next done s n := by
  have descends (n : Nat) (open_ : ∀ k < n, ¬ done (orbit next s k)) :
      n + rank (orbit next s n) ≤ rank s := by
    induction n with
    | zero => simp [orbit]
    | succ n ih =>
      have before := ih fun k lt => open_ k (Nat.lt_succ_of_lt lt)
      have here : rank (orbit next s (n + 1)) < rank (orbit next s n) :=
        lowers n _ (open_ n (Nat.lt_succ_self n))
      omega
  have ends : ∃ n, done (orbit next s n) := by
    by_contra never
    simp only [not_exists] at never
    have long := descends (rank s + 1) fun k _ => never k
    omega
  have first := fun k lt => Nat.find_min ends (m := k) lt
  have short := descends (Nat.find ends) first
  exact ⟨Nat.find ends, by omega, Nat.find_spec ends, first⟩

theorem orbit_shift (n : Nat) :
    orbit next s (n + 1) = orbit (fun k => next (k + 1)) (next 0 s) n := by
  induction n with
  | zero => rfl
  | succ n ih =>
    rw [orbit, ih]
    rfl

/-- A run whose steps are, through a view, allowed ones is an orbit of these. -/
theorem Machine.exec_orbit {m : Machine σ ε} (view : σ → τ) (allowed : (τ → τ) → Prop)
    {f : τ → τ} (allows : allowed f)
    (steps : ∀ s e t, m.step s e = some t → ∃ g, allowed g ∧ g (view s) = view t)
    {s t : σ} {events : List ε} (run : m.exec s events = some t) :
    ∃ next : Nat → τ → τ, (∀ n, allowed (next n)) ∧
      orbit next (view s) events.length = view t := by
  induction events generalizing s with
  | nil =>
    obtain rfl := Option.some.inj run
    exact ⟨fun _ => f, fun _ => allows, rfl⟩
  | cons event rest ih =>
    obtain ⟨mid, stepped, later⟩ := Machine.exec_cons_some.mp run
    obtain ⟨g, first, here⟩ := steps s event mid stepped
    obtain ⟨next, follow, reached⟩ := ih later
    refine ⟨fun | 0 => g | n + 1 => next n, fun | 0 => first | n + 1 => follow n, ?_⟩
    rw [List.length_cons, orbit_shift]
    simpa only [here] using reached

theorem orbit_invariant (property : σ → Prop) (preserved : ∀ n s, property s → property (next n s))
    (initial : property s) (n : Nat) : property (orbit next s n) := by
  induction n with
  | zero => exact initial
  | succ n ih => exact preserved n _ ih

/-- A rank that no step raises and that some later step lowers, as long as the end is not
reached, brings the orbit there. -/
theorem exists_endsAt_of_recurring (rank : σ → Nat) [DecidablePred done]
    (falls : ∀ n, rank (orbit next s (n + 1)) ≤ rank (orbit next s n))
    (recurs : ∀ n, ¬ done (orbit next s n) →
      ∃ m ≥ n, rank (orbit next s (m + 1)) < rank (orbit next s m)) : ∃ n, EndsAt next done s n := by
  have antitone : Antitone fun n => rank (orbit next s n) := antitone_nat_of_succ_le falls
  have descends (bound n : Nat) (below : rank (orbit next s n) ≤ bound) :
      ∃ m, done (orbit next s m) := by
    induction bound generalizing n with
    | zero =>
      by_contra never
      obtain ⟨m, later, lower⟩ := recurs n fun reached => never ⟨n, reached⟩
      have still : rank (orbit next s m) ≤ rank (orbit next s n) := antitone later
      omega
    | succ bound ih =>
      by_cases reached : done (orbit next s n)
      · exact ⟨n, reached⟩
      obtain ⟨m, later, lower⟩ := recurs n reached
      have still : rank (orbit next s m) ≤ rank (orbit next s n) := antitone later
      exact ih (m + 1) (by omega)
  have ends := descends _ 0 le_rfl
  exact ⟨Nat.find ends, Nat.find_spec ends, fun k lt => Nat.find_min ends lt⟩

/-- A credit that pays for each step of one kind bounds how many of them there are. -/
theorem count_le_credit (credit : σ → Nat) (counted : σ → Bool)
    (pays : ∀ n s, ¬ done s → credit (next n s) + (counted s).toNat ≤ credit s) {n : Nat}
    (before : ∀ k < n, ¬ done (orbit next s k)) :
    (List.range n).countP (fun k => counted (orbit next s k)) + credit (orbit next s n) ≤ credit s := by
  induction n with
  | zero => simp [orbit]
  | succ n ih =>
    have earlier := ih fun k lt => before k (Nat.lt_succ_of_lt lt)
    have here : credit (orbit next s (n + 1)) + (counted (orbit next s n)).toNat ≤
        credit (orbit next s n) := pays n _ (before n (Nat.lt_succ_self n))
    rw [List.range_succ, List.countP_append, List.countP_singleton]
    cases paid : counted (orbit next s n) with
    | true =>
      rw [paid] at here
      simp only [Bool.toNat_true, if_true] at here ⊢
      omega
    | false =>
      rw [paid] at here
      simp only [Bool.toNat_false] at here
      simp only [Bool.false_eq_true, if_false]
      omega

/-- A credit that each step spends at most on what is counted is spent on it by the end. -/
theorem credit_le_count (credit : σ → Nat) (counted : σ → Bool)
    (spends : ∀ n s, ¬ done s → credit s ≤ credit (next n s) + (counted s).toNat) {n : Nat}
    (before : ∀ k < n, ¬ done (orbit next s k)) :
    credit s ≤ (List.range n).countP (fun k => counted (orbit next s k)) + credit (orbit next s n) := by
  induction n with
  | zero => simp [orbit]
  | succ n ih =>
    have earlier := ih fun k lt => before k (Nat.lt_succ_of_lt lt)
    have here : credit (orbit next s n) ≤
        credit (orbit next s (n + 1)) + (counted (orbit next s n)).toNat :=
      spends n _ (before n (Nat.lt_succ_self n))
    rw [List.range_succ, List.countP_append, List.countP_singleton]
    cases paid : counted (orbit next s n) with
    | true =>
      rw [paid] at here
      simp only [Bool.toNat_true, if_true] at here ⊢
      omega
    | false =>
      rw [paid] at here
      simp only [Bool.toNat_false] at here
      simp only [Bool.false_eq_true, if_false]
      omega

end Orbit
end Lib

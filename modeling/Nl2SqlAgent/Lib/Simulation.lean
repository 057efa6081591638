import Mathlib.Data.List.Forall2
import Nl2SqlAgent.Lib.Interleave

/-! Simulations between two systems of threads, effect by effect: related effects in related
worlds have related answers, after which related programs go on. Every run of the one is then a
run of the other with the same turns. -/
namespace Lib

variable {E E' : Type} {R : E → Type} {R' : E' → Type}

/-- Which effects of two systems belong together, and which of their answers. -/
structure Bridge (E : Type) (R : E → Type) (E' : Type) (R' : E' → Type) where
  effects : E → E' → Prop
  answers : (e : E) → (e' : E') → R e → R' e' → Prop

section Options

variable {rel : α → β → Prop} {later : γ → δ → Prop} {x : Option α} {y : Option β}

theorem rel_cases (related : Option.Rel rel x y) :
    (x = none ∧ y = none) ∨ ∃ a b, x = some a ∧ y = some b ∧ rel a b := by
  cases related with
  | none => exact .inl ⟨rfl, rfl⟩
  | some same => exact .inr ⟨_, _, rfl, rfl, same⟩

theorem rel_bind {f : α → Option γ} {g : β → Option δ} (related : Option.Rel rel x y)
    (next : ∀ a b, rel a b → Option.Rel later (f a) (g b)) :
    Option.Rel later (x.bind f) (y.bind g) := by
  cases related with
  | none => exact .none
  | some same => exact next _ _ same

theorem rel_map {f : α → γ} {g : β → δ} (related : Option.Rel rel x y)
    (next : ∀ a b, rel a b → later (f a) (g b)) : Option.Rel later (x.map f) (y.map g) := by
  cases related with
  | none => exact .none
  | some same => exact .some (next _ _ same)

theorem rel_mono {wide : α → β → Prop} (related : Option.Rel rel x y)
    (wider : ∀ a b, rel a b → wide a b) : Option.Rel wide x y := by
  cases related with
  | none => exact .none
  | some same => exact .some (wider _ _ same)

end Options

namespace Prog

variable {bridge : Bridge E R E' R'} {post : α → β → Prop}

/-- The programs come to related effects as long as they get related answers, and return what
`post` relates. -/
def Matches (bridge : Bridge E R E' R') (post : α → β → Prop) : Prog E R α → Prog E' R' β → Prop
  | ret a, ret b => post a b
  | act e k, act e' k' =>
    bridge.effects e e' ∧ ∀ r r', bridge.answers e e' r r' → (k r).Matches bridge post (k' r')
  | _, _ => False

theorem matches_bind {p : Prog E R α} {q : Prog E' R' β} {f : α → Prog E R γ} {g : β → Prog E' R' δ}
    {later : γ → δ → Prop} (first : p.Matches bridge post q)
    (rest : ∀ a b, post a b → (f a).Matches bridge later (g b)) :
    (p >>= f).Matches bridge later (q >>= g) := by
  induction p generalizing q with
  | ret a =>
    cases q with
    | ret b => exact rest a b first
    | act => exact absurd first id
  | act e k ih =>
    cases q with
    | ret => exact absurd first id
    | act e' k' => exact ⟨first.1, fun r r' same => ih r (first.2 r r' same)⟩

end Prog

namespace Threads

variable {σ τ D D' C X : Type}

/-- What relates the systems, with what each has to keep of it. -/
structure Simulation (sys : Threads E R σ D C X) (abs : Threads E' R' τ D' C X) where
  bridge : Bridge E R E' R'
  world : σ → τ → Prop
  desc : D → D' → Prop
  body : ∀ {d d'}, desc d d' → (sys.body d).Matches bridge (fun _ _ => True) (abs.body d')
  perform : ∀ {w v e e'}, world w v → bridge.effects e e' → ∀ choice,
    Option.Rel (fun p q => world p.1 q.1 ∧ bridge.answers e e' p.2.1 q.2.1 ∧
      List.Forall₂ desc p.2.2 q.2.2) (sys.perform w choice e) (abs.perform v choice e')
  arrive : ∀ {w v d d'}, world w v → desc d d' → Option.Rel world (sys.arrive w d) (abs.arrive v d')
  ambient : ∀ {w v x}, world w v → Option.Rel world (sys.ambient w x) (abs.ambient v x)

namespace Simulation

variable {sys : Threads E R σ D C X} {abs : Threads E' R' τ D' C X}

/-- Threads of related descriptors, with programs that match. -/
def SameThread (sim : Simulation sys abs) (t : Thread E R D) (u : Thread E' R' D') : Prop :=
  sim.desc t.desc u.desc ∧ t.rest.Matches sim.bridge (fun _ _ => True) u.rest

structure Same (sim : Simulation sys abs) (c : Config E R σ D) (c' : Config E' R' τ D') : Prop where
  world : sim.world c.world c'.world
  pool : List.Forall₂ sim.SameThread c.pool c'.pool

/-- The same turn, or arrivals of related descriptors. -/
def SameEvent (sim : Simulation sys abs) : Event D C X → Event D' C X → Prop
  | .run pid choice, .run pid' choice' => pid = pid' ∧ choice = choice'
  | .arrive d, .arrive d' => sim.desc d d'
  | .ambient x, .ambient x' => x = x'
  | _, _ => False

variable (sim : Simulation sys abs)

theorem same_getElem? {ts : List (Thread E R D)} {us : List (Thread E' R' D')}
    (pool : List.Forall₂ sim.SameThread ts us) (i : Nat) :
    Option.Rel sim.SameThread ts[i]? us[i]? := by
  induction pool generalizing i with
  | nil => exact .none
  | cons first _ ih =>
    cases i with
    | zero => exact .some first
    | succ i => exact ih i

theorem same_set {ts : List (Thread E R D)} {us : List (Thread E' R' D')} {t : Thread E R D}
    {u : Thread E' R' D'} (pool : List.Forall₂ sim.SameThread ts us) (same : sim.SameThread t u)
    (i : Nat) : List.Forall₂ sim.SameThread (ts.set i t) (us.set i u) := by
  induction pool generalizing i with
  | nil => exact .nil
  | cons first rest ih =>
    cases i with
    | zero => exact .cons same rest
    | succ i => exact .cons first (ih i)

theorem same_started {ds : List D} {ds' : List D'} (forks : List.Forall₂ sim.desc ds ds') :
    List.Forall₂ sim.SameThread (ds.map sys.start) (ds'.map abs.start) := by
  induction forks with
  | nil => exact .nil
  | cons first _ ih => exact .cons ⟨first, sim.body first⟩ ih

/-- A turn of related threads, by what is left of their programs. -/
theorem same_turn {c : Config E R σ D} {c' : Config E' R' τ D'} (same : sim.Same c c') (pid : Nat)
    (choice : C) : Option.Rel sim.Same (sys.machine.step c (.run pid choice))
      (abs.machine.step c' (.run pid choice)) := by
  simp only [machine, step]
  rcases rel_cases (sim.same_getElem? same.pool pid) with
    ⟨first, second⟩ | ⟨⟨d, p⟩, ⟨d', q⟩, first, second, descs, matching⟩
  · rw [first, second]
    exact .none
  · rw [first, second]
    cases p with
    | ret =>
      cases q with
      | ret => exact .none
      | act => exact absurd matching id
    | act e k =>
      cases q with
      | ret => exact absurd matching id
      | act e' k' =>
        dsimp only
        rcases rel_cases (sim.perform same.world matching.1 choice) with
          ⟨taken, taken'⟩ | ⟨⟨w, r, forks⟩, ⟨v, r', forks'⟩, taken, taken', world, answers, started⟩
        · rw [taken, taken']
          exact .none
        · rw [taken, taken']
          have going : sim.SameThread ⟨d, k r⟩ ⟨d', k' r'⟩ := ⟨descs, matching.2 r r' answers⟩
          exact .some ⟨world, List.rel_append (sim.same_set same.pool going pid)
            (sim.same_started started)⟩

theorem same_step {c : Config E R σ D} {c' : Config E' R' τ D'} (same : sim.Same c c')
    {event : Event D C X} {event' : Event D' C X} (events : sim.SameEvent event event') :
    Option.Rel sim.Same (sys.machine.step c event) (abs.machine.step c' event') := by
  cases event with
  | run pid choice =>
    cases event' with
    | run pid' choice' =>
      obtain ⟨rfl, rfl⟩ := events
      exact sim.same_turn same pid choice
    | _ => exact absurd events id
  | arrive d =>
    cases event' with
    | arrive d' =>
      refine rel_map (sim.arrive same.world events) fun w v world => ?_
      exact ⟨world, List.rel_append same.pool (sim.same_started (.cons events .nil))⟩
    | _ => exact absurd events id
  | ambient x =>
    cases event' with
    | ambient x' =>
      obtain rfl : x = x' := events
      exact rel_map (sim.ambient same.world) fun w v world => ⟨world, same.pool⟩
    | _ => exact absurd events id

/-- **Related runs.** The one system takes exactly the turns that the other takes, and the
configurations stay related. -/
theorem same_exec {c : Config E R σ D} {c' : Config E' R' τ D'} (same : sim.Same c c')
    {events : List (Event D C X)} {events' : List (Event D' C X)}
    (related : List.Forall₂ sim.SameEvent events events') :
    Option.Rel sim.Same (sys.machine.exec c events) (abs.machine.exec c' events') := by
  induction related generalizing c c' with
  | nil => exact .some same
  | cons first _ ih =>
    rw [Machine.exec_cons, Machine.exec_cons]
    exact rel_bind (sim.same_step same first) fun _ _ next => ih next

end Simulation
end Threads
end Lib

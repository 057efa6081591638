import Nl2SqlAgent.Lib.Machine

/-! Programs with atomic effects, run by interleaved threads over a shared world.
A thread runs one effect at a time; whatever the effect leaves open is settled by
a choice in the event. Threads are started by effects (forks) or from outside
(arrivals), both by descriptor. The proof rule is an assertion outline: every
effect keeps its own thread's assertion and those of the threads apart from it. -/
namespace Lib

/-- A program is a result, or an effect and what follows each of its answers. -/
inductive Prog (E : Type) (R : E → Type) (α : Type) : Type where
  | ret (a : α)
  | act (e : E) (k : R e → Prog E R α)

namespace Prog

variable {E : Type} {R : E → Type}

protected def bind : Prog E R α → (α → Prog E R β) → Prog E R β
  | ret a, f => f a
  | act e k, f => act e fun r => (k r).bind f

instance : Monad (Prog E R) where
  pure := ret
  bind := Prog.bind

def perform (e : E) : Prog E R (R e) := act e ret

@[simp] theorem pure_eq (a : α) : (pure a : Prog E R α) = ret a := rfl
@[simp] theorem ret_bind (a : α) (f : α → Prog E R β) : (ret a >>= f) = f a := rfl
@[simp] theorem act_bind (e : E) (k : R e → Prog E R α) (f : α → Prog E R β) :
    (act e k >>= f) = act e fun r => k r >>= f := rfl
@[simp] theorem perform_bind (e : E) (f : R e → Prog E R β) : (perform e >>= f) = act e f := rfl

theorem bind_assoc (p : Prog E R α) (f : α → Prog E R β) (g : β → Prog E R γ) :
    (p >>= f) >>= g = p >>= fun a => f a >>= g := by
  induction p with
  | ret a => rfl
  | act e k ih => simp only [act_bind, ih]

theorem bind_ret (p : Prog E R α) : p >>= ret = p := by
  induction p with
  | ret a => rfl
  | act e k ih => exact congrArg (act e) (funext ih)

/-- Nothing is left to do. -/
def ended : Prog E R α → Bool
  | ret _ => true
  | act _ _ => false

/-- What the program returns when every effect is answered so. -/
def result (answer : ∀ e, R e) : Prog E R α → α
  | ret a => a
  | act e k => (k (answer e)).result answer

/-- Every effect the program can come to, after whatever answers, satisfies `allowed`. -/
def Emits (allowed : E → Prop) : Prog E R α → Prop
  | ret _ => True
  | act e k => allowed e ∧ ∀ r, (k r).Emits allowed

@[simp] theorem emits_ret (allowed : E → Prop) (a : α) :
    (ret a : Prog E R α).Emits allowed := trivial

theorem emits_bind (allowed : E → Prop) (p : Prog E R α) (f : α → Prog E R β)
    (first : p.Emits allowed) (rest : ∀ a, (f a).Emits allowed) : (p >>= f).Emits allowed := by
  induction p with
  | ret a => exact rest a
  | act e k ih => exact ⟨first.1, fun r => ih r (first.2 r)⟩

theorem emits_perform (allowed : E → Prop) (e : E) (ok : allowed e) :
    (perform e : Prog E R (R e)).Emits allowed := ⟨ok, fun _ => trivial⟩

theorem emits_of_all {allowed : E → Prop} (all : ∀ e, allowed e) (p : Prog E R α) :
    p.Emits allowed := by
  induction p with
  | ret a => trivial
  | act e k ih => exact ⟨all e, ih⟩

theorem Emits.mono {allowed other : E → Prop} {p : Prog E R α} (emits : p.Emits allowed)
    (weaker : ∀ e, allowed e → other e) : p.Emits other := by
  induction p with
  | ret a => trivial
  | act e k ih => exact ⟨weaker e emits.1, fun r => ih r (emits.2 r)⟩

/-- Whatever the answers, the program comes to `goal` once, and else only to quiet effects. -/
def Leads (quiet : E → Prop) (goal : E) : Prog E R α → Prop
  | ret _ => False
  | act e k => (e = goal ∧ ∀ r, (k r).Emits quiet) ∨ (quiet e ∧ ∀ r, (k r).Leads quiet goal)

theorem leads_bind (quiet : E → Prop) (goal : E) (p : Prog E R α) (f : α → Prog E R β)
    (first : p.Emits quiet) (rest : ∀ a, (f a).Leads quiet goal) : (p >>= f).Leads quiet goal := by
  induction p with
  | ret a => exact rest a
  | act e k ih => exact .inr ⟨first.1, fun r => ih r (first.2 r)⟩

/-- From a point of a protocol: what may come next there, where each answer leads, and
where the program may end. -/
structure Protocol (E : Type) (R : E → Type) (P : Type) where
  allows : P → E → Prop
  next : P → (e : E) → R e → P → Prop
  final : P → Prop

/-- The program keeps to the protocol, whatever it is answered. -/
def Follows {P : Type} (protocol : Protocol E R P) : P → Prog E R α → Prop
  | p, ret _ => protocol.final p
  | p, act e k => protocol.allows p e ∧ ∀ r p', protocol.next p e r p' →
      (k r).Follows protocol p'

/-- The program keeps to the protocol, and what it returns and where it ends meet `post`. -/
def Keeps {P : Type} (protocol : Protocol E R P) (post : α → P → Prop) : P → Prog E R α → Prop
  | p, ret a => post a p
  | p, act e k => protocol.allows p e ∧ ∀ r p', protocol.next p e r p' →
      (k r).Keeps protocol post p'

section Keeps

variable {P : Type} {protocol : Protocol E R P} {p : P} {q : Prog E R α} {post : α → P → Prop}

theorem keeps_bind {f : α → Prog E R β} {later : β → P → Prop} (first : q.Keeps protocol post p)
    (rest : ∀ a p', post a p' → (f a).Keeps protocol later p') :
    (q >>= f).Keeps protocol later p := by
  induction q generalizing p with
  | ret a => exact rest a p first
  | act e k ih => exact ⟨first.1, fun r p' next => ih r (first.2 r p' next)⟩

theorem follows_bind {f : α → Prog E R β} (first : q.Keeps protocol post p)
    (rest : ∀ a p', post a p' → (f a).Follows protocol p') : (q >>= f).Follows protocol p := by
  induction q generalizing p with
  | ret a => exact rest a p first
  | act e k ih => exact ⟨first.1, fun r p' next => ih r (first.2 r p' next)⟩

theorem follows_perform {e : E} {f : R e → Prog E R β} (allowed : protocol.allows p e)
    (rest : ∀ r p', protocol.next p e r p' → (f r).Follows protocol p') :
    (perform e >>= f).Follows protocol p := ⟨allowed, rest⟩

theorem Keeps.mono {other : α → P → Prop} (keeps : q.Keeps protocol post p)
    (weaker : ∀ a p', post a p' → other a p') : q.Keeps protocol other p := by
  induction q generalizing p with
  | ret a => exact weaker a p keeps
  | act e k ih => exact ⟨keeps.1, fun r p' next => ih r (keeps.2 r p' next)⟩

theorem Keeps.follows (keeps : q.Keeps protocol post p)
    (ends : ∀ a p', post a p' → protocol.final p') : q.Follows protocol p := by
  induction q generalizing p with
  | ret a => exact ends a p keeps
  | act e k ih => exact ⟨keeps.1, fun r p' next => ih r (keeps.2 r p' next)⟩

/-- A program of effects that leave the point leaves it. -/
theorem Emits.keeps {allowed : E → Prop} (emits : q.Emits allowed)
    (stays : ∀ e, allowed e → protocol.allows p e ∧ ∀ r p', protocol.next p e r p' → p' = p) :
    q.Keeps protocol (fun _ p' => p' = p) p := by
  induction q with
  | ret a => rfl
  | act e k ih =>
    obtain ⟨may, same⟩ := stays e emits.1
    refine ⟨may, fun r p' next => ?_⟩
    obtain rfl := same r p' next
    exact ih r (emits.2 r)

end Keeps

section Embed

variable {E' : Type} {R' : E' → Type} (inj : E → E') (ans : ∀ e, R' (inj e) → R e)

/-- The program with the effects of another type, whose answers are read back. -/
def embed : Prog E R α → Prog E' R' α
  | ret a => ret a
  | act e k => act (inj e) fun r => (k (ans e r)).embed

/-- What a protocol asks of the embedded effects. -/
def Protocol.comap {P : Type} (protocol : Protocol E' R' P) : Protocol E R P where
  allows p e := protocol.allows p (inj e)
  next p e r p' := ∃ answer, ans e answer = r ∧ protocol.next p (inj e) answer p'
  final := protocol.final

theorem follows_embed {P : Type} {protocol : Protocol E' R' P} {p : P} {q : Prog E R α}
    (follows : q.Follows (protocol.comap inj ans) p) : (q.embed inj ans).Follows protocol p := by
  induction q generalizing p with
  | ret a => exact follows
  | act e k ih =>
    refine ⟨follows.1, fun r p' next => ?_⟩
    have later := follows.2 (ans e r) p' ⟨r, rfl, next⟩
    exact ih (ans e r) later

theorem keeps_embed {P : Type} {protocol : Protocol E' R' P} {p : P} {q : Prog E R α}
    {post : α → P → Prop} (keeps : q.Keeps (protocol.comap inj ans) post p) :
    (q.embed inj ans).Keeps protocol post p := by
  induction q generalizing p with
  | ret a => exact keeps
  | act e k ih =>
    refine ⟨keeps.1, fun r p' next => ?_⟩
    have later := keeps.2 (ans e r) p' ⟨r, rfl, next⟩
    exact ih (ans e r) later

theorem emits_embed {allowed : E' → Prop} {q : Prog E R α}
    (emits : q.Emits fun e => allowed (inj e)) : (q.embed inj ans).Emits allowed := by
  induction q with
  | ret a => trivial
  | act e k ih => exact ⟨emits.1, fun r => ih (ans e r) (emits.2 (ans e r))⟩

end Embed

section Recorded

/-- What a world answers to an effect, after the effects so far and their answers. -/
abbrev World (E : Type) (R : E → Type) := List ((e : E) × R e) → (e : E) → R e

/-- The effects that the program comes to in a world, behind the past ones, and its result. -/
def record (world : World E R) : List ((e : E) × R e) → Prog E R α → List ((e : E) × R e) × α
  | past, ret a => (past, a)
  | past, act e k => (k (world past e)).record world (past ++ [⟨e, world past e⟩])

/-- The point of the protocol is what has been noted of the effects and their answers. -/
def noting {P : Type} (note : P → ((e : E) × R e) → P) : Protocol E R P where
  allows _ _ := True
  next p e r p' := p' = note p ⟨e, r⟩
  final _ := True

variable {P : Type} {note : P → ((e : E) × R e) → P} {p : P} {post : α → P → Prop}

theorem keeps_note {e : E} {k : R e → Prog E R α}
    (rest : ∀ r, (k r).Keeps (noting note) post (note p ⟨e, r⟩)) :
    (act e k).Keeps (noting note) post p := by
  refine ⟨trivial, fun r p' next => ?_⟩
  rw [show p' = note p ⟨e, r⟩ from next]
  exact rest r

/-- What holds at the end whatever the answers holds at the end of each recorded run. -/
theorem Keeps.recorded {q : Prog E R α} {past : List ((e : E) × R e)} (world : World E R)
    (keeps : q.Keeps (noting note) post (past.foldl note p)) :
    post (q.record world past).2 ((q.record world past).1.foldl note p) := by
  induction q generalizing past with
  | ret a => exact keeps
  | act e k ih =>
    apply ih
    rw [List.foldl_append]
    exact keeps.2 _ _ rfl

/-- What follows a call unless it raises. -/
def andThen (q : Prog E R (Option α)) (f : α → Prog E R (Option β)) : Prog E R (Option β) :=
  q >>= fun
    | none => ret none
    | some a => f a

@[simp] theorem some_andThen (a : α) (f : α → Prog E R (Option β)) :
    (ret (some a)).andThen f = f a := rfl
@[simp] theorem none_andThen (f : α → Prog E R (Option β)) : (ret none).andThen f = ret none := rfl

theorem keeps_andThen {protocol : Protocol E R P} {q : Prog E R (Option α)}
    {f : α → Prog E R (Option β)} {post : Option α → P → Prop} {later : Option β → P → Prop}
    (first : q.Keeps protocol post p) (raises : ∀ p', post none p' → later none p')
    (returns : ∀ a p', post (some a) p' → (f a).Keeps protocol later p') :
    (q.andThen f).Keeps protocol later p := by
  refine keeps_bind first fun out p' done => ?_
  cases out with
  | none => exact raises p' done
  | some a => exact returns a p' done

theorem emits_andThen {allowed : E → Prop} {q : Prog E R (Option α)} {f : α → Prog E R (Option β)}
    (first : q.Emits allowed) (rest : ∀ a, (f a).Emits allowed) : (q.andThen f).Emits allowed := by
  refine emits_bind allowed q _ first fun out => ?_
  cases out with
  | none => trivial
  | some a => exact rest a

/-- Effects of which nothing is noted leave what is noted. -/
theorem Emits.unnoted {quiet : E → Prop} {q : Prog E R α} (emits : q.Emits quiet)
    (same : ∀ e, quiet e → ∀ r, note p ⟨e, r⟩ = p) :
    q.Keeps (noting note) (fun _ p' => p' = p) p :=
  emits.keeps fun e allowed => ⟨trivial, fun r _ next => next.trans (same e allowed r)⟩

end Recorded

end Prog

/-- What threads are, by descriptor `D`, and what effects, arrivals and ambient
moves do to the world. -/
structure Threads (E : Type) (R : E → Type) (σ D C X : Type) where
  body : D → Prog E R Unit
  perform : σ → C → (e : E) → Option (σ × R e × List D)
  arrive : σ → D → Option σ
  ambient : σ → X → Option σ

structure Thread (E : Type) (R : E → Type) (D : Type) where
  desc : D
  rest : Prog E R Unit

structure Config (E : Type) (R : E → Type) (σ D : Type) where
  world : σ
  pool : List (Thread E R D)

inductive Event (D C X : Type) where
  | run (pid : Nat) (choice : C)
  | arrive (d : D)
  | ambient (x : X)
  deriving DecidableEq, Repr

namespace Threads

variable {E : Type} {R : E → Type} {σ D C X : Type}

def start (sys : Threads E R σ D C X) (d : D) : Thread E R D := ⟨d, sys.body d⟩

def step (sys : Threads E R σ D C X) (c : Config E R σ D) :
    Event D C X → Option (Config E R σ D)
  | .run pid choice =>
    match c.pool[pid]? with
    | some ⟨d, .act e k⟩ =>
      match sys.perform c.world choice e with
      | some (w, r, forks) => some ⟨w, c.pool.set pid ⟨d, k r⟩ ++ forks.map sys.start⟩
      | none => none
    | _ => none
  | .arrive d => (sys.arrive c.world d).map fun w => ⟨w, c.pool ++ [sys.start d]⟩
  | .ambient x => (sys.ambient c.world x).map fun w => ⟨w, c.pool⟩

def machine (sys : Threads E R σ D C X) : Machine (Config E R σ D) (Event D C X) := ⟨sys.step⟩

/-- Everything a step can be. -/
theorem step_cases {sys : Threads E R σ D C X} {c c' : Config E R σ D} {event : Event D C X}
    (stepped : sys.machine.step c event = some c') :
    (∃ pid choice d e k w r forks, event = .run pid choice ∧
      c.pool[pid]? = some ⟨d, .act e k⟩ ∧ sys.perform c.world choice e = some (w, r, forks) ∧
      c' = ⟨w, c.pool.set pid ⟨d, k r⟩ ++ forks.map sys.start⟩) ∨
    (∃ d w, event = .arrive d ∧ sys.arrive c.world d = some w ∧
      c' = ⟨w, c.pool ++ [sys.start d]⟩) ∨
    (∃ x w, event = .ambient x ∧ sys.ambient c.world x = some w ∧ c' = ⟨w, c.pool⟩) := by
  change sys.step c event = some c' at stepped
  cases event with
  | run pid choice =>
    left
    simp only [step] at stepped
    split at stepped
    next d e k fetched =>
      split at stepped
      next w r forks performed =>
        exact ⟨pid, choice, d, e, k, w, r, forks, rfl, fetched, performed,
          (Option.some.inj stepped).symm⟩
      next => contradiction
    next => contradiction
  | arrive d =>
    obtain ⟨w, arrived, rfl⟩ := Option.map_eq_some_iff.mp stepped
    exact .inr (.inl ⟨d, w, rfl, arrived, rfl⟩)
  | ambient x =>
    obtain ⟨w, moved, rfl⟩ := Option.map_eq_some_iff.mp stepped
    exact .inr (.inr ⟨x, w, rfl, moved, rfl⟩)

/-- A condition on the steps of a run, by the world before the step, the acting
thread's descriptor, its effect and the answer. -/
def Meets (sys : Threads E R σ D C X) (guard : σ → D → (e : E) → R e → Prop) :
    Config E R σ D → Event D C X → Config E R σ D → Prop
  | c, .run pid choice, _ => ∀ d e k w r forks, c.pool[pid]? = some ⟨d, .act e k⟩ →
      sys.perform c.world choice e = some (w, r, forks) → guard c.world d e r
  | _, _, _ => True

theorem meets_run_iff {sys : Threads E R σ D C X} {guard : σ → D → (e : E) → R e → Prop}
    {c c' : Config E R σ D} {pid : Nat} {choice : C} {d : D} {e : E} {k : R e → Prog E R Unit}
    {w : σ} {r : R e} {forks : List D} (fetched : c.pool[pid]? = some ⟨d, .act e k⟩)
    (performed : sys.perform c.world choice e = some (w, r, forks)) :
    sys.Meets guard c (.run pid choice) c' ↔ guard c.world d e r := by
  constructor
  · exact fun meets => meets d e k w r forks fetched performed
  · intro guarded d' e' k' w' r' forks' other taken
    rw [fetched] at other
    cases other
    rw [performed] at taken
    cases taken
    exact guarded

theorem meets_true (sys : Threads E R σ D C X) (c c' : Config E R σ D) (event : Event D C X) :
    sys.Meets (fun _ _ _ _ => True) c event c' := by
  cases event with
  | run pid choice =>
    intro d e k w r forks _ _
    trivial
  | _ => trivial

theorem meets_mono {sys : Threads E R σ D C X} {guard other : σ → D → (e : E) → R e → Prop}
    {c c' : Config E R σ D} {event : Event D C X} (meets : sys.Meets guard c event c')
    (weaker : ∀ w d e r, guard w d e r → other w d e r) : sys.Meets other c event c' := by
  cases event with
  | run pid choice =>
    exact fun d e k w r forks fetched performed =>
      weaker _ _ _ _ (meets d e k w r forks fetched performed)
  | _ => trivial

instance (sys : Threads E R σ D C X) (guard : σ → D → (e : E) → R e → Prop)
    [∀ w d e r, Decidable (guard w d e r)] (c : Config E R σ D) (event : Event D C X)
    (c' : Config E R σ D) : Decidable (sys.Meets guard c event c') :=
  match event with
  | .arrive _ => isTrue trivial
  | .ambient _ => isTrue trivial
  | .run pid choice =>
    match fetched : c.pool[pid]? with
    | none => isTrue fun d e k w r forks other => by simp [fetched] at other
    | some ⟨_, .ret _⟩ => isTrue fun d e k w r forks other => by simp [fetched] at other
    | some ⟨d, .act e k⟩ =>
      match performed : sys.perform c.world choice e with
      | none => isTrue fun d' e' k' w r forks other taken => by
          rw [fetched] at other
          cases other
          rw [performed] at taken
          contradiction
      | some (w, r, forks) =>
        decidable_of_iff (guard c.world d e r) ⟨fun holds d' e' k' w' r' forks' other taken => by
          rw [fetched] at other
          cases other
          rw [performed] at taken
          cases taken
          exact holds, fun meets => meets d e k w r forks fetched performed⟩

/-- An invariant of the world that every effect meeting the guard, every arrival and every
ambient move keeps, whatever the threads are. -/
theorem world_along {sys : Threads E R σ D C X} {guard : σ → D → (e : E) → R e → Prop}
    (inv : σ → Prop)
    (performed : ∀ {w choice d e w' r forks}, inv w → guard w d e r →
      sys.perform w choice e = some (w', r, forks) → inv w')
    (arrived : ∀ {w d w'}, inv w → sys.arrive w d = some w' → inv w')
    (moved : ∀ {w x w'}, inv w → sys.ambient w x = some w' → inv w')
    {c c' : Config E R σ D} {events : List (Event D C X)} (initially : inv c.world)
    (along : sys.machine.Along (sys.Meets guard) c events)
    (executed : sys.machine.exec c events = some c') : inv c'.world := by
  refine Machine.invariant_along (fun c => inv c.world) (fun c event next holds stepped meets => ?_)
    initially along executed
  rcases step_cases stepped with
    ⟨pid, choice, d, e, k, w, r, forks, rfl, fetched, taken, rfl⟩ | ⟨d, w, rfl, taken, rfl⟩ |
    ⟨x, w, rfl, taken, rfl⟩
  · exact performed holds (meets d e k w r forks fetched taken) taken
  · exact arrived holds taken
  · exact moved holds taken

/-- Assertions for the world and for each thread, with the obligations under
which a run whose effects meet `guard` keeps them. -/
structure Outline (sys : Threads E R σ D C X) (guard : σ → D → (e : E) → R e → Prop) where
  inv : σ → Prop
  ok : σ → Thread E R D → Prop
  apart : D → D → Prop
  own : ∀ {w choice d e k w' r forks}, inv w → ok w ⟨d, .act e k⟩ → guard w d e r →
    sys.perform w choice e = some (w', r, forks) →
    inv w' ∧ ok w' ⟨d, k r⟩ ∧ ∀ f ∈ forks, ok w' (sys.start f)
  stable : ∀ {w choice d e k w' r forks t}, inv w → ok w ⟨d, .act e k⟩ → guard w d e r →
    sys.perform w choice e = some (w', r, forks) → ok w t → apart d t.desc ∧ apart t.desc d →
    ok w' t
  fork_apart : ∀ {w choice d e k w' r forks}, inv w → ok w ⟨d, .act e k⟩ →
    sys.perform w choice e = some (w', r, forks) →
    (∀ t, ok w t → ∀ f ∈ forks, apart t.desc f ∧ apart f t.desc) ∧
    forks.Pairwise fun f g => apart f g ∧ apart g f
  arrive : ∀ {w d w'}, inv w → sys.arrive w d = some w' →
    inv w' ∧ ok w' (sys.start d) ∧
    ∀ t, ok w t → ok w' t ∧ apart t.desc d ∧ apart d t.desc
  ambient : ∀ {w x w'}, inv w → sys.ambient w x = some w' → inv w' ∧ ∀ t, ok w t → ok w' t

namespace Outline

variable {sys : Threads E R σ D C X} {guard : σ → D → (e : E) → R e → Prop}

/-- The outline holds of a configuration. -/
structure Holds (o : Outline sys guard) (c : Config E R σ D) : Prop where
  world : o.inv c.world
  threads : ∀ t ∈ c.pool, o.ok c.world t
  apart : (c.pool.map Thread.desc).Pairwise fun d d' => o.apart d d' ∧ o.apart d' d

theorem holds_empty (o : Outline sys guard) (initially : o.inv w) : o.Holds ⟨w, []⟩ :=
  ⟨initially, by simp, by simp⟩

theorem apart_other (o : Outline sys guard) {c : Config E R σ D} (holds : o.Holds c)
    {i j : Nat} {t u : Thread E R D} (distinct : i ≠ j) (first : c.pool[i]? = some t)
    (second : c.pool[j]? = some u) : o.apart t.desc u.desc ∧ o.apart u.desc t.desc := by
  obtain ⟨hi, rfl⟩ := List.getElem?_eq_some_iff.mp first
  obtain ⟨hj, rfl⟩ := List.getElem?_eq_some_iff.mp second
  have pairs := List.pairwise_iff_getElem.mp (List.pairwise_map.mp holds.apart)
  rcases Nat.lt_or_gt_of_ne distinct with before | after
  · exact pairs i j hi hj before
  · exact (pairs j i hj hi after).symm

theorem desc_set {pool : List (Thread E R D)} {pid : Nat} {d : D} {p q : Prog E R Unit}
    (fetched : pool[pid]? = some ⟨d, p⟩) :
    (pool.set pid ⟨d, q⟩).map Thread.desc = pool.map Thread.desc := by
  obtain ⟨bound, eq⟩ := List.getElem?_eq_some_iff.mp fetched
  apply List.ext_getElem?
  intro i
  simp only [List.map_set, List.getElem?_set, List.getElem?_map, List.length_map]
  by_cases same : pid = i
  · subst same
    simp [bound, eq]
  · simp [same]

/-- No step takes a thread away. -/
theorem desc_kept {c c' : Config E R σ D} {event : Event D C X} {d : D}
    (stepped : sys.machine.step c event = some c') (present : d ∈ c.pool.map Thread.desc) :
    d ∈ c'.pool.map Thread.desc := by
  rcases step_cases stepped with
    ⟨pid, choice, d', e, k, w, r, forks, rfl, fetched, performed, rfl⟩ |
    ⟨d', w, rfl, arrived, rfl⟩ | ⟨x, w, rfl, moved, rfl⟩
  · rw [List.map_append, desc_set fetched]
    exact List.mem_append_left _ present
  · rw [List.map_append]
    exact List.mem_append_left _ present
  · exact present

/-- One step of a run that meets the guard keeps the outline. -/
theorem step (o : Outline sys guard) {c c' : Config E R σ D} {event : Event D C X}
    (holds : o.Holds c) (stepped : sys.machine.step c event = some c')
    (meets : sys.Meets guard c event c') : o.Holds c' := by
  rcases step_cases stepped with
    ⟨pid, choice, d, e, k, w, r, forks, rfl, fetched, performed, rfl⟩ |
    ⟨d, w, rfl, arrived, rfl⟩ | ⟨x, w, rfl, moved, rfl⟩
  · have mine := holds.threads _ (List.mem_of_getElem? fetched)
    have allowed := meets d e k w r forks fetched performed
    obtain ⟨world, self, started⟩ := o.own holds.world mine allowed performed
    obtain ⟨forkApart, forksApart⟩ := o.fork_apart holds.world mine performed
    refine ⟨world, ?_, ?_⟩
    · intro t member
      rcases List.mem_append.mp member with old | new
      · obtain ⟨i, at_i⟩ := List.mem_iff_getElem?.mp old
        rw [List.getElem?_set] at at_i
        split at at_i
        · split at at_i
          · obtain rfl := Option.some.inj at_i
            exact self
          · contradiction
        next distinct =>
          exact o.stable holds.world mine allowed performed
            (holds.threads _ (List.mem_of_getElem? at_i))
            (o.apart_other holds distinct fetched at_i)
      · obtain ⟨f, forked, rfl⟩ := List.mem_map.mp new
        exact started f forked
    · rw [List.map_append, desc_set fetched, List.map_map, List.pairwise_append]
      refine ⟨holds.apart, by simpa [Function.comp_def, start] using forksApart, ?_⟩
      intro old oldMember new newMember
      obtain ⟨t, member, rfl⟩ := List.mem_map.mp oldMember
      obtain ⟨f, forked, rfl⟩ := List.mem_map.mp newMember
      exact forkApart t (holds.threads t member) f forked
  · obtain ⟨world, started, others⟩ := o.arrive holds.world arrived
    refine ⟨world, ?_, ?_⟩
    · intro t member
      rcases List.mem_append.mp member with old | new
      · exact (others t (holds.threads t old)).1
      · rw [List.mem_singleton.mp new]
        exact started
    · rw [List.map_append, List.pairwise_append]
      refine ⟨holds.apart, by simp, ?_⟩
      intro old oldMember new newMember
      obtain ⟨t, member, rfl⟩ := List.mem_map.mp oldMember
      obtain rfl : new = d := by simpa [start] using newMember
      exact (others t (holds.threads t member)).2
  · obtain ⟨world, others⟩ := o.ambient holds.world moved
    exact ⟨world, fun t member => others t (holds.threads t member), holds.apart⟩

/-- The outline holds at the end of every run whose effects meet the guard. -/
theorem run (o : Outline sys guard) {c c' : Config E R σ D} {events : List (Event D C X)}
    (holds : o.Holds c) (along : sys.machine.Along (sys.Meets guard) c events)
    (executed : sys.machine.exec c events = some c') : o.Holds c' :=
  Machine.invariant_along o.Holds (fun _ _ _ keeps stepped meets => o.step keeps stepped meets)
    holds along executed

end Outline
end Threads
end Lib

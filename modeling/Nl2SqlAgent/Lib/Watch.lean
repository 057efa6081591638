import Nl2SqlAgent.Lib.Interleave

/-! Notes that are taken beside a run of threads, though no program keeps or reads them:
what a thread does is noted under its descriptor. Taking notes changes no run. -/
namespace Lib

namespace Prog

variable {E D : Type} {R : E → Type}

/-- The program with its effects under a descriptor. -/
def tag (d : D) (p : Prog E R α) : Prog (D × E) (fun e => R e.2) α :=
  p.embed (Prod.mk d) fun _ r => r

def untag : Prog (D × E) (fun e => R e.2) α → Prog E R α
  | ret a => ret a
  | act e k => act e.2 fun r => (k r).untag

@[simp] theorem untag_tag (d : D) (p : Prog E R α) : (p.tag d).untag = p := by
  induction p with
  | ret a => rfl
  | act e k ih => exact congrArg (act e) (funext ih)

/-- The protocol of a program whose effects all stand under one descriptor. -/
def Protocol.tagged {P : Type} (protocol : Protocol E R P) (d : D) :
    Protocol (D × E) (fun e => R e.2) P where
  allows p e := e.1 = d ∧ protocol.allows p e.2
  next p e r p' := protocol.next p e.2 r p'
  final := protocol.final

theorem follows_tag {P : Type} {protocol : Protocol E R P} {p : P} {q : Prog E R α} (d : D)
    (follows : q.Follows protocol p) : (q.tag d).Follows (protocol.tagged d) p := by
  induction q generalizing p with
  | ret a => exact follows
  | act e k ih => exact ⟨⟨rfl, follows.1⟩, fun r p' next => ih r (follows.2 r p' next)⟩

end Prog

variable {E D σ C X Γ : Type} {R : E → Type}

/-- What is noted of an effect, an arrival and an ambient move, by the world before. -/
structure Notes (E : Type) (R : E → Type) (σ D X Γ : Type) where
  run : σ → Γ → D → (e : E) → R e → Γ
  arrive : σ → Γ → D → Γ := fun _ g _ => g
  ambient : σ → Γ → X → Γ := fun _ g _ => g

/-- The configuration without the notes. -/
def Config.forget (c : Config (D × E) (fun e => R e.2) (σ × Γ) D) : Config E R σ D :=
  ⟨c.world.1, c.pool.map fun t => ⟨t.desc, t.rest.untag⟩⟩

namespace Threads

variable (sys : Threads E R σ D C X) (notes : Notes E R σ D X Γ)

def watched : Threads (D × E) (fun e => R e.2) (σ × Γ) D C X where
  body d := (sys.body d).tag d
  perform w c e :=
    (sys.perform w.1 c e.2).map fun (w', r, forks) =>
      ((w', notes.run w.1 w.2 e.1 e.2 r), r, forks)
  arrive w d := (sys.arrive w.1 d).map fun w' => (w', notes.arrive w.1 w.2 d)
  ambient w x := (sys.ambient w.1 x).map fun w' => (w', notes.ambient w.1 w.2 x)

variable {sys notes}

theorem watched_performed {w w' : σ × Γ} {c : C} {e : D × E} {r : R e.2} {forks : List D}
    (performed : (sys.watched notes).perform w c e = some (w', r, forks)) :
    sys.perform w.1 c e.2 = some (w'.1, r, forks) ∧ w'.2 = notes.run w.1 w.2 e.1 e.2 r := by
  obtain ⟨outcome, taken, same⟩ := Option.map_eq_some_iff.mp performed
  obtain ⟨rfl, rfl, rfl⟩ := same
  exact ⟨taken, rfl⟩

theorem watched_arrived {w w' : σ × Γ} {d : D}
    (arrived : (sys.watched notes).arrive w d = some w') :
    sys.arrive w.1 d = some w'.1 ∧ w'.2 = notes.arrive w.1 w.2 d := by
  obtain ⟨world, taken, rfl⟩ := Option.map_eq_some_iff.mp arrived
  exact ⟨taken, rfl⟩

theorem watched_moved {w w' : σ × Γ} {x : X} (moved : (sys.watched notes).ambient w x = some w') :
    sys.ambient w.1 x = some w'.1 ∧ w'.2 = notes.ambient w.1 w.2 x := by
  obtain ⟨world, taken, rfl⟩ := Option.map_eq_some_iff.mp moved
  exact ⟨taken, rfl⟩

theorem watched_step (notes : Notes E R σ D X Γ) (c : Config (D × E) (fun e => R e.2) (σ × Γ) D)
    (event : Event D C X) :
    ((sys.watched notes).machine.step c event).map Config.forget =
      sys.machine.step c.forget event := by
  cases event with
  | run pid choice =>
    simp only [machine, step, Config.forget, List.getElem?_map]
    cases fetched : c.pool[pid]? with
    | none => rfl
    | some t =>
      obtain ⟨d, rest⟩ := t
      cases rest with
      | ret => rfl
      | act e k =>
        simp only [Option.map_some, Prog.untag, watched]
        cases performed : sys.perform c.world.1 choice e.2 with
        | none => rfl
        | some outcome =>
          obtain ⟨w, r, forks⟩ := outcome
          simp [Config.forget, List.map_set, Function.comp_def, start]
  | arrive d =>
    simp only [machine, step, watched, Config.forget]
    cases arrived : sys.arrive c.world.1 d with
    | none => rfl
    | some w => simp [Config.forget, start]
  | ambient x =>
    simp only [machine, step, watched, Config.forget]
    cases moved : sys.ambient c.world.1 x with
    | none => rfl
    | some w => rfl

/-- The runs of the watched threads are the runs of the threads. -/
theorem watched_exec (c : Config (D × E) (fun e => R e.2) (σ × Γ) D) (events : List (Event D C X)) :
    ((sys.watched notes).machine.exec c events).map Config.forget =
      sys.machine.exec c.forget events := by
  induction events generalizing c with
  | nil => rfl
  | cons event rest ih =>
    have here : _ = sys.machine.step c.forget event := watched_step notes c event
    rw [Machine.exec_cons, Machine.exec_cons, ← here]
    cases stepped : (sys.watched notes).machine.step c event with
    | none => rfl
    | some next => exact ih next

end Threads
end Lib

import Mathlib.Logic.Function.Basic
import Nl2SqlAgent.Lib.Interleave

/-! Programs that take turns on a shared world, each under an id of its own, with all that
they were answered. A turn of a program that has ended changes nothing, so the turns of
some programs can be left out of a run. The proof rule relates a run, turn by turn, to
what is left of it. -/
namespace Lib

/-- What effects and ambient moves do to the world. -/
structure Turns (E : Type) (R : E → Type) (σ C X : Type) where
  perform : σ → C → (e : E) → σ × R e
  ambient : σ → X → σ

/-- A program and its effects so far with their answers, the newest first. -/
structure Task (E : Type) (R : E → Type) where
  rest : Prog E R Unit
  past : List (Sigma R) := []

namespace Turns

structure Config (E : Type) (R : E → Type) (σ : Type) where
  world : σ
  tasks : Nat → Task E R

inductive Turn (C X : Type) where
  | run (id : Nat) (choice : C)
  | ambient (x : X)

variable {E : Type} {R : E → Type} {σ C X : Type}

def advance (sys : Turns E R σ C X) (w : σ) (choice : C) (t : Task E R) : σ × Task E R :=
  match t.rest with
  | .ret _ => (w, t)
  | .act e k =>
    ((sys.perform w choice e).1,
      ⟨k (sys.perform w choice e).2, ⟨e, (sys.perform w choice e).2⟩ :: t.past⟩)

def turn (sys : Turns E R σ C X) (c : Config E R σ) : Turn C X → Config E R σ
  | .run id choice =>
    ⟨(sys.advance c.world choice (c.tasks id)).1,
      Function.update c.tasks id (sys.advance c.world choice (c.tasks id)).2⟩
  | .ambient x => ⟨sys.ambient c.world x, c.tasks⟩

def run (sys : Turns E R σ C X) (c : Config E R σ) (turns : List (Turn C X)) : Config E R σ :=
  turns.foldl sys.turn c

/-- The turns without those of the programs that are gone. -/
def purge (gone : Nat → Bool) (turns : List (Turn C X)) : List (Turn C X) :=
  turns.filter fun
    | .run id _ => !gone id
    | .ambient _ => true

/-- Every turn of the run is taken where `guard` holds. -/
def Guarded (sys : Turns E R σ C X) (guard : σ → C → Task E R → Prop) :
    Config E R σ → List (Turn C X) → Prop
  | _, [] => True
  | c, turn :: rest =>
    (match turn with
      | .run id choice => guard c.world choice (c.tasks id)
      | .ambient _ => True) ∧ Guarded sys guard (sys.turn c turn) rest

instance instDecidableGuarded (sys : Turns E R σ C X) (guard : σ → C → Task E R → Prop)
    [∀ w choice t, Decidable (guard w choice t)] :
    ∀ c turns, Decidable (Guarded sys guard c turns)
  | _, [] => isTrue trivial
  | c, .run id choice :: rest =>
    have := instDecidableGuarded sys guard (sys.turn c (.run id choice)) rest
    inferInstanceAs (Decidable (guard c.world choice (c.tasks id) ∧ _))
  | c, .ambient x :: rest =>
    have := instDecidableGuarded sys guard (sys.turn c (.ambient x)) rest
    inferInstanceAs (Decidable (True ∧ _))

variable {sys : Turns E R σ C X} {gone : Nat → Bool} {guard : σ → C → Task E R → Prop}

@[simp] theorem run_nil (c : Config E R σ) : sys.run c [] = c := rfl

@[simp] theorem run_cons (c : Config E R σ) (turn : Turn C X) (rest : List (Turn C X)) :
    sys.run c (turn :: rest) = sys.run (sys.turn c turn) rest := rfl

@[simp] theorem purge_ambient (x : X) (rest : List (Turn C X)) :
    purge gone (.ambient x :: rest) = .ambient x :: purge gone rest := rfl

theorem purge_kept {id : Nat} (kept : gone id = false) (choice : C) (rest : List (Turn C X)) :
    purge gone (.run id choice :: rest) = .run id choice :: purge gone rest := by
  simp [purge, kept]

theorem purge_gone {id : Nat} (left : gone id = true) (choice : C) (rest : List (Turn C X)) :
    purge gone (.run id choice :: rest) = purge gone rest := by
  simp [purge, left]

theorem advance_ended {w : σ} {choice : C} {t : Task E R} (ended : t.rest.ended = true) :
    sys.advance w choice t = (w, t) := by
  unfold advance
  cases rest : t.rest with
  | ret _ => rfl
  | act e k => simp [rest, Prog.ended] at ended

theorem advance_act {w : σ} {choice : C} {t : Task E R} {e : E} {k : R e → Prog E R Unit}
    (next : t.rest = .act e k) :
    sys.advance w choice t = ((sys.perform w choice e).1,
      ⟨k (sys.perform w choice e).2, ⟨e, (sys.perform w choice e).2⟩ :: t.past⟩) := by
  simp [advance, next]

theorem turn_tasks (c : Config E R σ) (id other : Nat) (choice : C) :
    (sys.turn c (.run id choice)).tasks other =
      if other = id then (sys.advance c.world choice (c.tasks id)).2 else c.tasks other := by
  simp only [turn, Function.update_apply]

/-- Leaving out programs that have nothing to do changes nothing. -/
theorem run_purge_ended {c : Config E R σ} (turns : List (Turn C X))
    (ended : ∀ id, gone id = true → (c.tasks id).rest.ended = true) :
    sys.run c (purge gone turns) = sys.run c turns := by
  induction turns generalizing c with
  | nil => rfl
  | cons turn rest ih =>
    cases turn with
    | ambient x => exact ih ended
    | run id choice =>
      by_cases left : gone id = true
      · have same : sys.turn c (.run id choice) = c := by
          rw [turn, advance_ended (ended id left), Function.update_eq_self]
        rw [purge_gone left, run_cons, same, ih ended]
      · have kept : gone id = false := Bool.eq_false_iff.mpr left
        rw [purge_kept kept, run_cons, run_cons]
        apply ih
        intro other isGone
        have different : other ≠ id := fun same => left (same ▸ isGone)
        rw [turn_tasks, if_neg different]
        exact ended other isGone

/-- A relation of the worlds and of the programs of two runs, with the obligations under which
a guarded run stays related to the run without the programs that are gone. -/
structure Unwinding (sys : Turns E R σ C X) (gone : Nat → Bool)
    (guard : σ → C → Task E R → Prop) where
  worlds : σ → σ → Prop
  tasks : Nat → Task E R → Task E R → Prop
  both : ∀ {w v choice id t u}, worlds w v → tasks id t u → gone id = false → guard w choice t →
    worlds (sys.advance w choice t).1 (sys.advance v choice u).1 ∧
      tasks id (sys.advance w choice t).2 (sys.advance v choice u).2
  alone : ∀ {w v choice id t u}, worlds w v → tasks id t u → gone id = true → guard w choice t →
    worlds (sys.advance w choice t).1 v ∧ tasks id (sys.advance w choice t).2 u
  ambient : ∀ {w v x}, worlds w v → worlds (sys.ambient w x) (sys.ambient v x)

/-- The two configurations are related, world by world and program by program. -/
structure Unwinding.Relates (o : Unwinding sys gone guard) (c d : Config E R σ) : Prop where
  world : o.worlds c.world d.world
  tasks : ∀ id, o.tasks id (c.tasks id) (d.tasks id)

theorem Unwinding.run (o : Unwinding sys gone guard) {c d : Config E R σ}
    {turns : List (Turn C X)} (related : o.Relates c d) (guarded : sys.Guarded guard c turns) :
    o.Relates (sys.run c turns) (sys.run d (purge gone turns)) := by
  induction turns generalizing c d with
  | nil => exact related
  | cons turn rest ih =>
    obtain ⟨here, later⟩ := guarded
    cases turn with
    | ambient x => exact ih ⟨o.ambient related.world, related.tasks⟩ later
    | run id choice =>
      by_cases left : gone id = true
      · obtain ⟨world, task⟩ := o.alone related.world (related.tasks id) left here
        rw [purge_gone left, run_cons]
        refine ih ⟨world, fun other => ?_⟩ later
        rw [turn_tasks]
        split
        next same => exact same ▸ task
        next => exact related.tasks other
      · have kept : gone id = false := Bool.eq_false_iff.mpr left
        obtain ⟨world, task⟩ := o.both related.world (related.tasks id) kept here
        rw [purge_kept kept, run_cons, run_cons]
        refine ih ⟨world, fun other => ?_⟩ later
        rw [turn_tasks, turn_tasks]
        split
        next same => exact same ▸ task
        next => exact related.tasks other

end Turns
end Lib

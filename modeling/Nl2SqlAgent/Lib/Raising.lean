import Mathlib.Data.Rat.Defs

/-! Computations of the language that can raise: divisions, accesses to a dictionary by a key
that has to be there, and loops over them. -/
namespace Lib

inductive Exception where
  | zeroDivisionError
  | keyError (key : String)
  | indexError
  | attributeError
  | typeError
  | valueError
  deriving DecidableEq, Repr

abbrev Raising := Except Exception

namespace Raising

variable {α β : Type}

/-- `a / b`. -/
def div (a b : ℚ) : Raising ℚ := if b = 0 then .error .zeroDivisionError else .ok (a / b)

/-- `d[key]` of a dictionary with these keys, where `value` stands behind the key. -/
def item (keys : List String) (key : String) (value : α) : Raising α :=
  if key ∈ keys then .ok value else .error (.keyError key)

/-- `d[key]`. -/
def subscript (d : List (String × α)) (key : String) : Raising α :=
  match d.lookup key with
  | some value => .ok value
  | none => .error (.keyError key)

/-- `sum(1 for a in l if test(a))`. -/
def count (test : α → Raising Bool) (l : List α) : Raising ℕ :=
  (l.mapM test).map fun passed => passed.countP id

@[simp] theorem ok_bind (a : α) (f : α → Raising β) : ((.ok a : Raising α) >>= f) = f a := rfl

@[simp] theorem ok_map (a : α) (f : α → β) : (.ok a : Raising α).map f = .ok (f a) := rfl

theorem div_ok {b : ℚ} (a : ℚ) (nonzero : b ≠ 0) : div a b = .ok (a / b) := if_neg nonzero

theorem item_ok {keys : List String} {key : String} (value : α) (present : key ∈ keys) :
    item keys key value = .ok value := if_pos present

/-- A loop of which no turn raises. -/
theorem mapM_ok {f : α → Raising β} {g : α → β} {l : List α} (each : ∀ a ∈ l, f a = .ok (g a)) :
    l.mapM f = .ok (l.map g) := by
  induction l with
  | nil => rfl
  | cons a rest ih =>
    rw [List.mapM_cons, each a List.mem_cons_self,
      ih fun b member => each b (List.mem_cons_of_mem _ member)]
    rfl

theorem count_ok {test : α → Raising Bool} {p : α → Bool} {l : List α}
    (each : ∀ a ∈ l, test a = .ok (p a)) : count test l = .ok (l.countP p) := by
  rw [count, mapM_ok each, ok_map, List.countP_map]
  rfl

theorem foldlM_ok {f : β → α → Raising β} {g : β → α → β} {l : List α} (init : β)
    (each : ∀ b, ∀ a ∈ l, f b a = .ok (g b a)) : l.foldlM f init = .ok (l.foldl g init) := by
  induction l generalizing init with
  | nil => rfl
  | cons a rest ih =>
    rw [List.foldlM_cons, each init a List.mem_cons_self]
    exact ih (g init a) fun b x member => each b x (List.mem_cons_of_mem _ member)

end Raising
end Lib

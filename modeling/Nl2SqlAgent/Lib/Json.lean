import Mathlib.Data.List.AList

/-! JSON values and documents. A document is a finite map from keys to values, each
key once; numbers are exact, and the three texts that a lenient writer prints for
floats without a value are kept apart, since a strict reader refuses them. -/
namespace Lib

inductive Json where
  | null
  | bool (b : Bool)
  | int (n : Int)
  | float (q : Rat)
  | nonFinite
  | str (s : String)
  | arr (items : List Json)
  | obj (fields : List (String × Json))
  deriving Repr

namespace Json

mutual

/-- A strict reader accepts the value. -/
def strict : Json → Bool
  | .nonFinite => false
  | .arr items => strictItems items
  | .obj fields => strictFields fields
  | _ => true

def strictItems : List Json → Bool
  | [] => true
  | item :: rest => strict item && strictItems rest

def strictFields : List (String × Json) → Bool
  | [] => true
  | field :: rest => strict field.2 && strictFields rest

end

mutual

/-- Structural equality. -/
def beq : Json → Json → Bool
  | .null, .null => true
  | .bool a, .bool b => a == b
  | .int a, .int b => a == b
  | .float a, .float b => a == b
  | .nonFinite, .nonFinite => true
  | .str a, .str b => a == b
  | .arr a, .arr b => beqItems a b
  | .obj a, .obj b => beqFields a b
  | _, _ => false

def beqItems : List Json → List Json → Bool
  | [], [] => true
  | a :: as, b :: bs => beq a b && beqItems as bs
  | _, _ => false

def beqFields : List (String × Json) → List (String × Json) → Bool
  | [], [] => true
  | a :: as, b :: bs => a.1 == b.1 && beq a.2 b.2 && beqFields as bs
  | _, _ => false

end

mutual

theorem beq_iff : ∀ a b : Json, beq a b = true ↔ a = b
  | .arr a, b => by cases b <;> simp [beq, beqItems_iff a]
  | .obj a, b => by cases b <;> simp [beq, beqFields_iff a]
  | .null, b | .bool _, b | .int _, b | .float _, b | .nonFinite, b | .str _, b => by
    cases b <;> simp [beq]

theorem beqItems_iff : ∀ a b : List Json, beqItems a b = true ↔ a = b
  | [], b => by cases b <;> simp [beqItems]
  | item :: rest, b => by cases b <;> simp [beqItems, beq_iff item, beqItems_iff rest]

theorem beqFields_iff : ∀ a b : List (String × Json), beqFields a b = true ↔ a = b
  | [], b => by cases b <;> simp [beqFields]
  | (key, value) :: rest, b => by
    cases b with
    | nil => simp [beqFields]
    | cons field more => simp [beqFields, beq_iff value, beqFields_iff rest, Prod.ext_iff, and_assoc]

end

instance : DecidableEq Json := fun a b => decidable_of_iff _ (beq_iff a b)

end Json

/-- What a lookup in an association list finds is one of its entries. -/
theorem mem_of_lookup {α β : Type*} [BEq α] [LawfulBEq α] {entries : List (α × β)} {key : α}
    {value : β} (found : entries.lookup key = some value) : (key, value) ∈ entries := by
  obtain ⟨before, after, eq, -⟩ := List.lookup_eq_some_iff.mp found
  simp [eq]

abbrev Doc := AList fun _ : String => Json

/-- The one of `AList` is built by rewriting and does not evaluate. -/
instance : DecidableEq Doc := fun a b => decidable_of_iff (a.entries = b.entries) AList.ext_iff.symm

namespace Doc

/-- Set the fields one after the other, as a dictionary's `update` does. -/
def update (d : Doc) (fields : List (String × Json)) : Doc :=
  fields.foldl (fun d field => d.insert field.1 field.2) d

def ofFields (fields : List (String × Json)) : Doc := update ∅ fields

def strict (d : Doc) : Bool := d.entries.all fun entry => entry.2.strict

@[simp] theorem update_nil (d : Doc) : d.update [] = d := rfl

@[simp] theorem update_cons (d : Doc) (field : String × Json) (rest : List (String × Json)) :
    d.update (field :: rest) = update (d.insert field.1 field.2) rest := rfl

theorem lookup_update_other (d : Doc) (fields : List (String × Json)) (key : String)
    (other : key ∉ fields.map Prod.fst) : (d.update fields).lookup key = d.lookup key := by
  induction fields generalizing d with
  | nil => rfl
  | cons field rest ih =>
    obtain ⟨different, later⟩ := not_or.mp (fun member => other (List.mem_cons.mpr member))
    rw [update_cons, ih _ later, AList.lookup_insert_ne different]

/-- Among fields with distinct keys each one is found. -/
theorem lookup_update_mem (d : Doc) (fields : List (String × Json)) (key : String) (value : Json)
    (distinct : (fields.map Prod.fst).Nodup) (member : (key, value) ∈ fields) :
    (d.update fields).lookup key = some value := by
  induction fields generalizing d with
  | nil => contradiction
  | cons field rest ih =>
    obtain ⟨fresh, others⟩ := List.nodup_cons.mp distinct
    rw [update_cons]
    rcases List.mem_cons.mp member with rfl | later
    · rw [lookup_update_other _ _ _ fresh, AList.lookup_insert]
    · exact ih _ others later

/-- What a lookup in an updated document finds is new or was there before. -/
theorem lookup_update_cases (d : Doc) (fields : List (String × Json)) (key : String) (value : Json)
    (found : (d.update fields).lookup key = some value) :
    (key, value) ∈ fields ∨ (key ∉ fields.map Prod.fst ∧ d.lookup key = some value) := by
  induction fields generalizing d with
  | nil => exact .inr ⟨by simp, found⟩
  | cons field rest ih =>
    rw [update_cons] at found
    rcases ih _ found with new | ⟨absent, old⟩
    · exact .inl (List.mem_cons_of_mem _ new)
    · by_cases same : key = field.1
      · subst same
        rw [AList.lookup_insert] at old
        obtain rfl := Option.some.inj old
        exact .inl List.mem_cons_self
      · rw [AList.lookup_insert_ne same] at old
        exact .inr ⟨by simp [same, absent], old⟩

end Doc
end Lib

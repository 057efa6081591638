import Mathlib.Algebra.GroupWithZero.Nat
import Mathlib.Data.List.Basic
import Mathlib.Data.List.Forall2

/-! Dictionaries with their items in the order in which the keys were first set. -/
namespace Lib

/-- A loop that can raise returns what each turn does. -/
theorem mapM_eq_some_iff {α β : Type} {f : α → Option β} {l : List α} {out : List β} :
    l.mapM f = some out ↔ List.Forall₂ (fun a b => f a = some b) l out := by
  induction l generalizing out with
  | nil =>
    rw [List.forall₂_nil_left_iff]
    exact ⟨fun none => (Option.some.inj none).symm, fun none => none ▸ rfl⟩
  | cons a l ih =>
    rw [List.forall₂_cons_left_iff]
    simp only [List.mapM_cons, Option.pure_def, Option.bind_eq_bind, Option.bind_eq_some_iff,
      Option.some.injEq]
    constructor
    · rintro ⟨b, here, rest, later, rfl⟩
      exact ⟨b, rest, here, ih.mp later, rfl⟩
    · rintro ⟨b, rest, here, later, rfl⟩
      exact ⟨b, here, rest, ih.mpr later, rfl⟩

theorem mapM_isSome {α β : Type} {f : α → Option β} {l : List α}
    (each : ∀ a ∈ l, (f a).isSome = true) : (l.mapM f).isSome = true := by
  induction l with
  | nil => rfl
  | cons a rest ih =>
    obtain ⟨b, first⟩ := Option.isSome_iff_exists.mp (each a List.mem_cons_self)
    obtain ⟨bs, later⟩ := Option.isSome_iff_exists.mp
      (ih fun a' member => each a' (List.mem_cons_of_mem _ member))
    simp [List.mapM_cons, first, later]

theorem forall₂_mem_left {α β : Type} {R : α → β → Prop} {l : List α} {out : List β}
    (related : List.Forall₂ R l out) {a : α} (member : a ∈ l) : ∃ b ∈ out, R a b := by
  induction related with
  | nil => contradiction
  | cons here _ ih =>
    rcases List.mem_cons.mp member with rfl | later
    · exact ⟨_, List.mem_cons_self, here⟩
    · obtain ⟨b, inside, rel⟩ := ih later
      exact ⟨b, List.mem_cons_of_mem _ inside, rel⟩

theorem forall₂_mem_right {α β : Type} {R : α → β → Prop} {l : List α} {out : List β}
    (related : List.Forall₂ R l out) {b : β} (member : b ∈ out) : ∃ a ∈ l, R a b :=
  forall₂_mem_left related.flip member

abbrev PyDict (K V : Type) := List (K × V)

namespace PyDict

variable {K V W : Type} [DecidableEq K]

/-- `d[k] = v`. -/
def set (d : PyDict K V) (k : K) (v : V) : PyDict K V :=
  match d with
  | [] => [(k, v)]
  | (j, w) :: rest => if j = k then (k, v) :: rest else (j, w) :: set rest k v

/-- `for k, v in items: d[k] = v`. -/
def update (d : PyDict K V) (items : List (K × V)) : PyDict K V :=
  items.foldl (fun d item => d.set item.1 item.2) d

/-- `[d[k] for k in keys]`; `none` is a `KeyError`. -/
def subscripts (d : PyDict K V) (keys : List K) : Option (List V) := keys.mapM fun k => d.lookup k

def mapValues (f : V → W) (d : PyDict K V) : PyDict K W := d.map fun item => (item.1, f item.2)

theorem lookup_item (k j : K) (v : V) (rest : List (K × V)) :
    List.lookup j ((k, v) :: rest) = if j = k then some v else rest.lookup j := by
  rw [List.lookup_cons]
  by_cases hit : j = k
  · simp [hit]
  · rw [if_neg hit, beq_false_of_ne hit]

theorem lookup_set (d : PyDict K V) (k j : K) (v : V) :
    (d.set k v).lookup j = if j = k then some v else d.lookup j := by
  induction d with
  | nil => exact lookup_item k j v []
  | cons item rest ih =>
    obtain ⟨i, w⟩ := item
    unfold set
    split
    · rename_i same
      subst same
      simp only [lookup_item]
      split <;> rfl
    · rename_i other
      simp only [lookup_item, ih]
      by_cases hit : j = i
      · subst hit
        simp [other]
      · simp [hit]

theorem lookup_of_mem {d : PyDict K V} (nodup : (d.map Prod.fst).Nodup) {item : K × V}
    (member : item ∈ d) : d.lookup item.1 = some item.2 := by
  induction d with
  | nil => contradiction
  | cons first rest ih =>
    obtain ⟨j, w⟩ := first
    rw [List.map_cons, List.nodup_cons] at nodup
    rw [lookup_item]
    rcases List.mem_cons.mp member with rfl | later
    · rw [if_pos rfl]
    · rw [if_neg, ih nodup.2 later]
      rintro rfl
      exact nodup.1 (List.mem_map.mpr ⟨item, later, rfl⟩)

@[simp] theorem lookup_set_self (d : PyDict K V) (k : K) (v : V) : (d.set k v).lookup k = some v := by
  rw [lookup_set, if_pos rfl]

theorem lookup_set_other (d : PyDict K V) (v : V) {k j : K} (other : j ≠ k) :
    (d.set k v).lookup j = d.lookup j := by
  rw [lookup_set, if_neg other]

/-- A new key comes last. -/
theorem keys_set (d : PyDict K V) (k : K) (v : V) :
    (d.set k v).map Prod.fst = if k ∈ d.map Prod.fst then d.map Prod.fst else d.map Prod.fst ++ [k] := by
  induction d with
  | nil => rfl
  | cons item rest ih =>
    obtain ⟨j, w⟩ := item
    unfold set
    by_cases here : j = k
    · simp [here]
    · have member : k ∈ ((j, w) :: rest).map Prod.fst ↔ k ∈ rest.map Prod.fst := by
        simp [Ne.symm here]
      rw [if_neg here, List.map_cons, ih]
      by_cases later : k ∈ rest.map Prod.fst
      · rw [if_pos later, if_pos (member.mpr later), List.map_cons]
      · rw [if_neg later, if_neg (mt member.mp later), List.map_cons, List.cons_append]

theorem subscripts_eq_some_iff {d : PyDict K V} {keys : List K} {values : List V} :
    d.subscripts keys = some values ↔ List.Forall₂ (fun k v => d.lookup k = some v) keys values :=
  mapM_eq_some_iff

theorem mapValues_set (f : V → W) (d : PyDict K V) (k : K) (v : V) :
    (d.set k v).mapValues f = (d.mapValues f).set k (f v) := by
  induction d with
  | nil => rfl
  | cons item rest ih =>
    simp only [set, mapValues, List.map_cons]
    split
    · rfl
    · exact congrArg (List.cons _) ih

theorem lookup_mapValues (f : V → W) (d : PyDict K V) (k : K) :
    (d.mapValues f).lookup k = (d.lookup k).map f := by
  induction d with
  | nil => rfl
  | cons item rest ih =>
    obtain ⟨j, v⟩ := item
    rw [lookup_item, apply_ite (Option.map f), ← ih]
    exact lookup_item j k (f v) _

/-- The value that was set last. -/
theorem lookup_update (d : PyDict K V) (items : List (K × V)) (k : K) :
    (d.update items).lookup k = (items.reverse.lookup k).or (d.lookup k) := by
  induction items generalizing d with
  | nil => rfl
  | cons item rest ih =>
    have later : (d.update (item :: rest)).lookup k =
        (rest.reverse.lookup k).or ((d.set item.1 item.2).lookup k) := ih _
    rw [later, List.reverse_cons, List.lookup_append, Option.or_assoc, lookup_set, lookup_item]
    split <;> simp

/-- A dictionary of a function's values. -/
theorem lookup_update_map (f : K → V) {keys : List K} {k : K} (member : k ∈ keys) :
    (update [] (keys.map fun k => (k, f k))).lookup k = some (f k) := by
  rw [lookup_update, List.lookup_nil, Option.or_none, ← List.map_reverse]
  have reversed := List.mem_reverse.mpr member
  generalize keys.reverse = js at reversed ⊢
  induction js with
  | nil => contradiction
  | cons j rest ih =>
    rw [List.map_cons, lookup_item]
    by_cases here : k = j
    · rw [if_pos here, here]
    · rw [if_neg here, ih ((List.mem_cons.mp reversed).resolve_left here)]

theorem mem_set {d : PyDict K V} {k : K} {v : V} {item : K × V} (member : item ∈ d.set k v) :
    item = (k, v) ∨ item ∈ d := by
  induction d with
  | nil => exact .inl (List.mem_singleton.mp member)
  | cons first rest ih =>
    unfold set at member
    split at member
    · exact (List.mem_cons.mp member).imp_right (List.mem_cons_of_mem _)
    · rcases List.mem_cons.mp member with here | later
      · exact .inr (here ▸ List.mem_cons_self)
      · exact (ih later).imp_right (List.mem_cons_of_mem _)

theorem mem_update {d : PyDict K V} {items : List (K × V)} {item : K × V}
    (member : item ∈ d.update items) : item ∈ items ∨ item ∈ d := by
  induction items generalizing d with
  | nil => exact .inr member
  | cons first rest ih =>
    rcases ih member with later | set
    · exact .inl (List.mem_cons_of_mem _ later)
    · rcases mem_set set with rfl | old
      · exact .inl List.mem_cons_self
      · exact .inr old

/-- An assignment exchanges the old value, if there is one, for the new. -/
theorem sum_set (d : PyDict K Nat) (k : K) (v : Nat) :
    ((d.set k v).map Prod.snd).sum + (d.lookup k).getD 0 = (d.map Prod.snd).sum + v := by
  induction d with
  | nil => simp [set]
  | cons item rest ih =>
    obtain ⟨j, w⟩ := item
    rw [lookup_item, set]
    by_cases same : j = k
    · subst same
      simp only [if_true, List.map_cons, List.sum_cons, Option.getD_some]
      omega
    · rw [if_neg same, if_neg (Ne.symm same)]
      simp only [List.map_cons, List.sum_cons]
      omega

end PyDict
end Lib

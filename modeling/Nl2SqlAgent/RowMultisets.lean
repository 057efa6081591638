import Nl2SqlAgent.Lib.Sorting
import Nl2SqlAgent.Metrics

/-! Two results after `normalize_rows` (`evaluation/metrics.py`): which of them are equal, and
which have the same rows. Numbers are rationals here. -/
namespace Nl2SqlAgent

open Lib

namespace RowMultisets

open Metrics

/-- `round` to six places, and `str`, which tells rounded numbers apart. -/
structure Decimals where
  round6 : Rat → Rat
  str : Rat → String
  str_inj : ∀ p q, str (round6 p) = str (round6 q) → round6 p = round6 q

def Decimals.floats (d : Decimals) : Floats where
  ofInt n := .finite n
  round6
    | .finite q => .finite (d.round6 q)
    | x => x
  str
    | .finite q => d.str q
    | .negZero => "-0.0"
    | .infinite negative => if negative then "-inf" else "inf"
    | .nan => "nan"

def cells (rows : List Row) : List (List Cell) := rows.map fun row => row.map Cell.ofValue

/-- The rows with every number rounded, NULL as the sentinel and the rest as its `str`. -/
def rounded (d : Decimals) (rows : List Row) : List (List NormCell) :=
  (cells rows).map fun row => row.map (normCell d.floats)

/-- What the rows are sorted by. -/
def spelling (d : Decimals) (row : List NormCell) : List String := row.map (NormCell.shown d.floats)

/-- `normalize_rows(a) == normalize_rows(b)`. -/
def SameNormal (d : Decimals) (a b : List Row) : Prop :=
  listEq NormRow.eq (normalizeRows d.floats (cells a)) (normalizeRows d.floats (cells b)) = true

instance (d : Decimals) (a b : List Row) : Decidable (SameNormal d a b) :=
  inferInstanceAs (Decidable (_ = true))

def SameMultiset (d : Decimals) (a b : List Row) : Prop := (rounded d a).Perm (rounded d b)

instance (d : Decimals) (a b : List Row) : Decidable (SameMultiset d a b) :=
  inferInstanceAs (Decidable (List.Perm _ _))

section

variable {d : Decimals} {a b : List Row} {row row' : List NormCell}

abbrev bySpelling (d : Decimals) : Ranking (List NormCell) := .ofKey (spelling d)

theorem normalizeRows_sort (d : Decimals) (a : List Row) :
    normalizeRows d.floats (cells a) = ((bySpelling d).sort (rounded d a)).map .tuple := rfl

/-- Rows with these cells are equal only if they are the same. -/
def Plain (row : List NormCell) : Prop := ∀ cell ∈ row, cell ≠ .float .nan ∧ cell ≠ .float .negZero

theorem rounded_plain (member : row ∈ rounded d a) : Plain row := by
  obtain ⟨cells, inside, rfl⟩ := List.mem_map.mp member
  obtain ⟨values, -, rfl⟩ := List.mem_map.mp inside
  intro cell found
  obtain ⟨value, -, rfl⟩ := List.mem_map.mp (List.map_map .. ▸ found)
  cases value <;> simp [Cell.ofValue, normCell, Decimals.floats]

theorem cell_eq_iff {cell cell' : NormCell} (first : cell ≠ .float .nan ∧ cell ≠ .float .negZero)
    (second : cell' ≠ .float .negZero) : cell.eq cell' = true ↔ cell = cell' := by
  cases cell with
  | str s => cases cell' <;> simp [NormCell.eq]
  | float x =>
    cases cell' with
    | str s => simp [NormCell.eq]
    | float y => cases x <;> cases y <;> simp_all [NormCell.eq, PyFloat.eq, PyFloat.unsigned]

theorem listEq_iff {α : Type} {eq : α → α → Bool} {xs ys : List α}
    (exact : ∀ x ∈ xs, ∀ y ∈ ys, (eq x y = true ↔ x = y)) : listEq eq xs ys = true ↔ xs = ys := by
  induction xs generalizing ys with
  | nil => cases ys <;> simp [listEq]
  | cons x xs ih =>
    cases ys with
    | nil => simp [listEq]
    | cons y ys =>
      have heads := exact x List.mem_cons_self y List.mem_cons_self
      have tails := ih fun x' member y' member' =>
        exact x' (List.mem_cons_of_mem _ member) y' (List.mem_cons_of_mem _ member')
      simp only [listEq, Bool.and_eq_true, heads, tails, List.cons.injEq]

theorem row_eq_iff (first : Plain row) (second : Plain row') :
    (NormRow.tuple row).eq (.tuple row') = true ↔ row = row' :=
  listEq_iff fun cell member cell' member' => cell_eq_iff (first cell member) (second cell' member').2

/-- Equal after `normalize_rows` is the same order of rows. -/
theorem sameNormal_iff :
    SameNormal d a b ↔ (bySpelling d).sort (rounded d a) = (bySpelling d).sort (rounded d b) := by
  have plain (c : List Row) : ∀ row ∈ (bySpelling d).sort (rounded d c), Plain row := fun row member =>
    rounded_plain ((Ranking.sort_perm _ _).mem_iff.mp member)
  rw [SameNormal, normalizeRows_sort, normalizeRows_sort, listEq_iff]
  · exact (List.map_injective_iff.mpr fun _ _ same => NormRow.tuple.inj same).eq_iff
  · rintro _ member _ member'
    obtain ⟨row, inside, rfl⟩ := List.mem_map.mp member
    obtain ⟨row', inside', rfl⟩ := List.mem_map.mp member'
    rw [row_eq_iff (plain a row inside) (plain b row' inside'), NormRow.tuple.injEq]

/-- Rows that look the same as text stand in the same order in both. -/
def Alike (d : Decimals) (a b : List Row) : Prop :=
  ∀ text, (rounded d a).filter (fun row => spelling d row = text) =
    (rounded d b).filter fun row => spelling d row = text

theorem sameNormal_iff_alike : SameNormal d a b ↔ Alike d a b :=
  sameNormal_iff.trans Ranking.ofKey_sort_eq_iff

/-- What is equal after `normalize_rows` has the same rows. -/
theorem sameMultiset_of_sameNormal (same : SameNormal d a b) : SameMultiset d a b := by
  have perm := Ranking.sort_perm (bySpelling d) (rounded d a)
  rw [sameNormal_iff.mp same] at perm
  exact perm.symm.trans (Ranking.sort_perm _ _)

def norm (d : Decimals) (row : Row) : List NormCell := (row.map Cell.ofValue).map (normCell d.floats)

theorem rounded_cons (r : Row) (rest : List Row) : rounded d (r :: rest) = norm d r :: rounded d rest := rfl

theorem mem_rounded : row ∈ rounded d a ↔ ∃ r ∈ a, norm d r = row := by
  simp only [rounded, cells, List.map_map, List.mem_map, Function.comp_apply, norm]

theorem rounded_perm (perm : a.Perm b) : SameMultiset d a b := (perm.map _).map _

/-- Two rows that differ, and look the same as text, tell two orders of the rows apart. -/
theorem order_seen (kept : ∀ b, SameMultiset d a b → SameNormal d a b) (member : row ∈ rounded d a)
    (member' : row' ∈ rounded d a) (same : spelling d row = spelling d row') : row = row' := by
  by_contra differ
  obtain ⟨r, inside, rfl⟩ := mem_rounded.mp member
  obtain ⟨r', inside', rfl⟩ := mem_rounded.mp member'
  have later : r' ∈ a.erase r := by
    refine (List.mem_erase_of_ne fun equal => differ ?_).mpr inside'
    rw [equal]
  -- the rows in front, once in each order
  have first : a.Perm (r :: r' :: (a.erase r).erase r') :=
    (List.perm_cons_erase inside).trans ((List.perm_cons_erase later).cons r)
  have second := first.trans (List.Perm.swap r' r _)
  have sorts := (sameNormal_iff.mp (kept _ (rounded_perm first))).symm.trans
    (sameNormal_iff.mp (kept _ (rounded_perm second)))
  have heads := Ranking.ofKey_sort_eq_iff.mp sorts (spelling d (norm d r))
  simp only [rounded_cons, List.filter_cons, same, decide_true, if_true, List.cons.injEq] at heads
  exact differ heads.1

/-- Two results are equal after `normalize_rows` just when they have the same rows, if and only
if the rows that look the same as text are in the same order in both, should they have the
same rows. And they are so for all orders of a result's rows if and only if no two of its
rows that differ look the same. -/
theorem rows_multiset_iff (d : Decimals) (a : List Row) :
    (∀ b, (SameNormal d a b ↔ SameMultiset d a b) ↔ (SameMultiset d a b → Alike d a b)) ∧
    ((∀ b, SameNormal d a b ↔ SameMultiset d a b) ↔
      ∀ row ∈ rounded d a, ∀ row' ∈ rounded d a, spelling d row = spelling d row' → row = row') := by
  have pair (b : List Row) :
      (SameNormal d a b ↔ SameMultiset d a b) ↔ (SameMultiset d a b → Alike d a b) :=
    ⟨fun holds same => sameNormal_iff_alike.mp (holds.mpr same),
      fun alike => ⟨sameMultiset_of_sameNormal, fun same => sameNormal_iff_alike.mpr (alike same)⟩⟩
  refine ⟨pair, fun holds row member row' member' same =>
    order_seen (fun b => (holds b).mpr) member member' same, fun distinct b => (pair b).mpr ?_⟩
  intro same text
  refine @List.Perm.eq_of_pairwise _ (fun _ _ => True) _ _ ?_ ?_ ?_ (same.filter _)
  · intro row row' member member' _ _
    obtain ⟨inside, spelled⟩ := List.mem_filter.mp member
    obtain ⟨inside', spelled'⟩ := List.mem_filter.mp member'
    exact distinct row inside row' (same.mem_iff.mpr inside')
      ((of_decide_eq_true spelled).trans (of_decide_eq_true spelled').symm)
  · exact List.pairwise_of_forall fun _ _ => trivial
  · exact List.pairwise_of_forall fun _ _ => trivial

end

/-- Ties go to the even neighbour. -/
def halfEven (x : Rat) : Int :=
  let below := x.floor
  if x - below < 1 / 2 then below
  else if 1 / 2 < x - below then below + 1
  else if below % 2 = 0 then below else below + 1

/-- Whole numbers are printed as Python prints them. -/
def fraction (q : Rat) : String :=
  toString q.num ++ (if q.den = 1 then ".0" else "/" ++ toString q.den)

theorem digits_repr (n : Nat) : ∀ c ∈ n.repr.toList, c.isDigit = true := by
  intro c member
  rw [Nat.toList_repr] at member
  exact Nat.isDigit_of_mem_toDigits (by decide) (by decide) member

theorem natRepr_inj {m n : Nat} (same : m.repr.toList = n.repr.toList) : m = n := by
  simp only [Nat.toList_repr] at same
  rw [← Nat.ofDigitChars_ten_toDigits (n := m), same, Nat.ofDigitChars_ten_toDigits]

theorem intRepr (m : Int) : m.repr.toList = if 0 ≤ m then m.toNat.repr.toList
    else '-' :: (-m).toNat.repr.toList := by
  rw [Int.repr_eq_if]
  split <;> simp

theorem intRepr_inj {m n : Int} (same : m.repr.toList = n.repr.toList) : m = n := by
  have digit (k l : Nat) : '-' :: l.repr.toList ≠ k.repr.toList := by
    intro equal
    exact absurd (digits_repr k '-' (equal ▸ List.mem_cons_self)) (by decide)
  rw [intRepr, intRepr] at same
  split at same <;> split at same
  · have equal := natRepr_inj same
    omega
  · exact absurd same.symm (digit _ _)
  · exact absurd same (digit _ _)
  · have equal := natRepr_inj (List.cons.inj same).2
    omega

theorem intRepr_chars (m : Int) : ∀ c ∈ m.repr.toList, (c.isDigit || c == '-') = true := by
  intro c member
  rw [intRepr] at member
  split at member
  · simp [digits_repr _ c member]
  · rcases List.mem_cons.mp member with rfl | member
    · rfl
    · simp [digits_repr _ c member]

/-- The numerator, and behind a point or a slash the rest. -/
theorem fraction_shape (q : Rat) : ∃ sep rest, (sep = '.' ∨ sep = '/') ∧
    (fraction q).toList = q.num.repr.toList ++ sep :: rest ∧
    (sep = '.' → q.den = 1 ∧ rest = ['0']) ∧ (sep = '/' → rest = q.den.repr.toList) := by
  by_cases whole : q.den = 1
  · refine ⟨'.', ['0'], .inl rfl, ?_, fun _ => ⟨whole, rfl⟩, nofun⟩
    simp only [fraction, whole, if_true, String.toList_append]
    rfl
  · refine ⟨'/', q.den.repr.toList, .inr rfl, ?_, nofun, fun _ => rfl⟩
    simp only [fraction, whole, if_false, String.toList_append]
    rfl

theorem fraction_inj {p q : Rat} (same : fraction p = fraction q) : p = q := by
  obtain ⟨sep, rest, kind, text, dot, slash⟩ := fraction_shape p
  obtain ⟨sep', rest', kind', text', dot', slash'⟩ := fraction_shape q
  have stops {c : Char} (kind : c = '.' ∨ c = '/') : (c.isDigit || c == '-') = false := by
    rcases kind with rfl | rfl <;> rfl
  obtain ⟨nums, rfl, rfl⟩ := Py.leading_inj (text ▸ text' ▸ congrArg String.toList same)
    (intRepr_chars _) (intRepr_chars _) (stops kind) (stops kind')
  apply Rat.ext (intRepr_inj nums)
  rcases kind with rfl | rfl
  · rw [(dot rfl).1, (dot' rfl).1]
  · exact natRepr_inj ((slash rfl).symm.trans (slash' rfl))

def sixPlaces : Decimals where
  round6 q := halfEven (q * 1000000) / 1000000
  str := fraction
  str_inj _ _ same := fraction_inj same

/-- The number 1 and the text that spells it, in one column: each order of the two rows is
kept as it is. -/
theorem order_matters :
    let a : List Row := [[.num 1], [.other "1.0"]]
    let b : List Row := [[.other "1.0"], [.num 1]]
    SameMultiset sixPlaces a b ∧ ¬ SameNormal sixPlaces a b := by
  refine ⟨by decide +kernel, fun same => ?_⟩
  have alike := sameNormal_iff_alike.mp same ["1.0"]
  exact absurd alike (by decide +kernel)

end RowMultisets
end Nl2SqlAgent

import Mathlib.Data.List.Infix
import Mathlib.Data.List.DropRight

/-! Python's string methods on Lean strings (code points). Case mapping depends on
the interpreter's Unicode tables, so it is a parameter that is fixed on ASCII;
white space is the fixed set of `str.isspace`. -/
namespace Lib.Py

-- what every test of a membership among texts looks up
instance instLawfulBEqChars : LawfulBEq (List Char) := inferInstance

instance instLawfulBEqOptional : LawfulBEq (Option String) := inferInstance

/-- `str.upper` maps every character by itself, possibly to several. `str.lower`
looks at the whole string (a final sigma). -/
structure Case where
  upperChar : Char → List Char
  lowerText : List Char → List Char
  upper_ascii : ∀ c, c.val < 128 → upperChar c = [c.toUpper]
  lower_ascii : ∀ s, (∀ c ∈ s, c.val < 128) → lowerText s = s.map Char.toLower

/-- The mapping that leaves every other character alone. -/
def Case.ascii : Case where
  upperChar c := [c.toUpper]
  lowerText s := s.map Char.toLower
  upper_ascii _ _ := rfl
  lower_ascii _ _ := rfl

def Case.upper (m : Case) (s : String) : String := .ofList (s.toList.flatMap m.upperChar)

def Case.lower (m : Case) (s : String) : String := .ofList (m.lowerText s.toList)

/-- `str.isspace` of one character. -/
def isSpace (c : Char) : Bool :=
  let n := c.val.toNat
  (9 ≤ n && n ≤ 13) || (28 ≤ n && n ≤ 32) || n == 0x85 || n == 0xA0 || n == 0x1680 ||
    (0x2000 ≤ n && n ≤ 0x200A) || n == 0x2028 || n == 0x2029 || n == 0x202F || n == 0x205F ||
    n == 0x3000

def strip (s : String) : String := .ofList ((s.toList.dropWhile isSpace).rdropWhile isSpace)

def lstripChar (ch : Char) (s : String) : String := .ofList (s.toList.dropWhile (· == ch))

def rstripChar (ch : Char) (s : String) : String := .ofList (s.toList.rdropWhile (· == ch))

/-- `s.split()`: the maximal runs without white space. -/
def words (s : String) : List String :=
  ((s.toList.splitOnP isSpace).filter (· ≠ [])).map String.ofList

/-- `re.findall(r"[…]+", s)` for a class of characters. -/
def runs (p : Char → Bool) (s : String) : List String :=
  ((s.toList.splitOnP (!p ·)).filter (· ≠ [])).map String.ofList

/-- `[a-zA-Z0-9_]`. -/
def isWordChar (c : Char) : Bool := c.isAlphanum || c = '_'

/-- `s.split(ch)`. -/
def splitChar (ch : Char) (s : String) : List String := (s.toList.splitOn ch).map String.ofList

/-- `sub in s`. -/
def contains (sub s : String) : Bool := decide (sub.toList <:+: s.toList)

def startsWith (pre s : String) : Bool := pre.toList.isPrefixOf s.toList

/-- `s[:n]`. -/
def take (n : Nat) (s : String) : String := .ofList (s.toList.take n)

/-- `s[n:]`. -/
def drop (n : Nat) (s : String) : String := .ofList (s.toList.drop n)

/-- `s.rfind(sub)`, with `none` for -1. -/
def rfind (sub : List Char) : List Char → Option ℕ
  | [] => if sub = [] then some 0 else none
  | c :: s =>
    match rfind sub s with
    | some i => some (i + 1)
    | none => if sub.isPrefixOf (c :: s) then some 0 else none

def join (sep : String) (parts : List String) : String := sep.intercalate parts

/-- Truth value of a string that may be missing or `None`. -/
def truthy : Option String → Bool
  | none => false
  | some s => s != ""

@[simp] theorem truthy_none : truthy none = false := rfl
@[simp] theorem truthy_empty : truthy (some "") = false := by decide

theorem append_ofList₃ (a b c : List Char) :
    String.ofList a ++ String.ofList b ++ String.ofList c = .ofList (a ++ b ++ c) := by
  rw [String.ofList_append, String.ofList_append]

theorem ascii_table {P : Char → Prop} (table : ∀ n < 128, P (Char.ofNat n)) {c : Char}
    (ascii : c.val < 128) : P c := by
  have here := table c.toNat (UInt32.lt_iff_toNat_lt.mp ascii)
  rwa [Char.ofNat_toNat] at here

theorem Case.upper_of_ascii (m : Case) {s : String} (ascii : ∀ c ∈ s.toList, c.val < 128) :
    m.upper s = .ofList (s.toList.map Char.toUpper) := by
  rw [Case.upper, List.flatMap_congr fun c member => m.upper_ascii c (ascii c member)]
  exact congrArg _ List.map_eq_flatMap.symm

theorem Case.lower_of_ascii (m : Case) {s : String} (ascii : ∀ c ∈ s.toList, c.val < 128) :
    m.lower s = .ofList (s.toList.map Char.toLower) := congrArg _ (m.lower_ascii _ ascii)

/-- Two texts that begin with characters of one kind and go on with one of another kind
agree in both parts. -/
theorem leading_inj {k : Char → Bool} {sep sep' : Char} {first rest first' rest' : List Char}
    (same : first ++ sep :: rest = first' ++ sep' :: rest') (inside : ∀ c ∈ first, k c = true)
    (inside' : ∀ c ∈ first', k c = true) (outside : k sep = false)
    (outside' : k sep' = false) : first = first' ∧ sep = sep' ∧ rest = rest' := by
  have before (part tail : List Char) (stop : Char) (all : ∀ c ∈ part, k c = true)
      (stops : k stop = false) : (part ++ stop :: tail).takeWhile k = part := by
    rw [List.takeWhile_append_of_pos all]
    simp [stops]
  have firsts : first = first' := by
    rw [← before first rest sep inside outside, same, before first' rest' sep' inside' outside']
  rw [firsts] at same
  exact ⟨firsts, List.cons.inj (List.append_cancel_left same)⟩

/-- Texts that are joined at a separator, which the first parts do not contain, agree
part by part. -/
theorem separated_inj {sep : Char} {first rest first' rest' : List Char}
    (same : first ++ sep :: rest = first' ++ sep :: rest') (plain : sep ∉ first)
    (plain' : sep ∉ first') : first = first' ∧ rest = rest' := by
  have other (part : List Char) (free : sep ∉ part) : ∀ c ∈ part, (c != sep) = true := by
    intro c member
    have different : c ≠ sep := fun equal => free (equal ▸ member)
    exact bne_iff_ne.mpr different
  have parts := leading_inj (k := (· != sep)) same (other first plain) (other first' plain')
    (bne_self_eq_false sep) (bne_self_eq_false sep)
  exact ⟨parts.1, parts.2.2⟩

/-- What does not contain a separator is not found across it. -/
theorem infix_separated {α : Type u} {sep : α} {part before after : List α} (free : sep ∉ part) :
    part <:+: before ++ sep :: after ↔ part <:+: before ∨ part <:+: after := by
  constructor
  · rintro ⟨front, back, whole⟩
    rcases List.append_eq_append_iff.mp whole with ⟨gap, left, -⟩ | ⟨gap, left, right⟩
    · exact .inl ⟨front, gap, left.symm⟩
    · cases gap with
      | nil => exact .inl ⟨front, [], by simpa using left⟩
      | cons first rest =>
        obtain ⟨rfl, rfl⟩ := List.cons.inj right
        rcases List.append_eq_append_iff.mp left with ⟨lead, -, right'⟩ | ⟨lead, -, right'⟩
        · exact absurd (right' ▸ List.mem_append_right _ List.mem_cons_self) free
        · cases lead with
          | nil =>
            obtain rfl : sep :: rest = part := right'
            exact absurd List.mem_cons_self free
          | cons _ lead =>
            obtain ⟨-, rfl⟩ := List.cons.inj right'
            exact .inr ⟨lead, back, rfl⟩
  · rintro (found | found)
    · exact found.trans List.infix_append_left
    · exact (found.trans (List.suffix_cons sep after).isInfix).trans List.infix_append_right

/-- The text stands here for the last time. -/
def LastAt (sub s : List Char) (i : ℕ) : Prop := sub <+: s.drop i ∧ ∀ j, i < j → ¬ sub <+: s.drop j

theorem LastAt.unique {sub s : List Char} {i j : ℕ} (first : LastAt sub s i) (second : LastAt sub s j) :
    i = j := by
  rcases Nat.lt_trichotomy i j with before | same | behind
  · exact absurd second.1 (first.2 j before)
  · exact same
  · exact absurd first.1 (second.2 i behind)

theorem rfind_eq_none {sub s : List Char} (nonempty : sub ≠ []) (nowhere : rfind sub s = none) (i : ℕ) :
    ¬ sub <+: s.drop i := by
  induction s generalizing i with
  | nil => simpa using nonempty
  | cons c s ih =>
    rw [rfind] at nowhere
    cases later : rfind sub s with
    | some i => simp [later] at nowhere
    | none =>
      cases i with
      | zero => simpa [later] using nowhere
      | succ i => exact ih later i

theorem rfind_eq_some {sub s : List Char} (nonempty : sub ≠ []) {i : ℕ} (found : rfind sub s = some i) :
    LastAt sub s i := by
  induction s generalizing i with
  | nil => simp [rfind, nonempty] at found
  | cons c s ih =>
    rw [rfind] at found
    cases later : rfind sub s with
    | some k =>
      obtain rfl : k + 1 = i := by simpa [later] using found
      obtain ⟨here, last⟩ := ih later
      refine ⟨here, fun j behind => ?_⟩
      cases j with
      | zero => omega
      | succ j => exact last j (by omega)
    | none =>
      obtain ⟨here, rfl⟩ : sub <+: c :: s ∧ 0 = i := by simpa [later] using found
      refine ⟨here, fun j behind => ?_⟩
      cases j with
      | zero => omega
      | succ j => exact rfind_eq_none nonempty later j

theorem suffix_append_iff {α : Type u} {s t u : List α} :
    s <:+ u ++ t ↔ s <:+ t ∨ ∃ v, v ≠ [] ∧ v <:+ u ∧ s = v ++ t := by
  constructor
  · rintro ⟨front, whole⟩
    rcases List.append_eq_append_iff.mp whole with ⟨v, left, right⟩ | ⟨v, -, right⟩
    · cases v with
      | nil => exact .inl (by rw [right]; exact List.suffix_refl _)
      | cons c v => exact .inr ⟨c :: v, List.cons_ne_nil _ _, ⟨front, left.symm⟩, right⟩
    · exact .inl ⟨v, right.symm⟩
  · rintro (later | ⟨v, -, inside, rfl⟩)
    · exact List.suffix_append_of_suffix later
    · exact List.suffix_append_self_iff.mpr inside

/-- What does not contain a separator begins nothing across it. -/
theorem prefix_separated {α : Type u} {sep : α} {part before after : List α} (free : sep ∉ part) :
    part <+: before ++ sep :: after ↔ part <+: before := by
  constructor
  · intro begins
    rcases List.prefix_or_prefix_of_prefix begins (List.prefix_append before _) with inside | ⟨more, rfl⟩
    · exact inside
    · rw [List.prefix_append_right_inj] at begins
      cases more with
      | nil => rw [List.append_nil]
      | cons c more =>
        obtain ⟨rfl, -⟩ := List.cons_prefix_cons.mp begins
        exact absurd (List.mem_append_right _ List.mem_cons_self) free
  · exact fun begins => begins.trans (List.prefix_append _ _)

/-- The mark begins the text at no other place than this one. -/
def OnlyAt {α : Type u} (mark text place : List α) : Prop := ∀ s, s <:+ text → mark <+: s → s = place

section OnlyAt

variable {α : Type u} {mark text place x y : List α} {sep : α}

/-- What stands before the mark and behind it is then determined. -/
theorem OnlyAt.inj (only : OnlyAt mark text place) (whole : text = x ++ (mark ++ y)) : mark ++ y = place :=
  only _ (whole ▸ List.suffix_append _ _) (List.prefix_append _ _)

theorem OnlyAt.separated (only : OnlyAt mark text place) (free : sep ∉ mark) (nonempty : mark ≠ [])
    (absent : ¬ mark <:+: x) : OnlyAt mark (x ++ sep :: text) place := by
  intro s inside begins
  rcases suffix_append_iff.mp inside with later | ⟨v, -, front, rfl⟩
  · rcases List.suffix_cons_iff.mp later with rfl | later
    · have front : mark <+: [] ++ sep :: text ↔ mark <+: [] := prefix_separated free
      exact absurd (List.prefix_nil.mp (front.mp begins)) nonempty
    · exact only s later begins
  · exact absurd (((prefix_separated free).mp begins).isInfix.trans front.isInfix) absent

theorem onlyAt_around {sep : Char} {a b x y : List Char} (free : sep ∉ a) (before : sep ∉ x) (after : sep ∉ y) :
    OnlyAt (a ++ sep :: b) (x ++ sep :: y) (a ++ sep :: y) := by
  intro s inside begins
  have around (v : List Char) (front : v <:+ x) (same : s = v ++ sep :: y) : s = a ++ sep :: y := by
    obtain ⟨more, whole⟩ := begins
    rw [same, List.append_assoc, List.cons_append] at whole
    rw [same, (separated_inj whole free fun member => before (front.subset member)).1]
  rcases suffix_append_iff.mp inside with later | ⟨v, -, front, same⟩
  · rcases List.suffix_cons_iff.mp later with same | later
    · exact around [] (List.nil_suffix) same
    · exact absurd (later.subset (begins.subset (List.mem_append_right _ List.mem_cons_self))) after
  · exact around v front same

end OnlyAt

theorem toString_digits (n : ℕ) : ∀ c ∈ (toString n).toList, c.isDigit = true := by
  intro c member
  rw [Nat.toString_eq_repr, Nat.toList_repr] at member
  exact Nat.isDigit_of_mem_toDigits (by decide) (by decide) member

section Joined

variable {α : Type u} {sep part before after : List α} {parts : List (List α)}

theorem infix_intercalate (member : part ∈ parts) : part <:+: sep.intercalate parts := by
  induction parts with
  | nil => cases member
  | cons first rest ih =>
    cases rest with
    | nil =>
      obtain rfl := List.mem_singleton.mp member
      rw [List.intercalate_singleton]
    | cons second rest =>
      rw [List.intercalate_cons_cons, List.append_assoc]
      rcases List.mem_cons.mp member with rfl | later
      · exact List.infix_append_left
      · exact ((ih later).trans List.infix_append_right).trans List.infix_append_right

/-- What has no character of the separator is found on one side of it. -/
theorem infix_apart (apart : ∀ c ∈ sep, c ∉ part) (nonempty : part ≠ []) (some_ : sep ≠ [])
    (found : part <:+: before ++ (sep ++ after)) : part <:+: before ∨ part <:+: after := by
  induction sep generalizing before with
  | nil => exact absurd rfl some_
  | cons c sep ih =>
    obtain ⟨first, rest⟩ := List.forall_mem_cons.mp apart
    rcases (infix_separated first).mp found with left | right
    · exact .inl left
    · cases sep with
      | nil => exact .inr right
      | cons d sep =>
        rcases @ih [] rest (List.cons_ne_nil _ _) right with empty | behind
        · exact absurd (List.infix_nil.mp empty) nonempty
        · exact .inr behind

/-- What is found in a joined text, and has no character of the separator, is found in a part. -/
theorem infix_of_intercalate (apart : ∀ c ∈ sep, c ∉ part) (nonempty : part ≠ []) (some_ : sep ≠ [])
    (found : part <:+: sep.intercalate parts) : ∃ p ∈ parts, part <:+: p := by
  induction parts with
  | nil => exact absurd (List.infix_nil.mp found) nonempty
  | cons first rest ih =>
    cases rest with
    | nil =>
      rw [List.intercalate_singleton] at found
      exact ⟨first, List.mem_cons_self, found⟩
    | cons second rest =>
      rw [List.intercalate_cons_cons, List.append_assoc] at found
      rcases infix_apart apart nonempty some_ found with here | later
      · exact ⟨first, List.mem_cons_self, here⟩
      · obtain ⟨p, member, inside⟩ := ih later
        exact ⟨p, List.mem_cons_of_mem _ member, inside⟩

theorem mem_intercalate {c : α} (member : c ∈ sep.intercalate parts) : c ∈ sep ∨ ∃ p ∈ parts, c ∈ p := by
  induction parts with
  | nil => cases member
  | cons first rest ih =>
    cases rest with
    | nil => exact .inr ⟨first, List.mem_cons_self, by simpa using member⟩
    | cons second rest =>
      rw [List.intercalate_cons_cons, List.mem_append, List.mem_append] at member
      rcases member with (here | between) | later
      · exact .inr ⟨first, List.mem_cons_self, here⟩
      · exact .inl between
      · exact (ih later).imp_right fun ⟨p, inside, found⟩ => ⟨p, List.mem_cons_of_mem _ inside, found⟩

/-- Parts without the first character of the separator can be read back. -/
theorem intercalate_inj {c : Char} {more : List Char} {ps qs : List (List Char)} (some_ : ps ≠ [])
    (some_' : qs ≠ []) (plain : ∀ p ∈ ps, c ∉ p) (plain' : ∀ q ∈ qs, c ∉ q)
    (same : (c :: more).intercalate ps = (c :: more).intercalate qs) : ps = qs := by
  induction ps generalizing qs with
  | nil => exact absurd rfl some_
  | cons p ps ih =>
    obtain ⟨q, qs, rfl⟩ := List.exists_cons_of_ne_nil some_'
    obtain ⟨here, later⟩ := List.forall_mem_cons.mp plain
    obtain ⟨here', later'⟩ := List.forall_mem_cons.mp plain'
    cases ps with
    | nil =>
      cases qs with
      | nil => simpa using same
      | cons q' qs =>
        rw [List.intercalate_singleton, List.intercalate_cons_cons] at same
        exact absurd (same ▸ by simp) here
    | cons p' ps =>
      cases qs with
      | nil =>
        rw [List.intercalate_singleton, List.intercalate_cons_cons] at same
        exact absurd (same ▸ by simp) here'
      | cons q' qs =>
        rw [List.intercalate_cons_cons, List.intercalate_cons_cons, List.append_assoc, List.append_assoc,
          List.cons_append, List.cons_append] at same
        obtain ⟨rfl, rest⟩ := separated_inj same here here'
        rw [ih (List.cons_ne_nil _ _) (List.cons_ne_nil _ _) later later' (List.append_cancel_left rest)]

end Joined

theorem infix_join (sep : String) {part : String} {parts : List String} (member : part ∈ parts) :
    part.toList <:+: (join sep parts).toList := by
  unfold join
  induction parts with
  | nil => cases member
  | cons first rest ih =>
    cases rest with
    | nil =>
      obtain rfl := List.mem_singleton.mp member
      rw [String.intercalate_singleton]
    | cons second rest =>
      rw [String.intercalate_cons_cons, String.toList_append, String.toList_append, List.append_assoc]
      rcases List.mem_cons.mp member with rfl | later
      · exact List.infix_append_left
      · exact ((ih later).trans List.infix_append_right).trans List.infix_append_right

example : Case.ascii.upper "sel-1" = "SEL-1" := by decide
example : words " a  b\n" = ["a","b"] := by decide

end Lib.Py

import Mathlib.Data.List.Forall2
import Nl2SqlAgent.Lib.PyText

/-! Pieces of a text between separators of several characters, and phrases that are looked for
in the text in lower case. -/
namespace Lib.Py

/-- Splits from the left; `skip` characters belong to a separator. -/
def splitFrom (sep : List Char) (skip : ℕ) (piece : List Char) : List Char → List (List Char)
  | [] => [piece.reverse]
  | c :: s =>
    if 0 < skip then splitFrom sep (skip - 1) piece s
    else if sep.isPrefixOf (c :: s) then piece.reverse :: splitFrom sep (sep.length - 1) [] s
    else splitFrom sep 0 (c :: piece) s

/-- `s.split(sep)` of a separator that is not empty. -/
def splitText (sep s : String) : List String :=
  (splitFrom sep.toList 0 [] s.toList).map String.ofList

/-- `s.split(sep)[-1]`. -/
def lastPiece (sep s : String) : String := (splitText sep s).getLastD ""

theorem lastPiece_ofList (sep : String) (s : List Char) :
    (lastPiece sep (.ofList s)).toList = (splitFrom sep.toList 0 [] s).getLastD [] := by
  rw [lastPiece, splitText, String.toList_ofList]
  cases splitFrom sep.toList 0 [] s using List.reverseRecOn <;> simp

/-- `s.strip(chars)`. -/
def stripChars (chars s : String) : String :=
  .ofList ((s.toList.dropWhile (· ∈ chars.toList)).rdropWhile (· ∈ chars.toList))

/-- `strip` on the characters. -/
def trim (s : List Char) : List Char := (s.dropWhile isSpace).rdropWhile isSpace

theorem strip_ofList (s : List Char) : strip (.ofList s) = .ofList (trim s) := by
  rw [strip, String.toList_ofList, trim]

theorem dropWhile_blank {w : List Char} (blank : ∀ c ∈ w, isSpace c = true) (s : List Char) :
    (w ++ s).dropWhile isSpace = s.dropWhile isSpace := List.dropWhile_append_of_pos blank

theorem rdropWhile_blank {w : List Char} (blank : ∀ c ∈ w, isSpace c = true) (s : List Char) :
    (s ++ w).rdropWhile isSpace = s.rdropWhile isSpace := by
  rw [List.rdropWhile, List.rdropWhile, List.reverse_append, dropWhile_blank]
  exact fun c member => blank c (List.mem_reverse.mp member)

theorem trim_blank_left {w : List Char} (blank : ∀ c ∈ w, isSpace c = true) (s : List Char) :
    trim (w ++ s) = trim s := by
  rw [trim, trim, dropWhile_blank blank]

/-- A text between two characters that are no white space is left. -/
theorem trim_solid {s : List Char} (nonempty : s ≠ []) (first : isSpace (s.head nonempty) = false)
    (last : isSpace (s.getLast nonempty) = false) : trim s = s := by
  have front : s.dropWhile isSpace = s :=
    List.dropWhile_eq_self_iff.mpr fun _ => by
      simpa only [List.get_eq_getElem, List.getElem_zero, first] using Bool.false_ne_true
  rw [trim, front]
  exact List.rdropWhile_eq_self_iff.mpr fun _ => by simp [last]

theorem trim_padded {w s v : List Char} (blank : ∀ c ∈ w, isSpace c = true)
    (blank' : ∀ c ∈ v, isSpace c = true)
    (nonempty : s ≠ []) (first : isSpace (s.head nonempty) = false)
    (last : isSpace (s.getLast nonempty) = false) : trim (w ++ (s ++ v)) = s := by
  have front : (s ++ v).dropWhile isSpace = s ++ v := by
    cases s with
    | nil => exact absurd rfl nonempty
    | cons c s => exact List.dropWhile_cons_of_neg (by simpa using first)
  rw [trim_blank_left blank, trim, front, rdropWhile_blank blank']
  exact List.rdropWhile_eq_self_iff.mpr fun _ => by simp [last]

theorem filter_trim (s : List Char) : (trim s).filter (!isSpace ·) = s.filter (!isSpace ·) := by
  have front (s : List Char) : (s.dropWhile isSpace).filter (!isSpace ·) = s.filter (!isSpace ·) := by
    induction s with
    | nil => rfl
    | cons c s ih =>
      by_cases blank : isSpace c = true
      · rw [List.dropWhile_cons_of_pos blank, ih, List.filter_cons_of_neg (by simp [blank])]
      · rw [List.dropWhile_cons_of_neg blank]
  rw [trim, List.rdropWhile, List.filter_reverse, front, List.filter_reverse, List.reverse_reverse, front]

theorem trim_infix (s : List Char) : trim s <:+: s :=
  (List.rdropWhile_prefix _ _).isInfix.trans (List.dropWhile_suffix _).isInfix

theorem splitChar_second (ch : Char) (s : String) :
    ((splitChar ch s)[1]?).isSome = true ↔ ch ∈ s.toList := by
  rw [splitChar, List.getElem?_map, Option.isSome_map, List.splitOn]
  by_cases member : ch ∈ s.toList
  · obtain ⟨first, rest, whole, free⟩ := List.eq_append_cons_of_mem member
    have plain : ∀ c ∈ first, (c == ch) = false := fun c inside =>
      beq_false_of_ne fun same => free (same ▸ inside)
    rw [whole, List.splitOnP_append_cons_of_forall_mem plain ch (beq_self_eq_true ch),
      List.getElem?_cons_succ]
    cases pieces : rest.splitOnP (· == ch) with
    | nil => exact absurd pieces (List.splitOnP_ne_nil _ _)
    | cons piece _ => simp
  · have plain : ∀ c ∈ s.toList, (c == ch) = false := fun c inside =>
      beq_false_of_ne fun same => member (same ▸ inside)
    rw [List.splitOnP_eq_singleton plain]
    simp [member]

/-- The same characters, apart from those beyond ASCII. -/
abbrev Alike (s t : List Char) : Prop :=
  List.Forall₂ (fun x y => x = y ∨ (128 ≤ x.val ∧ 128 ≤ y.val)) s t

/-- The lower case of a text is made of those of its parts, apart from characters beyond ASCII
that look at what stands around them. -/
def Case.Local (m : Case) : Prop := ∀ a b, ∃ a' b', m.lowerText (a ++ b) = a' ++ b' ∧
  Alike (m.lowerText a) a' ∧ Alike (m.lowerText b) b'

theorem Case.ascii_local : Case.ascii.Local := fun a b =>
  ⟨a.map Char.toLower, b.map Char.toLower, List.map_append,
    List.forall₂_same.mpr fun _ _ => .inl rfl, List.forall₂_same.mpr fun _ _ => .inl rfl⟩

section

variable {m : Case} {phrase s t : List Char}

theorem Alike.eq_of_ascii (ascii : ∀ c ∈ phrase, c.val < 128) (alike : Alike phrase t) : t = phrase := by
  induction alike with
  | nil => rfl
  | cons here _ ih =>
    obtain ⟨first, rest⟩ := List.forall_mem_cons.mp ascii
    rw [ih rest]
    rcases here with rfl | ⟨beyond, -⟩
    · rfl
    · exact absurd first (UInt32.not_lt.mpr beyond)

theorem alike_append {a b : List Char} (alike : Alike (a ++ b) t) :
    ∃ a' b', t = a' ++ b' ∧ Alike a a' ∧ Alike b b' := by
  refine ⟨t.take a.length, t.drop a.length, (List.take_append_drop _ _).symm, ?_, ?_⟩
  · simpa using List.forall₂_take a.length alike
  · simpa using List.forall₂_drop a.length alike

theorem infix_alike (ascii : ∀ c ∈ phrase, c.val < 128) (found : phrase <:+: s)
    (alike : Alike s t) : phrase <:+: t := by
  obtain ⟨front, back, rfl⟩ := found
  obtain ⟨ahead, behind, rfl, first, -⟩ := alike_append alike
  obtain ⟨before, here, rfl, -, same⟩ := alike_append first
  rw [same.eq_of_ascii ascii]
  exact List.infix_append before phrase behind

/-- A phrase that is found in a part of a text is found in the text. -/
theorem Case.Local.infix_lower (loc : m.Local) (ascii : ∀ c ∈ phrase, c.val < 128)
    (a b c : List Char) (found : phrase <:+: m.lowerText b) :
    phrase <:+: m.lowerText (a ++ (b ++ c)) := by
  obtain ⟨front, rest, whole, -, restAlike⟩ := loc a (b ++ c)
  obtain ⟨middle, back, part, middleAlike, -⟩ := loc b c
  have inside : phrase <:+: m.lowerText (b ++ c) := by
    rw [part]
    exact (infix_alike ascii found middleAlike).trans List.infix_append_left
  rw [whole]
  exact (infix_alike ascii inside restAlike).trans List.infix_append_right

end

end Lib.Py

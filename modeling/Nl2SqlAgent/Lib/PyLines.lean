import Nl2SqlAgent.Lib.PyText

/-! `str.splitlines`: a text taken apart at every character that Python counts as a line break,
and at a carriage return with a line feed behind it. -/
namespace Lib.Py

def isLineBreak (c : Char) : Bool :=
  let n := c.toNat
  (10 ≤ n && n ≤ 13) || (28 ≤ n && n ≤ 30) || n == 0x85 || n == 0x2028 || n == 0x2029

/-- A property of the characters of a text, checked one by one. -/
theorem all_of {w : List Char} {p : Char → Prop} [DecidablePred p]
    (checked : w.all (fun c => decide (p c)) = true) : ∀ c ∈ w, p c := fun c member =>
  of_decide_eq_true (List.all_eq_true.mp checked c member)

/-- A character in front of the first line. -/
def inFront (c : Char) : List (List Char) → List (List Char)
  | [] => [[c]]
  | line :: lines => (c :: line) :: lines

def splitlines : List Char → List (List Char)
  | [] => []
  | c :: s =>
    if c = '\r' then
      match s with
      | [] => [[]]
      | d :: t => if d = '\n' then [] :: splitlines t else [] :: splitlines (d :: t)
    else if isLineBreak c then [] :: splitlines s
    else inFront c (splitlines s)

theorem splitlines_crlf (s : List Char) : splitlines ('\r' :: '\n' :: s) = [] :: splitlines s := rfl

theorem splitlines_cons {c : Char} (single : c ≠ '\r') (s : List Char) : splitlines (c :: s) =
    if isLineBreak c then [] :: splitlines s else inFront c (splitlines s) := by
  rw [splitlines.eq_def]
  exact if_neg single

theorem inFront_append (c : Char) {lines : List (List Char)} (some_ : lines ≠ [])
    (others : List (List Char)) : inFront c (lines ++ others) = lines.modifyHead (c :: ·) ++ others := by
  cases lines with
  | nil => contradiction
  | cons line lines => rfl

/-- A text that a line end follows falls into its parts between the breaks. -/
theorem splitlines_parts {w : List Char} (single : '\r' ∉ w) (s : List Char) :
    splitlines (w ++ '\r' :: '\n' :: s) = w.splitOnP isLineBreak ++ splitlines s := by
  induction w with
  | nil => exact splitlines_crlf s
  | cons c w ih =>
    obtain ⟨own, others⟩ := not_or.mp fun member => single (List.mem_cons.mpr member)
    rw [List.cons_append, splitlines_cons (Ne.symm own), ih others,
      List.splitOnP_cons_eq_if_modifyHead]
    split
    · rfl
    · exact inFront_append c (List.splitOnP_ne_nil _ _) _

theorem splitOnP_plain {p : Char → Bool} {w : List Char} (plain : ∀ c ∈ w, p c = false) :
    w.splitOnP p = [w] := by
  induction w with
  | nil => rfl
  | cons c w ih =>
    obtain ⟨own, others⟩ := List.forall_mem_cons.mp plain
    rw [List.splitOnP_cons_eq_if_modifyHead, own, ih others]
    rfl

theorem splitOnP_congr {p q : Char → Bool} {w : List Char} (same : ∀ c ∈ w, p c = q c) :
    w.splitOnP p = w.splitOnP q := by
  induction w with
  | nil => rfl
  | cons c w ih =>
    obtain ⟨own, others⟩ := List.forall_mem_cons.mp same
    rw [List.splitOnP_cons_eq_if_modifyHead, List.splitOnP_cons_eq_if_modifyHead, own, ih others]

/-- A text without a break in front of the first part. -/
theorem splitOnP_front {p : Char → Bool} {v : List Char} (plain : ∀ c ∈ v, p c = false)
    (w : List Char) : (v ++ w).splitOnP p = (w.splitOnP p).modifyHead (v ++ ·) := by
  induction v with
  | nil => exact (congrFun List.modifyHead_id (w.splitOnP p)).symm
  | cons c v ih =>
    obtain ⟨own, others⟩ := List.forall_mem_cons.mp plain
    rw [List.cons_append, List.splitOnP_cons_eq_if_modifyHead, own, ih others]
    cases w.splitOnP p <;> rfl

/-- The first part ends where the first break stands. -/
theorem splitOnP_cut {p : Char → Bool} {w : List Char} {c : Char} (member : c ∈ w) (broken : p c = true) :
    ∃ part d rest, w = part ++ d :: rest ∧ p d = true ∧ w.splitOnP p = part :: rest.splitOnP p := by
  induction w with
  | nil => contradiction
  | cons d w ih =>
    rw [List.splitOnP_cons_eq_if_modifyHead]
    cases own : p d with
    | true => exact ⟨[], d, w, rfl, own, rfl⟩
    | false =>
      rcases List.mem_cons.mp member with rfl | later
      · rw [own] at broken
        contradiction
      · obtain ⟨part, e, rest, cut, here, parts⟩ := ih later
        refine ⟨d :: part, e, rest, by rw [cut, List.cons_append], here, ?_⟩
        rw [parts]
        rfl

theorem splitlines_line {w : List Char} (plain : ∀ c ∈ w, isLineBreak c = false) (s : List Char) :
    splitlines (w ++ '\r' :: '\n' :: s) = w :: splitlines s := by
  have single : '\r' ∉ w := fun member => absurd (plain _ member) (by decide)
  rw [splitlines_parts single, splitOnP_plain plain]
  rfl

/-- `line.strip()`, by its characters. -/
def stripped (s : List Char) : List Char := (s.dropWhile isSpace).rdropWhile isSpace

section Stripped

variable {front w t : List Char} {c : Char}

theorem dropWhile_front (blanks : ∀ c ∈ front, isSpace c = true) (solid : isSpace c = false) :
    (front ++ c :: t).dropWhile isSpace = c :: t := by
  rw [List.dropWhile_append_of_pos blanks]
  exact List.dropWhile_cons_of_neg (by simp [solid])

/-- Behind the blanks in front, a beginning of the rest. -/
theorem stripped_prefix (blanks : ∀ c ∈ front, isSpace c = true) (solid : isSpace c = false) :
    stripped (front ++ c :: t) <+: c :: t := by
  rw [stripped, dropWhile_front blanks solid]
  exact List.rdropWhile_prefix _ _

theorem stripped_between (blanks : ∀ c ∈ front, isSpace c = true) (first : isSpace c = false)
    {last : Char} (solid : isSpace last = false) (whole : w = c :: t ++ [last]) :
    stripped (front ++ w) = w := by
  rw [whole, List.cons_append, stripped, dropWhile_front blanks first, ← List.cons_append]
  exact List.rdropWhile_concat_neg _ _ _ (by simp [solid])

/-- What is cut off is blank. -/
theorem stripped_cut (s : List Char) : ∃ front back, s = front ++ (stripped s ++ back) ∧
    (∀ c ∈ front, isSpace c = true) ∧ ∀ c ∈ back, isSpace c = true := by
  refine ⟨s.takeWhile isSpace, (s.dropWhile isSpace).rtakeWhile isSpace, ?_,
    fun c => List.mem_takeWhile_imp, fun c => List.mem_rtakeWhile_imp⟩
  rw [stripped, List.rdropWhile_append_rtakeWhile, List.takeWhile_append_dropWhile]

end Stripped

end Lib.Py

import Nl2SqlAgent.Lib.PyText

/-! The words of a text, and the texts that have given words. -/
namespace Lib.Py

/-- `s.split()` on characters. -/
def split (s : List Char) : List (List Char) := (s.splitOnP isSpace).filter (· ≠ [])

theorem words_eq (s : String) : words s = (split s.toList).map String.ofList := rfl

/-- Not empty, and without white space. -/
structure IsWord (w : List Char) : Prop where
  nonempty : w ≠ []
  solid : ∀ c ∈ w, isSpace c = false

/-- The texts with the given words: white space between them, and any before and behind. -/
inductive Spread : List (List Char) → List Char → Prop where
  | nil : Spread [] []
  | space {c : Char} (blank : isSpace c = true) {ws s} (rest : Spread ws s) : Spread ws (c :: s)
  | last {w : List Char} (word : IsWord w) : Spread [w] w
  | word {w : List Char} (word : IsWord w) {c : Char} (blank : isSpace c = true) {ws s}
      (rest : Spread ws s) : Spread (w :: ws) (w ++ c :: s)

section

variable {c : Char} {s s' w : List Char} {ws ws' : List (List Char)}

theorem split_space (blank : isSpace c = true) (s : List Char) : split (c :: s) = split s := by
  simp [split, List.splitOnP_cons_eq_if_modifyHead, blank]

theorem split_word (word : IsWord w) (blank : isSpace c = true) (s : List Char) :
    split (w ++ c :: s) = w :: split s := by
  rw [split, List.splitOnP_append_cons_of_forall_mem word.solid c blank, List.filter_cons_of_pos, split]
  exact decide_eq_true word.nonempty

theorem split_last (word : IsWord w) : split w = [w] := by
  rw [split, List.splitOnP_eq_singleton word.solid, List.filter_cons_of_pos, List.filter_nil]
  exact decide_eq_true word.nonempty

theorem Spread.split (spread : Spread ws s) : split s = ws := by
  induction spread with
  | nil => rfl
  | space blank _ ih => rw [split_space blank, ih]
  | last word => exact split_last word
  | word word blank _ ih => rw [split_word word blank, ih]

theorem spread_split (s : List Char) : Spread (split s) s := by
  cases shape : s.dropWhile (!isSpace ·) with
  | nil =>
    have solid : ∀ c ∈ s, isSpace c = false := by
      intro c member
      simpa using List.dropWhile_eq_nil_iff.mp shape c member
    cases s with
    | nil => exact .nil
    | cons c rest =>
      have word : IsWord (c :: rest) := ⟨nofun, solid⟩
      rw [split_last word]
      exact .last word
  | cons c rest =>
    have blank : isSpace c = true := by
      have stopped := List.head_dropWhile_not (p := (!isSpace ·)) (l := s) (by simp [shape])
      simpa [shape] using stopped
    have whole : s.takeWhile (!isSpace ·) ++ c :: rest = s := shape ▸ List.takeWhile_append_dropWhile
    have shorter : rest.length < s.length := by
      rw [← whole]
      simp
      omega
    have tail := spread_split rest
    rw [← whole]
    by_cases empty : s.takeWhile (!isSpace ·) = []
    · rw [empty, List.nil_append, split_space blank]
      exact .space blank tail
    · have word : IsWord (s.takeWhile (!isSpace ·)) :=
        ⟨empty, fun d member => by simpa using List.mem_takeWhile_imp member⟩
      rw [split_word word blank]
      exact .word word blank tail
termination_by s.length

theorem Spread.words (spread : Spread ws s) : ∀ w ∈ ws, IsWord w := by
  induction spread with
  | nil => nofun
  | space _ _ ih => exact ih
  | last word => simpa using word
  | word word _ _ ih => exact List.forall_mem_cons.mpr ⟨word, ih⟩

theorem split_words (s : List Char) : ∀ w ∈ split s, IsWord w := (spread_split s).words

/-- The words with one space between them. -/
def joined : List (List Char) → List Char
  | [] => []
  | [w] => w
  | w :: v :: ws => w ++ ' ' :: joined (v :: ws)

theorem spread_joined (words : ∀ w ∈ ws, IsWord w) : Spread ws (joined ws) := by
  induction ws with
  | nil => exact .nil
  | cons w rest ih =>
    obtain ⟨word, tail⟩ := List.forall_mem_cons.mp words
    cases rest with
    | nil => exact .last word
    | cons v rest => exact .word word (by decide) (ih tail)

theorem mem_joined {c : Char} (member : c ∈ joined ws) : c = ' ' ∨ ∃ w ∈ ws, c ∈ w := by
  induction ws with
  | nil => cases member
  | cons w rest ih =>
    cases rest with
    | nil => exact .inr ⟨w, List.mem_cons_self, member⟩
    | cons v rest =>
      rcases List.mem_append.mp member with here | later
      · exact .inr ⟨w, List.mem_cons_self, here⟩
      · rcases List.mem_cons.mp later with rfl | later
        · exact .inl rfl
        · rcases ih later with equal | ⟨u, inside, here⟩
          · exact .inl equal
          · exact .inr ⟨u, List.mem_cons_of_mem _ inside, here⟩

theorem newline_joined (words : ∀ w ∈ ws, IsWord w) : '\n' ∉ joined ws := by
  intro newline
  rcases mem_joined newline with equal | ⟨w, inside, here⟩
  · cases equal
  · cases (words w inside).solid _ here

theorem joined_inj (words : ∀ w ∈ ws, IsWord w) (words' : ∀ w ∈ ws', IsWord w)
    (same : joined ws = joined ws') : ws = ws' := by
  rw [← (spread_joined words).split, same, (spread_joined words').split]

theorem join_words (s : String) : (join " " (words s)).toList = joined (split s.toList) := by
  have general (parts : List (List Char)) :
      (join " " (parts.map String.ofList)).toList = joined parts := by
    induction parts with
    | nil => rfl
    | cons w rest ih =>
      cases rest with
      | nil => simp [join, joined]
      | cons v rest =>
        simp only [join, List.map_cons, String.intercalate_cons_cons, String.toList_append] at ih ⊢
        rw [joined, ih]
        simp
  exact general _

theorem joined_head (word : IsWord w) (ws : List (List Char)) :
    ∃ c rest, joined (w :: ws) = c :: rest ∧ isSpace c = false := by
  obtain ⟨c, front, rfl⟩ := List.exists_cons_of_ne_nil word.nonempty
  have solid := word.solid c List.mem_cons_self
  cases ws with
  | nil => exact ⟨c, front, rfl, solid⟩
  | cons v rest => exact ⟨c, _, rfl, solid⟩

theorem joined_last (words : ∀ w ∈ ws, IsWord w) (nonempty : ws ≠ []) :
    ∃ front c, joined ws = front ++ [c] ∧ isSpace c = false := by
  induction ws with
  | nil => contradiction
  | cons w rest ih =>
    obtain ⟨word, tail⟩ := List.forall_mem_cons.mp words
    cases rest with
    | nil =>
      refine ⟨w.dropLast, w.getLast word.nonempty, (List.dropLast_append_getLast word.nonempty).symm, ?_⟩
      exact word.solid _ (List.getLast_mem word.nonempty)
    | cons v rest =>
      obtain ⟨front, c, shape, solid⟩ := ih tail nofun
      exact ⟨w ++ ' ' :: front, c, by simp [joined, shape], solid⟩

/-- Joined words have nothing to strip. -/
theorem strip_join_words (s : String) : strip (join " " (words s)) = join " " (words s) := by
  apply String.toList_inj.mp
  rw [strip, String.toList_ofList, join_words]
  have words := split_words s.toList
  cases shape : split s.toList with
  | nil => rfl
  | cons w ws =>
    rw [shape] at words
    obtain ⟨c, rest, head, solid⟩ := joined_head (List.forall_mem_cons.mp words).1 ws
    obtain ⟨front, d, back, solid'⟩ := joined_last words nofun
    have kept : (joined (w :: ws)).dropWhile isSpace = joined (w :: ws) := by
      rw [head, List.dropWhile_cons_of_neg (by simp [solid])]
    rw [kept, back, List.rdropWhile_concat_neg _ _ _ (by simp [solid'])]

end

example : split " SELECT\n1 ".toList = ["SELECT".toList,"1".toList] := by decide

end Lib.Py

import Nl2SqlAgent.Lib.SqlLexer

/-! Case mappings under the lexer: what folds the case of a text folds that of its tokens. -/
namespace Lib.Sql

open Lib.Py

/-- The forms that a case mapping can give each character. Letters become letters, other
characters stay, and a form is changed no more. -/
structure Fold where
  forms : Char → List (List Char)
  letters : ∀ c, isLetter c = true → ∀ p ∈ forms c, p ≠ [] ∧ ∀ d ∈ p, isLetter d = true
  others : ∀ c, isLetter c = false → ∀ p ∈ forms c, p = [c]
  settled : ∀ c, ∀ p ∈ forms c, ∀ d ∈ p, forms d = [[d]]

/-- A mapping of each character by itself. -/
def Fold.ofMap (g : Char → Char) (letters : ∀ c, isLetter c = true → isLetter (g c) = true)
    (others : ∀ c, isLetter c = false → g c = c) (settled : ∀ c, g (g c) = g c) : Fold where
  forms c := [[g c]]
  letters c letter p form := by
    obtain rfl := List.mem_singleton.mp form
    exact ⟨nofun, by simpa using letters c letter⟩
  others c other p form := by
    rw [List.mem_singleton.mp form, others c other]
  settled c p form d member := by
    obtain rfl := List.mem_singleton.mp form
    rw [List.mem_singleton.mp member, settled]

/-- The second text is the first in one of its forms. -/
inductive Fold.Spells (f : Fold) : List Char → List Char → Prop where
  | nil : f.Spells [] []
  | cons {c p s t} (form : p ∈ f.forms c) (rest : f.Spells s t) : f.Spells (c :: s) (p ++ t)

/-- The mapping leaves the text alone. -/
def Fold.Kept (f : Fold) (t : List Char) : Prop := ∀ c ∈ t, [c] ∈ f.forms c

inductive Mode.Image (f : Fold) : Mode → Mode → Prop where
  | code : Image f .code .code
  | word {t u} (spells : f.Spells t u) : Image f (.word t) (.word u)
  | dash : Image f .dash .dash
  | slash : Image f .slash .slash
  | quoted (q : Quote) {t u} (spells : f.Spells t u) : Image f (.quoted q t) (.quoted q u)
  | closing (q : Quote) {t u} (spells : f.Spells t u) : Image f (.closing q t) (.closing q u)
  | line : Image f .line .line
  | block : Image f .block .block
  | star : Image f .star .star

inductive Token.Image (f : Fold) : Token → Token → Prop where
  | word {t u} (spells : f.Spells t u) : Image f (.word t) (.word u)
  | symbol (c : Char) : Image f (.symbol c) (.symbol c)
  | quoted (q : Quote) (closed : Bool) {t u} (spells : f.Spells t u) :
      Image f (.quoted q t closed) (.quoted q u closed)

/-- Letters that are read from `m`. -/
def Mode.read (m : Mode) (p : List Char) : Mode × List Token :=
  match m with
  | .word t => (.word (t ++ p), [])
  | .quoted q t => (.quoted q (t ++ p), [])
  | .line => (.line, [])
  | .block | .star => (.block, [])
  | .code | .dash | .slash | .closing _ _ => (.word p, finish m)

section

variable {f g : Fold} {m n : Mode} {c : Char} {p s t u w : List Char} {ws us : List (List Char)}

theorem ofMap_spells {h : Char → Char} {letters others settled} (s : List Char) :
    (Fold.ofMap h letters others settled).Spells s (s.map h) := by
  induction s with
  | nil => exact .nil
  | cons c s ih => exact .cons (List.mem_singleton_self _) ih

theorem isLetter_ne {d : Char} (letter : isLetter c = true) (other : isLetter d = false) : c ≠ d := by
  rintro rfl
  rw [other] at letter
  contradiction

theorem Quote.char_other (q : Quote) : isLetter q.char = false := by cases q <;> decide

theorem step_letter (letter : isLetter c = true) (m : Mode) : step m c = m.read [c] := by
  have solid : isSpace c = false := by
    cases blank : isSpace c
    · rfl
    · simp [isLetter, blank] at letter
  have entered : enter c = (.word [c], []) := by simp [enter, solid, letter]
  have newline : c ≠ '\n' := isLetter_ne letter (by decide)
  have dash : c ≠ '-' := isLetter_ne letter (by decide)
  have slash : c ≠ '/' := isLetter_ne letter (by decide)
  have star : c ≠ '*' := isLetter_ne letter (by decide)
  cases m with
  | quoted q t => simp [step, Mode.read, isLetter_ne letter q.char_other]
  | closing q t => simp [step, Mode.read, leave, entered, isLetter_ne letter q.char_other]
  | _ => simp [step, Mode.read, leave, entered, letter, finish, newline, dash, slash, star]

theorem feed_letters (nonempty : p ≠ []) (letters : ∀ d ∈ p, isLetter d = true) (m : Mode) :
    feed m p = m.read p := by
  induction p generalizing m with
  | nil => contradiction
  | cons c rest ih =>
    obtain ⟨here, later⟩ := List.forall_mem_cons.mp letters
    rw [feed, step_letter here]
    cases rest with
    | nil => simp [feed]
    | cons d rest =>
      rw [ih (List.cons_ne_nil _ _) later]
      cases m <;> simp [Mode.read, finish]

theorem Fold.Spells.append (first : f.Spells s t) (second : f.Spells u w) :
    f.Spells (s ++ u) (t ++ w) := by
  induction first with
  | nil => exact second
  | cons form _ ih => simpa using Fold.Spells.cons form ih

theorem spells_form (form : p ∈ f.forms c) : f.Spells [c] p := by
  simpa using Fold.Spells.cons form .nil

theorem spells_cons (spells : f.Spells (c :: s) w) :
    ∃ p t, w = p ++ t ∧ p ∈ f.forms c ∧ f.Spells s t := by
  cases spells with
  | cons form rest => exact ⟨_, _, rfl, form, rest⟩

theorem spells_append (spells : f.Spells (s ++ t) w) :
    ∃ u v, w = u ++ v ∧ f.Spells s u ∧ f.Spells t v := by
  induction s generalizing w with
  | nil => exact ⟨[], w, rfl, .nil, spells⟩
  | cons c s ih =>
    obtain ⟨p, tail, rfl, form, rest⟩ := spells_cons spells
    obtain ⟨u, v, rfl, first, second⟩ := ih rest
    exact ⟨p ++ u, v, (List.append_assoc ..).symm, .cons form first, second⟩

theorem finish_image (image : m.Image f n) : List.Forall₂ (Token.Image f) (finish m) (finish n) := by
  cases image with
  | word spells => exact .cons (.word spells) .nil
  | dash => exact .cons (.symbol _) .nil
  | slash => exact .cons (.symbol _) .nil
  | quoted q spells => exact .cons (.quoted q false spells) .nil
  | closing q spells => exact .cons (.quoted q true spells) .nil
  | _ => exact .nil

theorem enter_image (other : isLetter c = false) : (enter c).1.Image f (enter c).1 ∧
    List.Forall₂ (Token.Image f) (enter c).2 (enter c).2 := by
  unfold enter
  split
  · exact ⟨.code, .nil⟩
  · rw [if_neg (by simp [other])]
    split
    · exact ⟨.quoted _ .nil, .nil⟩
    split
    · exact ⟨.dash, .nil⟩
    split
    · exact ⟨.slash, .nil⟩
    · exact ⟨.code, .cons (.symbol c) .nil⟩

theorem leave_image (other : isLetter c = false) (image : m.Image f n) :
    (leave m c).1.Image f (leave n c).1 ∧ List.Forall₂ (Token.Image f) (leave m c).2 (leave n c).2 :=
  ⟨(enter_image other).1, List.rel_append (finish_image image) (enter_image other).2⟩

theorem read_image (spells : f.Spells s p) (image : m.Image f n) :
    (m.read s).1.Image f (n.read p).1 ∧ List.Forall₂ (Token.Image f) (m.read s).2 (n.read p).2 := by
  have ended := finish_image image
  cases image with
  | word before => exact ⟨.word (before.append spells), .nil⟩
  | quoted q before => exact ⟨.quoted q (before.append spells), .nil⟩
  | line => exact ⟨.line, .nil⟩
  | block | star => exact ⟨.block, .nil⟩
  | _ => exact ⟨.word spells, ended⟩

theorem step_image (form : p ∈ f.forms c) (image : m.Image f n) :
    (step m c).1.Image f (feed n p).1 ∧ List.Forall₂ (Token.Image f) (step m c).2 (feed n p).2 := by
  cases letter : isLetter c with
  | true =>
    obtain ⟨nonempty, letters⟩ := f.letters c letter p form
    rw [step_letter letter, feed_letters nonempty letters]
    exact read_image (spells_form form) image
  | false =>
    obtain rfl := f.others c letter p form
    have left := leave_image letter image
    simp only [feed, List.append_nil]
    cases image with
    | code => exact left
    | word => simpa [step, letter] using left
    | dash =>
      simp only [step]
      split
      · exact ⟨.line, .nil⟩
      · exact left
    | slash =>
      simp only [step]
      split
      · exact ⟨.block, .nil⟩
      · exact left
    | quoted q before =>
      simp only [step]
      split
      · exact ⟨.closing q before, .nil⟩
      · exact ⟨.quoted q (before.append (spells_form form)), .nil⟩
    | closing q before =>
      simp only [step]
      split
      · exact ⟨.quoted q (before.append (spells_form form)), .nil⟩
      · exact left
    | line =>
      simp only [step]
      split
      · exact ⟨.code, .nil⟩
      · exact ⟨.line, .nil⟩
    | block =>
      simp only [step]
      split
      · exact ⟨.star, .nil⟩
      · exact ⟨.block, .nil⟩
    | star =>
      simp only [step]
      split
      · exact ⟨.code, .nil⟩
      split
      · exact ⟨.star, .nil⟩
      · exact ⟨.block, .nil⟩

theorem feed_image (spells : f.Spells s t) (image : m.Image f n) :
    (feed m s).1.Image f (feed n t).1 ∧ List.Forall₂ (Token.Image f) (feed m s).2 (feed n t).2 := by
  induction spells generalizing m n with
  | nil => exact ⟨image, .nil⟩
  | cons form _ ih =>
    obtain ⟨stepped, emitted⟩ := step_image form image
    obtain ⟨fed, later⟩ := ih stepped
    rw [feed_append]
    exact ⟨fed, List.rel_append emitted later⟩

theorem lexFrom_image (spells : f.Spells s t) (image : m.Image f n) :
    List.Forall₂ (Token.Image f) (lexFrom m s) (lexFrom n t) :=
  List.rel_append (feed_image spells image).2 (finish_image (feed_image spells image).1)

theorem gaps_image (image : m.Image f n) : gaps m = gaps n := by cases image <;> rfl

theorem gap_image (gap : m ∈ gaps n) : m.Image f m := by
  rcases mem_gaps gap with rfl | rfl | rfl
  · exact .code
  · exact .line
  · exact .block

theorem nil_image {xs ys : List Token} (image : List.Forall₂ (Token.Image f) xs ys) :
    xs = [] ↔ ys = [] := by
  cases image <;> simp

theorem quoted_image (image : m.Image f n) :
    (∀ q t, m ≠ .quoted q t) ↔ ∀ q t, n ≠ .quoted q t := by
  cases image <;> simp

theorem line_image (image : m.Image f n) : m = .line ↔ n = .line := by cases image <;> simp

theorem silent_image (spells : List.Forall₂ f.Spells ws us) (image : m.Image f n) :
    silent m ws = true ↔ silent n us = true := by
  induction spells generalizing m n with
  | nil => exact Iff.rfl
  | cons first _ ih =>
    obtain ⟨fed, emitted⟩ := feed_image first image
    rw [silent_cons, silent_cons, nil_image emitted, nil_image (finish_image fed), gaps_image fed]
    exact and_congr_right fun _ => and_congr_right fun _ => forall₂_congr fun k gap => ih (gap_image gap)

theorem spaced_image (spells : List.Forall₂ f.Spells ws us) (image : m.Image f n) :
    spaced m ws = true ↔ spaced n us = true := by
  induction spells generalizing m n with
  | nil => exact Iff.rfl
  | @cons w v ws us first rest ih =>
    obtain ⟨fed, -⟩ := feed_image first image
    rw [spaced_cons, spaced_cons, quoted_image fed, line_image fed, gaps_image fed, ne_eq, ne_eq,
      line_image fed]
    refine and_congr_right fun _ => and_congr ?_ ?_
    · exact imp_congr_right fun _ => forall₂_congr fun k gap => silent_image rest (gap_image gap)
    · exact imp_congr_right fun _ => forall₂_congr fun k gap => ih (gap_image gap)

theorem lexWords_image (spells : List.Forall₂ f.Spells ws us) (image : m.Image f n) :
    List.Forall₂ (Token.Image f) (lexWords m ws) (lexWords n us) := by
  induction spells generalizing m n with
  | nil => exact finish_image image
  | @cons w v ws us first rest ih =>
    obtain ⟨fed, emitted⟩ := feed_image first image
    rw [lexWords, lexWords, ← gaps_image fed]
    exact List.rel_append (List.rel_append emitted (finish_image fed)) (ih (gap_image (head_gaps _)))

theorem form_nonempty (form : p ∈ f.forms c) : p ≠ [] := by
  cases letter : isLetter c with
  | true => exact (f.letters c letter p form).1
  | false => simp [f.others c letter p form]

theorem form_word (form : p ∈ f.forms c) (solid : isSpace c = false) : IsWord p := by
  cases letter : isLetter c with
  | true =>
    obtain ⟨nonempty, letters⟩ := f.letters c letter p form
    refine ⟨nonempty, fun d member => ?_⟩
    cases blank : isSpace d
    · rfl
    · simpa [isLetter, blank] using letters d member
  | false =>
    obtain rfl := f.others c letter p form
    exact ⟨List.cons_ne_nil _ _, by simpa using solid⟩

theorem spells_solid (spells : f.Spells s t) (solid : ∀ c ∈ s, isSpace c = false) :
    ∀ c ∈ t, isSpace c = false := by
  induction spells with
  | nil => nofun
  | cons form _ ih =>
    obtain ⟨here, later⟩ := List.forall_mem_cons.mp solid
    exact List.forall_mem_append.mpr ⟨(form_word form here).solid, ih later⟩

theorem spells_length (spells : f.Spells s t) : s.length ≤ t.length := by
  induction spells with
  | nil => exact Nat.le_refl _
  | @cons c p s t form _ ih =>
    have nonempty := List.length_pos_iff.mpr (form_nonempty form)
    simp only [List.length_cons, List.length_append]
    omega

theorem word_spells (word : IsWord w) (spells : f.Spells w u) : IsWord u := by
  refine ⟨fun empty => word.nonempty ?_, spells_solid spells word.solid⟩
  have short := spells_length spells
  rw [empty] at short
  exact List.length_eq_zero_iff.mp (Nat.le_zero.mp short)

theorem spread_spells (spread : Spread ws s) (spells : f.Spells s t) :
    ∃ us, List.Forall₂ f.Spells ws us ∧ Spread us t := by
  have blank_form {c : Char} (blank : isSpace c = true) {p : List Char} (form : p ∈ f.forms c) : p = [c] :=
    f.others c (by simp [isLetter, blank]) p form
  induction spread generalizing t with
  | nil =>
    cases spells
    exact ⟨[], .nil, .nil⟩
  | space blank _ ih =>
    obtain ⟨p, tail, rfl, form, rest⟩ := spells_cons spells
    obtain rfl := blank_form blank form
    obtain ⟨us, words, spread⟩ := ih rest
    exact ⟨us, words, .space blank spread⟩
  | last word => exact ⟨[t], .cons spells .nil, .last (word_spells word spells)⟩
  | word word blank _ ih =>
    obtain ⟨u, v, rfl, first, after⟩ := spells_append spells
    obtain ⟨p, tail, rfl, form, rest⟩ := spells_cons after
    obtain rfl := blank_form blank form
    obtain ⟨us, words, spread⟩ := ih rest
    exact ⟨u :: us, .cons first words, .word (word_spells word first) blank spread⟩

/-- Folding the case of a text folds its words. -/
theorem split_spells (spells : f.Spells s t) : List.Forall₂ f.Spells (split s) (split t) := by
  obtain ⟨us, words, spread⟩ := spread_spells (spread_split s) spells
  rwa [spread.split]

/-- Texts whose words fold to the same have tokens that do, if one of them is spaced. -/
theorem lexFrom_common {a b : List Char} (plain : spaced .code (split a) = true)
    (first : List.Forall₂ f.Spells (split a) ws) (second : List.Forall₂ f.Spells (split b) ws) :
    ∃ tokens, List.Forall₂ (Token.Image f) (lexFrom .code a) tokens ∧
      List.Forall₂ (Token.Image f) (lexFrom .code b) tokens := by
  have plain' : spaced .code (split b) = true :=
    (spaced_image second .code).mpr ((spaced_image first .code).mp plain)
  rw [lexFrom_spaced (spread_split a) (.inl rfl) plain, lexFrom_spaced (spread_split b) (.inl rfl) plain']
  exact ⟨_, lexWords_image first .code, lexWords_image second .code⟩

/-- A text that the mapping leaves alone has one form. -/
theorem Fold.Kept.eq (kept : f.Kept t) (spells : f.Spells t u) : u = t := by
  induction spells with
  | nil => rfl
  | @cons c p s t form rest ih =>
    obtain ⟨own, later⟩ := List.forall_mem_cons.mp kept
    have only : p = [c] := by
      rw [f.settled c _ own c (List.mem_singleton_self c)] at form
      exact List.mem_singleton.mp form
    rw [ih later, only]
    rfl

/-- The mapping leaves its own results alone. -/
theorem kept_of_form (spells : f.Spells s t) : f.Kept t := by
  induction spells with
  | nil => nofun
  | cons form _ ih =>
    refine List.forall_mem_append.mpr ⟨fun d member => ?_, ih⟩
    rw [f.settled _ _ form d member]
    exact List.mem_singleton_self _

/-- A text that is its own form is left alone. -/
theorem kept_of_spells (spells : f.Spells t t) : f.Kept t := by
  induction t with
  | nil => nofun
  | cons c s ih =>
    obtain ⟨p, u, same, form, rest⟩ := spells_cons spells
    obtain ⟨d, tail, rfl⟩ := List.exists_cons_of_ne_nil (form_nonempty form)
    obtain ⟨rfl, tails⟩ : c = d ∧ s = tail ++ u := List.cons.inj same
    have short := spells_length rest
    obtain rfl : tail = [] := by
      apply List.length_eq_zero_iff.mp
      rw [tails, List.length_append] at short
      omega
    obtain rfl : s = u := tails
    exact List.forall_mem_cons.mpr ⟨form, ih rest⟩

/-- Where one mapping leaves a character behind that the other changes, a text that the other
leaves alone is a form of itself only. -/
theorem eq_of_spells (changes : ∀ c, ∀ p ∈ f.forms c, p ≠ [c] → ∃ d ∈ p, [d] ∉ g.forms d)
    (kept : g.Kept u) (spells : f.Spells t u) : t = u := by
  induction spells with
  | nil => rfl
  | @cons c p s t form rest ih =>
    have own : p = [c] := by
      by_contra other
      obtain ⟨d, member, changed⟩ := changes c p form other
      exact changed (kept d (List.mem_append_left _ member))
    rw [ih fun d member => kept d (List.mem_append_right _ member), own]
    rfl

end

end Lib.Sql

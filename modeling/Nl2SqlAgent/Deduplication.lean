import Nl2SqlAgent.Lib.SqlFolding
import Nl2SqlAgent.Checks
import Nl2SqlAgent.Generator

/-! Which texts the two `_normalize_sql` take for the same statement, and which of these have
the same tokens. -/
namespace Nl2SqlAgent

open Lib Lib.Sql

namespace Deduplication

/-- What is relied on of `str.upper` and `str.lower` outside of ASCII. Both map letters to
letters and leave other characters alone, both are idempotent, and what one of them changes a
character to has a character that the other changes. The forms of `lower` are those it has in
any context. -/
structure Letters (case : Py.Case) where
  upper : Fold
  lower : Fold
  upper_char : ∀ c, upper.forms c = [case.upperChar c]
  lower_text : ∀ s, lower.Spells s (case.lowerText s)
  upper_changes : ∀ c, ∀ p ∈ upper.forms c, p ≠ [c] → ∃ d ∈ p, [d] ∉ lower.forms d
  lower_changes : ∀ c, ∀ p ∈ lower.forms c, p ≠ [c] → ∃ d ∈ p, [d] ∉ upper.forms d

/-- One word up to case. -/
def SameWord {case : Py.Case} (letters : Letters case) (w v : List Char) : Prop :=
  (∃ t, letters.upper.Spells w t ∧ letters.upper.Spells v t) ∨
    ∃ t, letters.lower.Spells w t ∧ letters.lower.Spells v t

inductive SameToken {case : Py.Case} (letters : Letters case) : Token → Token → Prop where
  | word {w v} (same : SameWord letters w v) : SameToken letters (.word w) (.word v)
  | symbol (c : Char) : SameToken letters (.symbol c) (.symbol c)
  | quoted (q : Quote) (t : List Char) (closed : Bool) :
      SameToken letters (.quoted q t closed) (.quoted q t closed)

def SameTokens {case : Py.Case} (letters : Letters case) (a b : String) : Prop :=
  List.Forall₂ (SameToken letters) (lex a) (lex b)

/-- One of the two normalisers takes the texts for the same. -/
def Merged (env : Env) (a b : String) : Prop :=
  Generator.normalizeSql env a = Generator.normalizeSql env b ∨
    SemanticCheck.normalizeSql env a = SemanticCheck.normalizeSql env b

/-- What is quoted has no letter that changes with the case. -/
def Caseless {case : Py.Case} (letters : Letters case) : Token → Prop
  | .quoted _ t _ => letters.upper.Kept t ∧ letters.lower.Kept t
  | _ => True

/-- What is quoted has neither case nor white space, and behind white space in a line comment
nothing more can be read as a token. -/
structure Plain {case : Py.Case} (letters : Letters case) (a : String) : Prop where
  spaced : spaced .code (Py.split a.toList) = true
  caseless : ∀ token ∈ lex a, Caseless letters token

instance (f : Fold) (t : List Char) : Decidable (f.Kept t) := List.decidableBAll _ t

instance {case : Py.Case} (letters : Letters case) (token : Token) : Decidable (Caseless letters token) := by
  unfold Caseless
  split <;> infer_instance

instance {case : Py.Case} (letters : Letters case) (a : String) : Decidable (Plain letters a) :=
  decidable_of_iff (spaced .code (Py.split a.toList) = true ∧ ∀ token ∈ lex a, Caseless letters token)
    ⟨fun ⟨spaced, caseless⟩ => ⟨spaced, caseless⟩, fun plain => ⟨plain.spaced, plain.caseless⟩⟩

section

variable {env : Env} {a b : String} {s t u : List Char} {xs ys zs : List Token}

theorem upper_spells (letters : Letters env.case) (s : List Char) :
    letters.upper.Spells s (s.flatMap env.case.upperChar) := by
  induction s with
  | nil => exact .nil
  | cons c s ih =>
    have form : env.case.upperChar c ∈ letters.upper.forms c := by simp [letters.upper_char]
    exact .cons form ih

theorem eq_of_upper (letters : Letters env.case) (spells : letters.upper.Spells s t) :
    s.flatMap env.case.upperChar = t := by
  induction spells with
  | nil => rfl
  | cons form _ ih =>
    rw [letters.upper_char, List.mem_singleton] at form
    rw [List.flatMap_cons, form, ih]

theorem joined_upper (env : Env) (ws : List (List Char)) :
    (Py.joined ws).flatMap env.case.upperChar = Py.joined (ws.map (·.flatMap env.case.upperChar)) := by
  have space : env.case.upperChar ' ' = [' '] := env.case.upper_ascii ' ' (by decide)
  induction ws with
  | nil => rfl
  | cons w rest ih =>
    cases rest with
    | nil => rfl
    | cons v rest => simpa [Py.joined, space] using ih

theorem generator_toList (env : Env) (a : String) : (Generator.normalizeSql env a).toList =
    Py.joined ((Py.split a.toList).map (·.flatMap env.case.upperChar)) := by
  rw [Generator.normalizeSql, Py.strip_join_words, Py.Case.upper, String.toList_ofList, Py.join_words,
    joined_upper]

theorem check_toList (env : Env) (a : String) : (SemanticCheck.normalizeSql env a).toList =
    Py.joined (Py.split (env.case.lowerText a.toList)) := by
  rw [SemanticCheck.normalizeSql, Py.join_words, Py.Case.lower, String.toList_ofList]

theorem upper_words (letters : Letters env.case) (s : List Char) :
    List.Forall₂ letters.upper.Spells (Py.split s) ((Py.split s).map (·.flatMap env.case.upperChar)) :=
  List.forall₂_map_right_iff.mpr (List.forall₂_same.mpr fun w _ => upper_spells letters w)

/-- Merged texts have words of a common form. -/
theorem merged_words (letters : Letters env.case) (merged : Merged env a b) :
    ∃ f, (f = letters.upper ∨ f = letters.lower) ∧ ∃ ws,
      List.Forall₂ f.Spells (Py.split a.toList) ws ∧ List.Forall₂ f.Spells (Py.split b.toList) ws := by
  rcases merged with same | same
  · have words (x : String) : ∀ w ∈ (Py.split x.toList).map (·.flatMap env.case.upperChar), Py.IsWord w := by
      intro w member
      obtain ⟨v, inside, rfl⟩ := List.mem_map.mp member
      exact word_spells (Py.split_words _ v inside) (upper_spells letters v)
    have joined := congrArg String.toList same
    rw [generator_toList, generator_toList] at joined
    refine ⟨_, .inl rfl, _, upper_words letters a.toList, ?_⟩
    rw [Py.joined_inj (words a) (words b) joined]
    exact upper_words letters b.toList
  · have joined := congrArg String.toList same
    rw [check_toList, check_toList] at joined
    refine ⟨_, .inr rfl, _, split_spells (letters.lower_text _), ?_⟩
    rw [Py.joined_inj (Py.split_words _) (Py.split_words _) joined]
    exact split_spells (letters.lower_text _)

/-- A text without case is the only one that has one of its forms. -/
theorem eq_of_forms (letters : Letters env.case) {f : Fold} (fold : f = letters.upper ∨ f = letters.lower)
    (kept : letters.upper.Kept t ∧ letters.lower.Kept t) (first : f.Spells t u) (second : f.Spells s u) :
    s = t := by
  rcases fold with rfl | rfl
  · rw [kept.1.eq first] at second
    exact eq_of_spells letters.upper_changes kept.2 second
  · rw [kept.2.eq first] at second
    exact eq_of_spells letters.lower_changes kept.1 second

theorem common {R : Token → Token → Prop} (first : List.Forall₂ R xs ys) (second : List.Forall₂ R xs zs) :
    List.Forall₂ (fun y z => ∃ x, R x y ∧ R x z) ys zs := by
  induction first generalizing zs with
  | nil =>
    cases second
    exact .nil
  | cons here _ ih =>
    obtain _ | ⟨here', later'⟩ := second
    exact .cons ⟨_, here, here'⟩ (ih later')

theorem same_of_images (letters : Letters env.case) {f : Fold} (fold : f = letters.upper ∨ f = letters.lower)
    (caseless : ∀ token ∈ xs, Caseless letters token)
    (first : List.Forall₂ (Token.Image f) xs zs) (second : List.Forall₂ (Token.Image f) ys zs) :
    List.Forall₂ (SameToken letters) xs ys := by
  induction first generalizing ys with
  | nil =>
    cases second
    exact .nil
  | @cons x z xs zs image _ ih =>
    obtain _ | ⟨image', rest'⟩ := second
    obtain ⟨here, later⟩ := List.forall_mem_cons.mp caseless
    refine .cons ?_ (ih later rest')
    cases image with
    | word spells =>
      cases image' with
      | word spells' =>
        rcases fold with rfl | rfl
        · exact .word (.inl ⟨_, spells, spells'⟩)
        · exact .word (.inr ⟨_, spells, spells'⟩)
    | symbol c =>
      cases image'
      exact .symbol c
    | @quoted q closed t u spells =>
      cases image' with
      | @quoted _ _ s _ spells' =>
        obtain rfl := eq_of_forms letters fold here spells spells'
        exact .quoted q _ closed

/-- What a plain text is merged with has its tokens. -/
theorem same_of_merged (letters : Letters env.case) (plain : Plain letters a) (merged : Merged env a b) :
    SameTokens letters a b := by
  obtain ⟨f, fold, ws, first, second⟩ := merged_words letters merged
  obtain ⟨tokens, images, images'⟩ := lexFrom_common plain.spaced first second
  exact same_of_images letters fold plain.caseless images images'

/-- Texts with the same words are merged. -/
theorem merged_of_split (env : Env) (same : Py.split a.toList = Py.split b.toList) : Merged env a b :=
  .inl (by rw [Generator.normalizeSql, Generator.normalizeSql, Py.words_eq, Py.words_eq, same])

/-- A text is merged with itself in capitals. -/
theorem merged_upper (letters : Letters env.case) (a : String) : Merged env a (env.case.upper a) := by
  have twice (s : List Char) : (s.flatMap env.case.upperChar).flatMap env.case.upperChar =
      s.flatMap env.case.upperChar :=
    (kept_of_form (upper_spells letters s)).eq (upper_spells letters _)
  have words : Py.split (a.toList.flatMap env.case.upperChar) =
      (Py.split a.toList).map (·.flatMap env.case.upperChar) := by
    have spells := (split_spells (upper_spells letters a.toList)).imp fun w v each =>
      eq_of_upper letters each
    rw [← List.forall₂_map_left_iff, List.forall₂_eq_eq_eq] at spells
    exact spells.symm
  refine .inl (String.toList_inj.mp ?_)
  rw [generator_toList, generator_toList, Py.Case.upper, String.toList_ofList, words, List.map_map]
  simp only [Function.comp_def, twice]

theorem merged_lower (letters : Letters env.case) (a : String) : Merged env a (env.case.lower a) := by
  have twice : env.case.lowerText (env.case.lowerText a.toList) = env.case.lowerText a.toList :=
    (kept_of_form (letters.lower_text a.toList)).eq (letters.lower_text _)
  refine .inr (String.toList_inj.mp ?_)
  rw [check_toList, check_toList, Py.Case.lower, String.toList_ofList, twice]

/-- A text that is merged with a fold of its case has quoted texts that the fold leaves alone. -/
theorem kept_of_same (letters : Letters env.case) {f : Fold} (images : List.Forall₂ (Token.Image f) xs ys)
    (same : List.Forall₂ (SameToken letters) xs ys) {q : Quote} {closed : Bool}
    (member : .quoted q t closed ∈ xs) : f.Kept t := by
  induction images with
  | nil => cases member
  | cons image _ ih =>
    obtain ⟨here, later⟩ := List.forall₂_cons.mp same
    rcases List.mem_cons.mp member with rfl | member
    · cases here
      cases image with
      | quoted _ _ spells => exact kept_of_spells spells
    · exact ih later member

theorem plain_of_same (letters : Letters env.case) (sound : ∀ b, Merged env a b → SameTokens letters a b) :
    Plain letters a where
  spaced := by
    refine spaced_of_stable (R := fun x y => ∃ z, SameToken letters z x ∧ SameToken letters z y) ?_
      (Py.split_words a.toList) fun s s' spread spread' => ?_
    · rintro q t k q' t' k' ⟨z, first, second⟩
      cases first
      cases second
      rfl
    · have each (s : List Char) (spread : Py.Spread (Py.split a.toList) s) :
          List.Forall₂ (SameToken letters) (lex a) (lexFrom .code s) := by
        have same := sound (.ofList s) (merged_of_split env (by rw [String.toList_ofList, spread.split]))
        rwa [SameTokens, lex, lex, String.toList_ofList] at same
      exact common (each s spread) (each s' spread')
  caseless token member := by
    obtain _ | _ | ⟨q, t, closed⟩ := token
    · trivial
    · trivial
    constructor
    · have images := lexFrom_image (upper_spells letters a.toList) (.code : Mode.Image _ .code .code)
      have same := sound _ (merged_upper letters a)
      rw [SameTokens, lex, lex, Py.Case.upper, String.toList_ofList] at same
      exact kept_of_same letters images same member
    · have images := lexFrom_image (letters.lower_text a.toList) (.code : Mode.Image _ .code .code)
      have same := sound _ (merged_lower letters a)
      rw [SameTokens, lex, lex, Py.Case.lower, String.toList_ofList] at same
      exact kept_of_same letters images same member

/-- Whatever either normaliser takes for the same as a text has its tokens, if and only if the
text is plain. -/
theorem dedup_sound_iff (env : Env) (letters : Letters env.case) (a : String) :
    (∀ b, Merged env a b → SameTokens letters a b) ↔ Plain letters a :=
  ⟨plain_of_same letters, fun plain _ => same_of_merged letters plain⟩

end

/-- What is asked of a mapping of characters at one of them, beside the mapping the other way. -/
def Mapped (g h : Char → Char) (c : Char) : Prop :=
  (isLetter c = true → isLetter (g c) = true) ∧ (isLetter c = false → g c = c) ∧ g (g c) = g c ∧
    (g c ≠ c → h (g c) ≠ g c)

instance (g h : Char → Char) (c : Char) : Decidable (Mapped g h c) := by
  unfold Mapped
  infer_instance

theorem mapped_of_ascii {g h : Char → Char} (table : ∀ n < 128, Mapped g h (Char.ofNat n))
    (others : ∀ c : Char, ¬ c.val < 128 → g c = c) (c : Char) : Mapped g h c := by
  by_cases ascii : c.val < 128
  · exact Py.ascii_table table ascii
  · simp [Mapped, others c ascii]

theorem upper_mapped : ∀ c, Mapped Char.toUpper Char.toLower c :=
  mapped_of_ascii (by decide) fun _ other =>
    dif_neg fun range => other (UInt32.lt_of_le_of_lt range.2 (by decide))

theorem lower_mapped : ∀ c, Mapped Char.toLower Char.toUpper c :=
  mapped_of_ascii (by decide) fun _ other =>
    dif_neg fun range => other (UInt32.lt_of_le_of_lt range.2 (by decide))

theorem changes_of_mapped {g h : Char → Char} (mapped : ∀ c, Mapped g h c) (c : Char) :
    ∀ p ∈ [[g c]], p ≠ [c] → ∃ d ∈ p, [d] ∉ [[h d]] := by
  intro p form other
  obtain rfl := List.mem_singleton.mp form
  have changed := (mapped c).2.2.2 (by simpa using other)
  exact ⟨_, List.mem_singleton_self _, by simpa using Ne.symm changed⟩

/-- The mapping that leaves other characters than ASCII alone. -/
def Letters.ascii : Letters .ascii where
  upper := .ofMap Char.toUpper (fun c => (upper_mapped c).1) (fun c => (upper_mapped c).2.1)
    fun c => (upper_mapped c).2.2.1
  lower := .ofMap Char.toLower (fun c => (lower_mapped c).1) (fun c => (lower_mapped c).2.1)
    fun c => (lower_mapped c).2.2.1
  upper_char _ := rfl
  lower_text := ofMap_spells
  upper_changes := changes_of_mapped upper_mapped
  lower_changes := changes_of_mapped lower_mapped

theorem dedup_sound_orders :
    let a := "SELECT id FROM orders WHERE day > '2024' --all"
    let b := "select  id FROM Orders\nWHERE day > '2024' --ALL"
    Plain Letters.ascii a ∧ SameTokens Letters.ascii a b := by
  intro a b
  have plain : Plain Letters.ascii a := by decide +kernel
  exact ⟨plain, (dedup_sound_iff .plain Letters.ascii a).mpr plain b (.inl (by decide +kernel))⟩

/-- The text of a literal or quoted identifier. -/
def quotedText : Token → Option (List Char)
  | .quoted _ t _ => some t
  | _ => none

theorem quoted_of_same {case : Py.Case} {letters : Letters case} {xs ys : List Token}
    (same : List.Forall₂ (SameToken letters) xs ys) :
    xs.filterMap quotedText = ys.filterMap quotedText := by
  induction same with
  | nil => rfl
  | cons here _ ih =>
    rw [List.filterMap_cons, List.filterMap_cons, ih]
    cases here <;> rfl

/-- Literals that differ in case or white space are merged, and a comment swallows what stands
behind its line. -/
theorem literals_merged :
    (let a := "SELECT 'A'"
     let b := "SELECT 'a'"
     Generator.normalizeSql .plain a = Generator.normalizeSql .plain b ∧
       SemanticCheck.normalizeSql .plain a = SemanticCheck.normalizeSql .plain b ∧
       ¬ SameTokens Letters.ascii a b) ∧
    (let a := "SELECT 'a  b'"
     let b := "SELECT 'a b'"
     Generator.normalizeSql .plain a = Generator.normalizeSql .plain b ∧
       SemanticCheck.normalizeSql .plain a = SemanticCheck.normalizeSql .plain b ∧
       ¬ SameTokens Letters.ascii a b) ∧
    (let a := "SELECT 1 -- one\n+ 1"
     let b := "SELECT 1 -- one + 1"
     Generator.normalizeSql .plain a = Generator.normalizeSql .plain b ∧
       SemanticCheck.normalizeSql .plain a = SemanticCheck.normalizeSql .plain b ∧
       ¬ SameTokens Letters.ascii a b) := by
  refine ⟨⟨by decide +kernel, by decide +kernel, fun same => ?_⟩,
    ⟨by decide +kernel, by decide +kernel, fun same => ?_⟩, by decide +kernel, by decide +kernel,
      fun same => ?_⟩
  · exact absurd (quoted_of_same same) (by decide +kernel)
  · exact absurd (quoted_of_same same) (by decide +kernel)
  · exact absurd same.length_eq (by decide +kernel)

end Deduplication
end Nl2SqlAgent

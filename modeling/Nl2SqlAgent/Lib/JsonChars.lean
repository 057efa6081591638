import Nl2SqlAgent.Lib.JsonText
import Nl2SqlAgent.Lib.PyLines

/-! Which characters come out of JSON texts: those that no string of the value has are not in
its text, and what a part of a text is read as has none that the part has not. -/
namespace Lib.JsonText

section Characters

mutual

/-- Every string and every key of the value. -/
def Strings (good : String → Prop) : Json → Prop
  | .str s => good s
  | .arr items => ItemStrings good items
  | .obj fields => FieldStrings good fields
  | _ => True

def ItemStrings (good : String → Prop) : List Json → Prop
  | [] => True
  | item :: rest => Strings good item ∧ ItemStrings good rest

def FieldStrings (good : String → Prop) : List (String × Json) → Prop
  | [] => True
  | field :: rest => (good field.1 ∧ Strings good field.2) ∧ FieldStrings good rest

end

/-- No string and no key has one of the characters. -/
abbrev Free (bad : Char → Bool) : Json → Prop := Strings fun s => ∀ c ∈ s.toList, bad c = false

/-- Read character by character, escapes as a whole, no character of the text is one of these. -/
inductive Clean (bad : Char → Bool) : List Char → Prop where
  | nil : Clean bad []
  | char {c : Char} {s : List Char} (plain : c ≠ '\\') (good : bad c = false) (clean : Clean bad s) :
      Clean bad (c :: s)
  | escape {c : Char} {s : List Char} (good : bad c = false) (clean : Clean bad s) :
      Clean bad (escape c ++ s)

variable {num : Numerals} {bad : Char → Bool} {item : List Char → Option (α × List Char)} {close : Char}
  {good : α → Prop} {xs : List α} {n : Nat} {rest s t w : List Char} {j : Json}

theorem itemStrings_iff {good : String → Prop} (items : List Json) :
    ItemStrings good items ↔ ∀ item ∈ items, Strings good item := by
  induction items with
  | nil => exact iff_of_true trivial (fun _ member => nomatch member)
  | cons item rest ih => exact (and_congr_right fun _ => ih).trans List.forall_mem_cons.symm

theorem fieldStrings_iff {good : String → Prop} (fields : List (String × Json)) :
    FieldStrings good fields ↔ ∀ field ∈ fields, good field.1 ∧ Strings good field.2 := by
  induction fields with
  | nil => exact iff_of_true trivial (fun _ member => nomatch member)
  | cons field rest ih =>
    rw [List.forall_mem_cons]
    exact and_congr_right fun _ => ih

theorem Clean.append (first : Clean bad s) (last : Clean bad t) : Clean bad (s ++ t) := by
  induction first with
  | nil => exact last
  | char plain good _ ih => exact .char plain good ih
  | escape good _ ih =>
    rw [List.append_assoc]
    exact .escape good ih

theorem clean_plain (plain : ∀ c ∈ s, c ≠ '\\' ∧ bad c = false) : Clean bad s := by
  induction s with
  | nil => exact .nil
  | cons c s ih =>
    obtain ⟨own, others⟩ := List.forall_mem_cons.mp plain
    exact .char own.1 own.2 (ih others)

/-- The first character is plain, or the text begins with an escape. -/
theorem clean_cons {c : Char} (clean : Clean bad (c :: s)) :
    (c ≠ '\\' ∧ bad c = false ∧ Clean bad s) ∨
      ∃ d t, c = '\\' ∧ bad d = false ∧ c :: s = escape d ++ t ∧ Clean bad t := by
  generalize whole : c :: s = text at clean
  cases clean with
  | nil => contradiction
  | char plain good clean =>
    obtain ⟨rfl, rfl⟩ := List.cons.inj whole
    exact .inl ⟨plain, good, clean⟩
  | @escape d t good clean =>
    rcases escape_cases d with special | ⟨-, text⟩ | ⟨-, -, plain, text⟩
    · have first : c = '\\' := by
        simp only [lettered, List.mem_cons, List.not_mem_nil, or_false] at special
        rcases special with rfl | rfl | rfl | rfl | rfl | rfl | rfl <;> exact (List.cons.inj whole).1
      exact .inr ⟨d, t, first, good, rfl, clean⟩
    · have first : c = '\\' := by
        rw [text] at whole
        exact (List.cons.inj whole).1
      exact .inr ⟨d, t, first, good, rfl, clean⟩
    · rw [text] at whole
      obtain ⟨rfl, rfl⟩ := List.cons.inj whole
      exact .inl ⟨plain, good, clean⟩

theorem Clean.tail {c : Char} (clean : Clean bad (c :: s)) (plain : c ≠ '\\') : Clean bad s := by
  rcases clean_cons clean with ⟨-, -, clean⟩ | ⟨d, t, backslash, -⟩
  · exact clean
  · exact absurd backslash plain

theorem Clean.behind (clean : Clean bad (w ++ s)) (plain : ∀ c ∈ w, c ≠ '\\') : Clean bad s := by
  induction w with
  | nil => exact clean
  | cons c w ih =>
    obtain ⟨own, others⟩ := List.forall_mem_cons.mp plain
    exact ih (Clean.tail clean own) others

theorem Clean.skip (clean : Clean bad s) : Clean bad (skip s) := by
  have parts : s.takeWhile isBlank ++ JsonText.skip s = s := List.takeWhile_append_dropWhile
  rw [← parts] at clean
  refine clean.behind fun c member => ?_
  rintro rfl
  exact absurd (List.mem_takeWhile_imp member) (by decide)

theorem after_eq (found : after w s = some rest) : s = w ++ rest := by
  induction w generalizing s with
  | nil => exact Option.some.inj found
  | cons c w ih =>
    cases s with
    | nil => contradiction
    | cons d s =>
      obtain ⟨same, later⟩ := Option.ite_none_right_eq_some.mp found
      rw [same, ih later, List.cons_append]

theorem word_clean {c : Char} (found : word c s = some (j, rest)) (clean : Clean bad (c :: s)) :
    Clean bad rest ∧ Free bad j := by
  obtain ⟨entry, known, read⟩ := Option.bind_eq_some_iff.mp found
  obtain ⟨left, follows, same⟩ := Option.map_eq_some_iff.mp read
  obtain ⟨rfl, rfl⟩ := Prod.mk.inj same
  have member := mem_of_lookup known
  rw [after_eq follows] at clean
  simp only [words, List.mem_cons, List.not_mem_nil, or_false, Prod.mk.injEq] at member
  rcases member with ⟨rfl, rfl⟩ | ⟨rfl, rfl⟩ | ⟨rfl, rfl⟩ | ⟨rfl, rfl⟩ | ⟨rfl, rfl⟩ | ⟨rfl, rfl⟩ <;>
    exact ⟨(clean.tail (by decide)).behind (Py.all_of (by decide)), trivial⟩

/-- What is read in a string is a character that the text was written with. -/
theorem unit_clean {c : Char} {u : Nat} (found : unit (c :: s) = some (u, rest))
    (clean : Clean bad (c :: s)) : Clean bad rest ∧ ∃ d, bad d = false ∧ u = d.toNat := by
  rcases clean_cons clean with ⟨plain, good, clean⟩ | ⟨d, t, -, good, text, clean⟩
  · rw [unit_cons, if_neg plain] at found
    obtain ⟨-, same⟩ := Option.ite_none_left_eq_some.mp found
    obtain ⟨rfl, rfl⟩ := Prod.mk.inj (Option.some.inj same)
    exact ⟨clean, c, good, rfl⟩
  · rw [text, unit_escape] at found
    obtain ⟨rfl, rfl⟩ := Prod.mk.inj (Option.some.inj found)
    exact ⟨clean, d, good, rfl⟩

theorem units_clean {us : List Nat} (found : units n s = some (us, rest)) (clean : Clean bad s) :
    Clean bad rest ∧ ∃ cs : List Char, (∀ c ∈ cs, bad c = false) ∧ us = cs.map Char.toNat := by
  induction n generalizing s us with
  | zero => contradiction
  | succ n ih =>
    cases s with
    | nil => contradiction
    | cons c s =>
      rw [units_cons] at found
      by_cases quote : c = '"'
      · rw [if_pos quote] at found
        obtain ⟨rfl, rfl⟩ := Prod.mk.inj (Option.some.inj found)
        exact ⟨clean.tail (quote ▸ by decide), [], by simp, rfl⟩
      · rw [if_neg quote] at found
        obtain ⟨⟨u, left⟩, first, read⟩ := Option.bind_eq_some_iff.mp found
        obtain ⟨⟨vs, left'⟩, later, same⟩ := Option.map_eq_some_iff.mp read
        obtain ⟨rfl, rfl⟩ := Prod.mk.inj same
        obtain ⟨clean, d, good, rfl⟩ := unit_clean first clean
        obtain ⟨clean, cs, goods, rfl⟩ := ih later clean
        exact ⟨clean, d :: cs, List.forall_mem_cons.mpr ⟨good, goods⟩, rfl⟩

theorem string_clean {key : String} (found : string n s = some (key, rest)) (clean : Clean bad s) :
    Clean bad rest ∧ ∀ c ∈ key.toList, bad c = false := by
  obtain ⟨⟨us, left⟩, units, read⟩ := Option.bind_eq_some_iff.mp found
  obtain ⟨cs, all, same⟩ := Option.map_eq_some_iff.mp read
  obtain ⟨rfl, rfl⟩ := Prod.mk.inj same
  obtain ⟨clean, ds, goods, rfl⟩ := units_clean units clean
  rw [characters_toNat] at all
  obtain rfl := Option.some.inj all
  exact ⟨clean, by simpa using goods⟩

/-- The characters of a number. -/
theorem numberText_chars {P : Char → Prop} (digit : ∀ c : Char, c.isDigit = true → P c)
    (marks : ∀ c ∈ ['-', '+', '.', 'e', 'E'], P c) (text : NumberText num w j) : ∀ c ∈ w, P c := by
  obtain ⟨signs, isWhole, isFraction, isExponent⟩ := text
  have digits {ds : List Char} (digits : Digits ds) : ∀ c ∈ ds, P c := fun c member =>
    digit c (digits c member)
  simp only [List.forall_mem_append]
  refine ⟨⟨⟨?_, ?_⟩, ?_⟩, ?_⟩
  · rcases signs with rfl | rfl
    · simp
    · exact List.forall_mem_singleton.mpr (marks _ (by decide))
  · rcases isWhole with rfl | ⟨c, ds, rfl, -, all⟩
    · exact List.forall_mem_singleton.mpr (digit _ rfl)
    · exact digits all
  · rcases isFraction with rfl | ⟨ds, rfl, -, all⟩
    · simp
    · exact List.forall_mem_cons.mpr ⟨marks _ (by decide), digits all⟩
  · rcases isExponent with rfl | ⟨c, mark, ds, rfl, letter, signs, -, all⟩
    · simp
    · refine List.forall_mem_cons.mpr ⟨?_, List.forall_mem_append.mpr ⟨?_, digits all⟩⟩
      · rcases letter with rfl | rfl <;> exact marks _ (by decide)
      · rcases signs with rfl | rfl | rfl
        · simp
        · exact List.forall_mem_singleton.mpr (marks _ (by decide))
        · exact List.forall_mem_singleton.mpr (marks _ (by decide))

theorem numberText_plain (text : NumberText num w j) : ∀ c ∈ w, c ≠ '\\' := by
  refine numberText_chars (fun c digit => ?_) (Py.all_of (by decide)) text
  rintro rfl
  exact absurd digit (by decide)

theorem number_clean (found : number num s = some (j, rest)) (clean : Clean bad s) :
    Clean bad rest ∧ Free bad j := by
  obtain ⟨w, text, rfl⟩ := number_sound found
  refine ⟨clean.behind (numberText_plain text), ?_⟩
  obtain ⟨-, -, -, -⟩ := text
  unfold numberValue
  split <;> trivial

/-- What a reader gives out of a clean text is good, and it leaves a clean text. -/
def Reads (bad : Char → Bool) (item : List Char → Option (α × List Char)) (good : α → Prop) : Prop :=
  ∀ s x rest, item s = some (x, rest) → Clean bad s → Clean bad rest ∧ good x

theorem elements_clean (reads : Reads bad item good) (plain : close ≠ '\\')
    (found : elements item close n s = some (xs, rest)) (clean : Clean bad s) :
    Clean bad rest ∧ ∀ x ∈ xs, good x := by
  induction n generalizing s xs with
  | zero => contradiction
  | succ n ih =>
    rw [elements_succ] at found
    obtain ⟨⟨x, left⟩, first, read⟩ := Option.bind_eq_some_iff.mp found
    obtain ⟨clean, own⟩ := reads s x left first clean
    have behind := clean.skip
    cases next : skip left with
    | nil =>
      simp only [next] at read
      contradiction
    | cons c left' =>
      simp only [next] at read
      rw [next] at behind
      by_cases comma : c = ','
      · rw [if_pos comma] at read
        obtain ⟨⟨ys, left''⟩, later, same⟩ := Option.map_eq_some_iff.mp read
        obtain ⟨rfl, rfl⟩ := Prod.mk.inj same
        obtain ⟨clean, others⟩ := ih later (behind.tail (comma ▸ by decide)).skip
        exact ⟨clean, List.forall_mem_cons.mpr ⟨own, others⟩⟩
      · rw [if_neg comma] at read
        obtain ⟨closing, same⟩ := Option.ite_none_right_eq_some.mp read
        obtain ⟨rfl, rfl⟩ := Prod.mk.inj (Option.some.inj same)
        exact ⟨behind.tail (closing ▸ plain), List.forall_mem_singleton.mpr own⟩

theorem group_clean (reads : Reads bad item good) (plain : close ≠ '\\')
    (found : group item close n s = some (xs, rest)) (clean : Clean bad s) :
    Clean bad rest ∧ ∀ x ∈ xs, good x := by
  unfold group at found
  have behind := clean.skip
  cases next : skip s with
  | nil =>
    simp only [next] at found
    contradiction
  | cons c left =>
    simp only [next] at found
    rw [next] at behind
    by_cases closing : c = close
    · rw [if_pos closing] at found
      obtain ⟨rfl, rfl⟩ := Prod.mk.inj (Option.some.inj found)
      exact ⟨behind.tail (closing ▸ plain), fun _ member => nomatch member⟩
    · rw [if_neg closing] at found
      exact elements_clean reads plain found behind

theorem field_clean {item : List Char → Option (Json × List Char)} (reads : Reads bad item (Free bad))
    (n : Nat) : Reads bad (field item n) fun field =>
      (∀ c ∈ field.1.toList, bad c = false) ∧ Free bad field.2 := by
  rintro (_ | ⟨c, s⟩) x rest found clean
  · contradiction
  · rw [field_cons] at found
    obtain ⟨quote, read⟩ := Option.ite_none_right_eq_some.mp found
    obtain ⟨⟨key, left⟩, name, read⟩ := Option.bind_eq_some_iff.mp read
    obtain ⟨clean, own⟩ := string_clean name (clean.tail (quote ▸ by decide))
    have behind := clean.skip
    cases next : skip left with
    | nil =>
      simp only [next] at read
      contradiction
    | cons d left' =>
      simp only [next] at read
      rw [next] at behind
      obtain ⟨colon, read⟩ := Option.ite_none_right_eq_some.mp read
      obtain ⟨⟨v, left''⟩, value, same⟩ := Option.map_eq_some_iff.mp read
      obtain ⟨rfl, rfl⟩ := Prod.mk.inj same
      obtain ⟨clean, free⟩ := reads _ _ _ value (behind.tail (colon ▸ by decide)).skip
      exact ⟨clean, own, free⟩

/-- **What a clean text is read as has none of the characters.** -/
theorem value_clean (num : Numerals) (n : Nat) : Reads bad (value num n) (Free bad) := by
  induction n with
  | zero => exact fun _ _ _ found => nomatch found
  | succ n ih =>
    rintro (_ | ⟨c, s⟩) j rest found clean
    · contradiction
    rw [value_cons] at found
    by_cases quote : c = '"'
    · rw [if_pos quote] at found
      obtain ⟨⟨key, left⟩, read, same⟩ := Option.map_eq_some_iff.mp found
      obtain ⟨rfl, rfl⟩ := Prod.mk.inj same
      exact string_clean read (clean.tail (quote ▸ by decide))
    rw [if_neg quote] at found
    by_cases brace : c = '\x7b'
    · rw [if_pos brace] at found
      obtain ⟨⟨fields, left⟩, read, same⟩ := Option.map_eq_some_iff.mp found
      obtain ⟨rfl, rfl⟩ := Prod.mk.inj same
      obtain ⟨clean, free⟩ := group_clean (field_clean ih n) (by decide) read
        (clean.tail (brace ▸ by decide))
      refine ⟨clean, (fieldStrings_iff _).mpr fun field member => ?_⟩
      rcases PyDict.mem_update member with new | old
      · exact free field new
      · contradiction
    rw [if_neg brace] at found
    by_cases bracket : c = '['
    · rw [if_pos bracket] at found
      obtain ⟨⟨items, left⟩, read, same⟩ := Option.map_eq_some_iff.mp found
      obtain ⟨rfl, rfl⟩ := Prod.mk.inj same
      obtain ⟨clean, free⟩ := group_clean ih (by decide) read (clean.tail (bracket ▸ by decide))
      exact ⟨clean, (itemStrings_iff _).mpr free⟩
    rw [if_neg bracket] at found
    rcases Option.or_eq_some_iff.mp found with known | ⟨-, digits⟩
    · exact word_clean known clean
    · exact number_clean digits clean

theorem read_clean (found : JsonText.read num s = some j) (clean : Clean bad s) : Free bad j := by
  obtain ⟨⟨k, rest⟩, value, done⟩ := Option.bind_eq_some_iff.mp found
  obtain ⟨-, same⟩ := Option.ite_none_right_eq_some.mp done
  exact Option.some.inj same ▸ (value_clean num _ _ _ _ value clean.skip).2

theorem escape_ascii {c d : Char} (member : d ∈ escape c) :
    d = c ∧ 0x80 ≤ c.toNat ∨ 0x20 ≤ d.toNat ∧ d.toNat < 0x80 := by
  have digits : ∀ n < 0x20, ((Py.hexDigits 4 n).all fun d =>
      decide (0x20 ≤ d.toNat ∧ d.toNat < 0x80)) = true := by decide
  rcases escape_cases c with special | ⟨small, text⟩ | ⟨visible, -, -, text⟩
  · simp only [lettered, List.mem_cons, List.not_mem_nil, or_false] at special
    rcases special with rfl | rfl | rfl | rfl | rfl | rfl | rfl <;>
      · rcases List.mem_pair.mp member with rfl | rfl <;> exact .inr (by decide)
  · rw [text] at member
    rcases List.mem_cons.mp member with rfl | later
    · exact .inr (by decide)
    · rcases List.mem_cons.mp later with rfl | digit
      · exact .inr (by decide)
      · exact .inr (Py.all_of (digits _ small) d digit)
  · rw [text] at member
    obtain rfl := List.mem_singleton.mp member
    by_cases far : 0x80 ≤ d.toNat
    · exact .inl ⟨rfl, far⟩
    · exact .inr ⟨visible, not_le.mp far⟩

theorem escape_far {c : Char} (far : 0x80 ≤ c.toNat) : escape c = [c] := by
  rcases escape_cases c with special | ⟨small, -⟩ | ⟨-, -, -, text⟩
  · simp only [lettered, List.mem_cons, List.not_mem_nil, or_false] at special
    rcases special with rfl | rfl | rfl | rfl | rfl | rfl | rfl <;> exact absurd far (by decide)
  · exact absurd (far.trans_lt small) (by decide)
  · exact text

variable {P : Char → Prop}

theorem joined_all (comma : P ',') (blank : P ' ') (texts : List (List Char)) :
    (∀ c ∈ joined texts, P c) ↔ ∀ w ∈ texts, ∀ c ∈ w, P c := by
  induction texts with
  | nil => simp [joined]
  | cons a texts ih =>
    cases texts with
    | nil => simp [joined_singleton]
    | cons b texts =>
      rw [joined_cons_cons, List.forall_mem_append, List.forall_mem_cons, List.forall_mem_cons, ih,
        List.forall_mem_cons (a := a)]
      exact and_congr_right fun _ => ⟨fun all => all.2.2, fun all => ⟨comma, blank, all⟩⟩

theorem quoted_all (ascii : ∀ c : Char, 0x20 ≤ c.toNat → c.toNat < 0x80 → P c) (s : String) :
    (∀ c ∈ quoted s, P c) ↔ ∀ c ∈ s.toList, 0x80 ≤ c.toNat → P c := by
  have quote : P '"' := ascii _ (by decide) (by decide)
  constructor
  · intro all c member far
    refine all c (List.mem_cons_of_mem _ (List.mem_append_left _ (List.mem_flatMap.mpr ⟨c, member, ?_⟩)))
    rw [escape_far far]
    exact List.mem_singleton_self c
  · intro all c member
    rcases List.mem_cons.mp member with rfl | later
    · exact quote
    · rcases List.mem_append.mp later with inside | closing
      · obtain ⟨d, from_, escaped⟩ := List.mem_flatMap.mp inside
        rcases escape_ascii escaped with ⟨rfl, far⟩ | ⟨visible, near⟩
        · exact all _ from_ far
        · exact ascii c visible near
      · exact List.mem_singleton.mp closing ▸ quote

theorem plain_all (ascii : ∀ c : Char, 0x20 ≤ c.toNat → c.toNat < 0x80 → P c)
    (plain : w.all (fun c => 0x20 ≤ c.toNat && c.toNat < 0x80) = true) : ∀ c ∈ w, P c := by
  intro c member
  have visible := List.all_eq_true.mp plain c member
  simp only [Bool.and_eq_true, decide_eq_true_eq] at visible
  exact ascii c visible.1 visible.2

theorem digit_ascii (ascii : ∀ c : Char, 0x20 ≤ c.toNat → c.toNat < 0x80 → P c) {c : Char}
    (digit : c.isDigit = true) : P c := by
  simp only [Char.isDigit, Bool.and_eq_true, decide_eq_true_eq, ge_iff_le, UInt32.le_iff_toNat_le] at digit
  have number : c.toNat = c.val.toNat := rfl
  have low : '0'.val.toNat = 48 := rfl
  have high : '9'.val.toNat = 57 := rfl
  exact ascii c (by omega) (by omega)

theorem numberText_all (ascii : ∀ c : Char, 0x20 ≤ c.toNat → c.toNat < 0x80 → P c)
    (text : NumberText num w j) : ∀ c ∈ w, P c :=
  numberText_chars (fun _ => digit_ascii ascii) (plain_all ascii rfl) text

mutual

/-- The characters of a text are visible ASCII or stand in a string of the value. -/
theorem write_all (ascii : ∀ c : Char, 0x20 ≤ c.toNat → c.toNat < 0x80 → P c) : ∀ (j : Json),
    Writable num j → ((∀ c ∈ write num j, P c) ↔
      Strings (fun s => ∀ c ∈ s.toList, 0x80 ≤ c.toNat → P c) j)
  | .null, _ => iff_of_true (plain_all ascii rfl) trivial
  | .bool true, _ => iff_of_true (plain_all ascii rfl) trivial
  | .bool false, _ => iff_of_true (plain_all ascii rfl) trivial
  | .nonFinite, _ => iff_of_true (plain_all ascii rfl) trivial
  | .int n, _ => iff_of_true (numberText_all ascii (intText_number num n)) trivial
  | .float q, writable => iff_of_true (numberText_all ascii writable) trivial
  | .str s, _ => quoted_all ascii s
  | .arr items, writable => by
    rw [write, List.forall_mem_cons, List.forall_mem_append, List.forall_mem_singleton,
      joined_all (ascii _ (by decide) (by decide)) (ascii _ (by decide) (by decide)),
      itemTexts_all ascii items writable]
    exact ⟨fun all => all.2.1, fun all =>
      ⟨ascii _ (by decide) (by decide), all, ascii _ (by decide) (by decide)⟩⟩
  | .obj fields, writable => by
    rw [write, List.forall_mem_cons, List.forall_mem_append, List.forall_mem_singleton,
      joined_all (ascii _ (by decide) (by decide)) (ascii _ (by decide) (by decide)),
      fieldTexts_all ascii fields writable.2]
    exact ⟨fun all => all.2.1, fun all =>
      ⟨ascii _ (by decide) (by decide), all, ascii _ (by decide) (by decide)⟩⟩

theorem itemTexts_all (ascii : ∀ c : Char, 0x20 ≤ c.toNat → c.toNat < 0x80 → P c) :
    ∀ (items : List Json), WritableItems num items →
      ((∀ w ∈ itemTexts num items, ∀ c ∈ w, P c) ↔
        ItemStrings (fun s => ∀ c ∈ s.toList, 0x80 ≤ c.toNat → P c) items)
  | [], _ => iff_of_true (fun _ member => nomatch member) trivial
  | item :: rest, writable => by
    rw [itemTexts, List.forall_mem_cons, write_all ascii item writable.1,
      itemTexts_all ascii rest writable.2]
    rfl

theorem fieldTexts_all (ascii : ∀ c : Char, 0x20 ≤ c.toNat → c.toNat < 0x80 → P c) :
    ∀ (fields : List (String × Json)), WritableFields num fields →
      ((∀ w ∈ fieldTexts num fields, ∀ c ∈ w, P c) ↔
        FieldStrings (fun s => ∀ c ∈ s.toList, 0x80 ≤ c.toNat → P c) fields)
  | [], _ => iff_of_true (fun _ member => nomatch member) trivial
  | field :: rest, writable => by
    rw [fieldTexts, List.forall_mem_cons, List.forall_mem_append, List.forall_mem_cons,
      List.forall_mem_cons, quoted_all ascii, write_all ascii field.2 writable.1,
      fieldTexts_all ascii rest writable.2]
    exact and_congr_left fun _ => ⟨fun all => ⟨all.1, all.2.2.2⟩, fun all =>
      ⟨all.1, ascii _ (by decide) (by decide), ascii _ (by decide) (by decide), all.2⟩⟩

end

mutual

theorem strings_of_all {good : String → Prop} (all : ∀ s, good s) : ∀ j : Json, Strings good j
  | .str s => all s
  | .arr items => itemStrings_of_all all items
  | .obj fields => fieldStrings_of_all all fields
  | .null | .bool _ | .int _ | .float _ | .nonFinite => trivial

theorem itemStrings_of_all {good : String → Prop} (all : ∀ s, good s) :
    ∀ items : List Json, ItemStrings good items
  | [] => trivial
  | item :: rest => ⟨strings_of_all all item, itemStrings_of_all all rest⟩

theorem fieldStrings_of_all {good : String → Prop} (all : ∀ s, good s) :
    ∀ fields : List (String × Json), FieldStrings good fields
  | [] => trivial
  | field :: rest => ⟨⟨all field.1, strings_of_all all field.2⟩, fieldStrings_of_all all rest⟩

end

/-- A text has no control characters: it stands in one line of a file. -/
theorem write_visible (writable : Writable num j) : ∀ c ∈ write num j, 0x20 ≤ c.toNat :=
  (write_all (fun _ visible _ => visible) j writable).mpr
    (strings_of_all (fun _ _ _ far => le_trans (by decide) far) j)

/-- A character that is no ASCII comes into the text from a string alone. -/
theorem write_free (foreign : ∀ c, bad c = true → 0x80 ≤ c.toNat) (writable : Writable num j) :
    (∀ c ∈ write num j, bad c = false) ↔ Free bad j := by
  have near (c : Char) (small : c.toNat < 0x80) : bad c = false := by
    by_contra other
    exact absurd (foreign c (by simpa using other)) (not_le.mpr small)
  rw [write_all (P := fun c => bad c = false) (fun c _ small => near c small) j writable]
  have same : (fun s : String => ∀ c ∈ s.toList, 0x80 ≤ c.toNat → bad c = false) =
      fun s => ∀ c ∈ s.toList, bad c = false := by
    funext s
    refine propext ⟨fun all c member => ?_, fun all c member _ => all c member⟩
    by_cases far : 0x80 ≤ c.toNat
    · exact all c member far
    · exact near c (not_le.mp far)
  rw [same]

theorem clean_joined (clean : ∀ w ∈ texts, Clean (fun _ => false) w) :
    Clean (fun _ => false) (joined texts) := by
  induction texts with
  | nil => exact .nil
  | cons a texts ih =>
    obtain ⟨own, others⟩ := List.forall_mem_cons.mp clean
    cases texts with
    | nil =>
      rw [joined_singleton]
      exact own
    | cons b texts =>
      rw [joined_cons_cons]
      exact own.append (.char (by decide) rfl (.char (by decide) rfl (ih others)))

theorem clean_quoted (s : String) : Clean (fun _ => false) (quoted s) := by
  have inside (cs : List Char) : Clean (fun _ => false) (cs.flatMap escape) := by
    induction cs with
    | nil => exact .nil
    | cons c cs ih =>
      rw [List.flatMap_cons]
      exact .escape rfl ih
  exact .char (by decide) rfl ((inside s.toList).append (.char (by decide) rfl .nil))

theorem clean_number (text : NumberText num w j) : Clean (fun _ => false) w :=
  clean_plain fun c member => ⟨numberText_plain text c member, rfl⟩

mutual

/-- A text is made of escapes and of other characters. -/
theorem write_clean : ∀ j : Json, Writable num j → Clean (fun _ => false) (write num j)
  | .null, _ => clean_plain (s := ['n', 'u', 'l', 'l']) (Py.all_of (by decide))
  | .bool true, _ => clean_plain (s := ['t', 'r', 'u', 'e']) (Py.all_of (by decide))
  | .bool false, _ => clean_plain (s := ['f', 'a', 'l', 's', 'e']) (Py.all_of (by decide))
  | .nonFinite, _ => clean_plain (s := ['N', 'a', 'N']) (Py.all_of (by decide))
  | .int n, _ => clean_number (intText_number num n)
  | .float _, writable => clean_number writable
  | .str s, _ => clean_quoted s
  | .arr items, writable =>
    .char (by decide) rfl ((clean_joined (itemTexts_clean items writable)).append
      (.char (by decide) rfl .nil))
  | .obj fields, writable =>
    .char (by decide) rfl ((clean_joined (fieldTexts_clean fields writable.2)).append
      (.char (by decide) rfl .nil))

theorem itemTexts_clean : ∀ items : List Json, WritableItems num items →
    ∀ w ∈ itemTexts num items, Clean (fun _ => false) w
  | [], _ => fun _ member => nomatch member
  | item :: rest, writable =>
    List.forall_mem_cons.mpr ⟨write_clean item writable.1, itemTexts_clean rest writable.2⟩

theorem fieldTexts_clean : ∀ fields : List (String × Json), WritableFields num fields →
    ∀ w ∈ fieldTexts num fields, Clean (fun _ => false) w
  | [], _ => fun _ member => nomatch member
  | field :: rest, writable =>
    List.forall_mem_cons.mpr ⟨(clean_quoted field.1).append
      (.char (by decide) rfl (.char (by decide) rfl (write_clean field.2 writable.1))),
      fieldTexts_clean rest writable.2⟩

end

/-- Cut at these characters, a text falls into clean parts. -/
theorem Clean.parts (foreign : ∀ c, bad c = true → 0x80 ≤ c.toNat) (clean : Clean (fun _ => false) s) :
    ∀ part ∈ s.splitOnP bad, Clean bad part := by
  have single {c : Char} {s : List Char} (plain : c ≠ '\\')
      (ih : ∀ part ∈ s.splitOnP bad, Clean bad part) : ∀ part ∈ (c :: s).splitOnP bad, Clean bad part := by
    rw [List.splitOnP_cons_eq_if_modifyHead]
    cases good : bad c with
    | true => exact List.forall_mem_cons.mpr ⟨.nil, ih⟩
    | false =>
      cases parts : s.splitOnP bad with
      | nil => exact absurd parts (List.splitOnP_ne_nil bad s)
      | cons part others =>
        rw [parts] at ih
        obtain ⟨own, others⟩ := List.forall_mem_cons.mp ih
        exact List.forall_mem_cons.mpr ⟨.char plain good own, others⟩
  induction clean with
  | nil => exact List.forall_mem_singleton.mpr .nil
  | char plain _ _ ih => exact single plain ih
  | @escape c s _ _ ih =>
    cases good : bad c with
    | true =>
      have plain : c ≠ '\\' := by
        rintro rfl
        exact absurd (foreign _ good) (by decide)
      rw [escape_far (foreign c good)]
      exact single plain ih
    | false =>
      have goods : ∀ d ∈ JsonText.escape c, bad d = false := by
        intro d member
        rcases escape_ascii member with ⟨rfl, -⟩ | ⟨-, near⟩
        · exact good
        · by_contra other
          exact absurd (foreign d (by simpa using other)) (not_le.mpr near)
      rw [Py.splitOnP_front goods]
      cases parts : s.splitOnP bad with
      | nil => exact absurd parts (List.splitOnP_ne_nil bad s)
      | cons part others =>
        rw [parts] at ih
        obtain ⟨own, others⟩ := List.forall_mem_cons.mp ih
        exact List.forall_mem_cons.mpr ⟨.escape good own, others⟩

/-- The beginning of a clean text is clean where only blanks are cut off, none of which ends an
escape. -/
theorem Clean.front {blank : Char → Bool}
    (solid : ∀ (c : Char) (w : List Char) (d : Char), JsonText.escape c = w ++ [d] → w ≠ [] →
      blank d = false)
    (clean : Clean bad s) (cut : s = w ++ t) (blanks : ∀ c ∈ t, blank c = true) : Clean bad w := by
  induction clean generalizing w with
  | nil =>
    obtain rfl := (List.append_eq_nil_iff.mp cut.symm).1
    exact .nil
  | char plain good _ ih =>
    cases w with
    | nil => exact .nil
    | cons c w =>
      obtain ⟨rfl, same⟩ := List.cons.inj cut
      exact .char plain good (ih same)
  | @escape c s good _ ih =>
    rcases List.append_eq_append_iff.mp cut with ⟨front, rfl, same⟩ | ⟨behind, text, same⟩
    · exact .escape good (ih same)
    · rcases List.eq_nil_or_concat behind with rfl | ⟨behind, last, rfl⟩
      · rw [List.append_nil] at text
        rw [← text, ← List.append_nil (JsonText.escape c)]
        exact .escape good .nil
      · have hidden : blank last = true := blanks last (by rw [same]; simp)
        rcases w with _ | ⟨e, w⟩
        · exact .nil
        · have seen := solid c (e :: w ++ behind) last (by rw [text]; simp) (by simp)
          rw [seen] at hidden
          contradiction

/-- An escape does not end with a blank. -/
theorem escape_solid {c d : Char} {w : List Char} (text : escape c = w ++ [d]) (longer : w ≠ []) :
    Py.isSpace d = false := by
  have digit : ∀ k < 16, Py.isSpace (Nat.digitChar k) = false := by decide
  have last : (escape c).getLast? = some d := by rw [text, List.getLast?_concat]
  rcases escape_cases c with special | ⟨-, control⟩ | ⟨-, -, -, plain⟩
  · simp only [lettered, List.mem_cons, List.not_mem_nil, or_false] at special
    rcases special with rfl | rfl | rfl | rfl | rfl | rfl | rfl <;>
      · obtain rfl := Option.some.inj last
        rfl
  · have shape : escape c = ('\\' :: 'u' :: Py.hexDigits 3 (c.toNat / 16)) ++
        [Nat.digitChar (c.toNat % 16)] := control
    rw [shape, List.getLast?_concat] at last
    obtain rfl := Option.some.inj last
    exact digit _ (Nat.mod_lt _ (by decide))
  · have sizes := congrArg List.length (plain.symm.trans text)
    rw [List.length_append, List.length_singleton] at sizes
    exact absurd (List.length_eq_zero_iff.mp (by simpa using sizes.symm)) longer

end Characters

end Lib.JsonText

import Nl2SqlAgent.SchemaTexts

/-! Which schema text the semantic check shows beside a statement: when every table that the
statement refers to is in it, and when it is cut behind a complete block. -/
namespace Nl2SqlAgent

open Lib

namespace ReviewedSchema

open Regex SchemaFilter
open ExtractSql (ignoringCase)
open Py (isSpace rfind OnlyAt LastAt)

variable {py : Script}

section Shown

open Classical

/-- The statement names the table: a word is spotted in it that is, in any case, the one the
name of the table begins with. -/
def Named (sql : List Char) (b : Block py) : Prop :=
  b.lead py ≠ [] ∧ ∃ w, Spotted py w sql ∧ py.case.lowerText w = py.case.lowerText (b.lead py)

/-- The text that is to be shown: the named tables, or the whole text where none is named. -/
noncomputable def Tables.shown (t : Tables py) (sql : List Char) : List Char :=
  if ∃ b ∈ t.blocks, Named sql b then
    "\n\n".toList.intercalate ((t.blocks.filter fun b => Named sql b).map fun b => b.text)
  else t.text

/-- The names of the other tables, as they are read off the blocks. -/
noncomputable def Tables.omitted (t : Tables py) (sql : List Char) : List (List Char) :=
  if ∃ b ∈ t.blocks, Named sql b then
    (((t.blocks.filter fun b => ¬ Named sql b).map fun b => b.text).filterMap (tableName py)).dedup
  else []

variable {sql : List Char} {t : Tables py} {b : Block py} {maxChars : ℕ}

theorem isUsed_iff (sql : List Char) (b : Block py) :
    isUsed py (extractSqlTables py sql) b.text = true ↔ Named sql b := by
  rw [isUsed, tableName_block, Named]
  by_cases empty : b.lead py = []
  · simp [empty]
  · have found : py.case.lowerText (b.lead py) ∈ extractSqlTables py sql ↔
        ∃ w, Spotted py w sql ∧ py.case.lowerText w = py.case.lowerText (b.lead py) := by
      have maps : extractSqlTables py sql =
          ((finditer (tableReference py) sql).map
            fun m => m.groups.getD 0 []).map py.case.lowerText := by
        rw [List.map_map]
        rfl
      rw [maps, List.mem_map]
      simp only [mem_finditer]
    rw [if_neg empty, Option.any_some, decide_eq_true_eq, found]
    exact (and_iff_right empty).symm

theorem isUsed_eq (sql : List Char) (b : Block py) :
    isUsed py (extractSqlTables py sql) b.text = decide (Named sql b) :=
  Bool.eq_iff_iff.mpr ((isUsed_iff sql b).trans decide_eq_true_iff.symm)

theorem comment_unused (t : Tables py) (used : List (List Char)) :
    ∀ w ∈ t.header.toList.map Py.trim, isUsed py used w = false := by
  intro w member
  obtain ⟨h, inHeader, rfl⟩ := List.mem_map.mp member
  rw [isUsed, tableName_comment t h (Option.mem_toList.mp inHeader)]
  rfl

theorem relevant_blocks (t : Tables py) (sql : List Char) :
    (ddlBlocks t.text).filter (isUsed py (extractSqlTables py sql)) =
      (t.blocks.filter fun b => Named sql b).map fun b => b.text := by
  have comment : (t.header.toList.map Py.trim).filter (isUsed py (extractSqlTables py sql)) = [] :=
    List.filter_eq_nil_iff.mpr fun w member => by simp [comment_unused t _ w member]
  rw [ddlBlocks_text, List.filter_append, comment, List.nil_append, List.filter_map]
  have same : t.blocks.filter (isUsed py (extractSqlTables py sql) ∘ fun b => b.text) =
      t.blocks.filter fun b => Named sql b := by
    refine List.filter_congr fun b _ => ?_
    rw [Function.comp_apply, isUsed_eq]
  rw [same]

theorem unused_names (t : Tables py) (sql : List Char) :
    ((ddlBlocks t.text).filter fun blk => !isUsed py (extractSqlTables py sql) blk).filterMap
      (tableName py) =
      ((t.blocks.filter fun b => ¬ Named sql b).map fun b => b.text).filterMap (tableName py) := by
  have comment : ((t.header.toList.map Py.trim).filter fun blk =>
      !isUsed py (extractSqlTables py sql) blk).filterMap (tableName py) = [] := by
    refine List.filterMap_eq_nil_iff.mpr fun w member => ?_
    obtain ⟨h, inHeader, rfl⟩ := List.mem_map.mp (List.mem_of_mem_filter member)
    exact tableName_comment t h (Option.mem_toList.mp inHeader)
  rw [ddlBlocks_text, List.filter_append, List.filterMap_append, comment, List.nil_append,
    List.filter_map]
  have same : t.blocks.filter
    ((fun blk => !isUsed py (extractSqlTables py sql) blk) ∘ fun b => b.text) =
      t.blocks.filter fun b => ¬ Named sql b := by
    refine List.filter_congr fun b _ => ?_
    rw [Function.comp_apply, isUsed_eq, decide_not]
  rw [same]

theorem truncate_short {text : List Char} (short : text.length ≤ maxChars) :
    truncateAtDdlBoundary text maxChars = text := by rw [truncateAtDdlBoundary, if_pos short]

/-- The filter shows what is to be shown and lists the other names, or cuts it. -/
theorem filterSchemaText_text (t : Tables py) (sql : List Char) (maxChars : ℕ) :
    filterSchemaText py t.text (extractSqlTables py sql) maxChars =
      if (t.shown sql).length ≤ maxChars then
        if t.omitted sql ≠ [] then t.shown sql ++ namesNote (t.omitted sql) else t.shown sql
      else truncateAtDdlBoundary (t.shown sql) maxChars := by
  have relevant := relevant_blocks t sql
  have unused := unused_names t sql
  by_cases named : ∃ b ∈ t.blocks, Named sql b
  · obtain ⟨b, member, name⟩ := named
    have used : extractSqlTables py sql ≠ [] := by
      intro none
      have found := (isUsed_iff sql b).mpr name
      rw [none, isUsed] at found
      obtain ⟨_, -, absent⟩ := Option.any_eq_true .. |>.mp found
      simp at absent
    have blocks : (t.blocks.filter fun b => Named sql b).map (fun b => b.text) ≠ [] := by
      intro none
      have found : b ∈ t.blocks.filter fun b => Named sql b :=
        List.mem_filter.mpr ⟨member, decide_eq_true name⟩
      rw [List.map_eq_nil_iff.mp none] at found
      cases found
    have text : t.text ≠ [] := by
      intro none
      rw [none] at relevant
      exact blocks relevant.symm
    have shown : t.shown sql =
        "\n\n".toList.intercalate ((t.blocks.filter fun b => Named sql b).map fun b => b.text) :=
      if_pos ⟨b, member, name⟩
    have omitted : t.omitted sql =
        (((t.blocks.filter fun b => ¬ Named sql b).map fun b => b.text).filterMap
          (tableName py)).dedup :=
      if_pos ⟨b, member, name⟩
    simp only [filterSchemaText, if_neg text, if_neg used, relevant, if_neg blocks, unused, ← shown,
      ← omitted]
  · have shown : t.shown sql = t.text := if_neg named
    have omitted : t.omitted sql = [] := if_neg named
    have blocks : (t.blocks.filter fun b => Named sql b).map (fun b => b.text) = [] := by
      rw [List.map_eq_nil_iff, List.filter_eq_nil_iff]
      exact fun b member name => named ⟨b, member, of_decide_eq_true name⟩
    have whole : filterSchemaText py t.text (extractSqlTables py sql) maxChars =
        truncateAtDdlBoundary t.text maxChars := by
      rw [filterSchemaText]
      split
      next empty =>
        rw [empty]
        exact (truncate_short (Nat.zero_le _)).symm
      next =>
        simp only [relevant, blocks, if_true, ite_self]
    rw [whole, shown, omitted]
    split
    next short => rw [truncate_short short, if_neg (not_not.mpr rfl)]
    · rfl

end Shown

section Sight

variable {sql name out : List Char} {maxChars : ℕ} {refs : List Char → Prop}

/-- The text has the notice that it is truncated. -/
def Noticed (out : List Char) : Prop := noticeMark <:+: out

/-- The text lists the name as that of a table that is not referenced. -/
def Lists (out name : List Char) : Prop := ∃ before names,
  out = before ++ (listMark ++ ", ".toList.intercalate names) ∧ name ∈ names ∧ ∀ n ∈ names, ',' ∉ n

/-- The text ends with a complete block. -/
def Tables.EndsBlock (t : Tables py) (s : List Char) : Prop := ∃ b ∈ t.blocks, b.text <:+ s

/-- What the check is to see of a schema, for a statement that refers to these tables: their
blocks, or the notice; no remark that one of them is not referenced; and with the notice a start
of what is to be shown that ends with a block if a start past the middle does. -/
structure Sees (schema : Schema py) (sql : List Char) (refs : List Char → Prop) (maxChars : ℕ)
    (out : List Char) : Prop where
  complete : ¬ Noticed out → ∀ b ∈ schema.blocks, refs b.name → b.text <:+: out
  unlisted : ∀ b ∈ schema.blocks, refs b.name → ¬ Lists out b.name
  bounded : Noticed out → ∃ kept rest, out = kept ++ '\n' :: '\n' :: (noticeMark ++ rest) ∧
    kept.length ≤ maxChars ∧ kept <+: schema.shown sql ∧
    ((∃ p, maxChars / 2 < p ∧ p ≤ maxChars ∧ schema.EndsBlock ((schema.shown sql).take p)) →
      schema.EndsBlock kept)

/-- Nothing is left out of what is to be shown, or the statement names the tables it refers to. -/
def Tables.Reached (t : Tables py) (sql : List Char) (refs : List Char → Prop)
    (maxChars : ℕ) : Prop :=
  maxChars < (t.shown sql).length ∨ (∀ b ∈ t.blocks, ¬ Named sql b) ∨
    ∀ b ∈ t.blocks, refs b.name → Named sql b

/-- The window ends with a block where the last closing parenthesis and semicolon are past the
middle and it is cut behind them, or where none are and it is left as it is. -/
def Tables.Closed (t : Tables py) (window : List Char) (maxChars : ℕ) : Prop :=
  (∃ i, maxChars / 2 < i ∧ LastAt ");".toList window i ∧ t.EndsBlock (window.take (i + 2))) ∨
    ((∀ i, maxChars / 2 < i → ¬ ");".toList <+: window.drop i) ∧ t.EndsBlock window)

/-- The text fits, no block ends past the middle of the window, or one ends where it is cut. -/
def Tables.CutWell (t : Tables py) (sql : List Char) (maxChars : ℕ) : Prop :=
  (t.shown sql).length ≤ maxChars ∨
    (∀ p, maxChars / 2 < p → p ≤ maxChars → ¬ t.EndsBlock ((t.shown sql).take p)) ∨
    t.Closed ((t.shown sql).take maxChars) maxChars

theorem text_within (t : Tables py) {b : Block py} (member : b ∈ t.blocks) :
    b.text <:+: t.text := by
  have part : b.text ++ b.gap ∈ t.parts := List.mem_append_right _ (List.mem_map_of_mem member)
  exact List.infix_append_left.trans (Py.infix_intercalate part)

/-- A remark that the text does not have is not in what is to be shown. -/
theorem shown_unmarked {t : Tables py} {mark : List Char} (line : '\n' ∉ mark)
    (nonempty : mark ≠ [])
    (absent : ¬ mark <:+: t.text) (sql : List Char) : ¬ mark <:+: t.shown sql := by
  rw [Tables.shown]
  split
  · intro found
    obtain ⟨w, member, inside⟩ :=
      Py.infix_of_intercalate (by simpa using line) nonempty (by decide) found
    obtain ⟨b, inBlocks, rfl⟩ := List.mem_map.mp member
    exact absent (inside.trans (text_within t (List.mem_of_mem_filter inBlocks)))
  · exact absent

/-- What is kept of a text that is too long. -/
def keptOf (window : List Char) (maxChars : ℕ) : List Char :=
  match (rfind ");".toList window).filter (maxChars / 2 < ·) with
  | some lastEnd => window.take (lastEnd + 2)
  | none => window

theorem keptOf_begins (window : List Char) (maxChars : ℕ) : keptOf window maxChars <+: window := by
  rw [keptOf]
  split
  · exact List.take_prefix _ _
  · exact List.prefix_refl _

theorem closed_iff (t : Tables py) (window : List Char) :
    t.Closed window maxChars ↔ t.EndsBlock (keptOf window maxChars) := by
  rw [keptOf, Tables.Closed]
  cases found : (rfind ");".toList window).filter (maxChars / 2 < ·) with
  | some i =>
    obtain ⟨last, past⟩ := Option.filter_eq_some_iff.mp found
    have here := Py.rfind_eq_some (by decide) last
    have far : maxChars / 2 < i := of_decide_eq_true past
    constructor
    · rintro (⟨j, -, other, ends⟩ | ⟨nowhere, -⟩)
      · rwa [← other.unique here]
      · exact absurd here.1 (nowhere i far)
    · exact fun ends => .inl ⟨i, far, here, ends⟩
  | none =>
    have nowhere : ∀ i, maxChars / 2 < i → ¬ ");".toList <+: window.drop i := by
      intro i far
      cases last : rfind ");".toList window with
      | none => exact Py.rfind_eq_none (by decide) last i
      | some k =>
        intro here
        have near : ¬ maxChars / 2 < k := fun past =>
          Option.filter_eq_none_iff.mp found k last (decide_eq_true past)
        exact (Py.rfind_eq_some (by decide) last).2 i (by omega) here
    constructor
    · rintro (⟨i, far, here, -⟩ | ⟨-, ends⟩)
      · exact absurd here.1 (nowhere i far)
      · exact ends
    · exact fun ends => .inr ⟨nowhere, ends⟩

theorem digits_free {c : Char} (other : c.isDigit = false) (n : ℕ) : c ∉ (toString n).toList := by
  intro member
  have digit := Py.toString_digits n c member
  rw [other] at digit
  cases digit

theorem omittedNote_eq (maxChars omittedCount : ℕ) : ∃ rest,
    omittedNote maxChars omittedCount = '\n' :: '\n' :: (noticeMark ++ rest) ∧ ':' ∉ rest := by
  have opens : "\n\n-- NOTE: Schema truncated at ".toList = '\n' :: '\n' ::
    (noticeMark ++ " at ".toList) := rfl
  have joined (mark a n b k c d : List Char) :
    '\n' :: '\n' :: (mark ++ a) ++ n ++ b ++ k ++ c ++ d =
      '\n' :: '\n' :: (mark ++ (a ++ (n ++ (b ++ (k ++ (c ++ d)))))) := by simp
  refine ⟨" at ".toList ++ ((toString maxChars).toList ++
    (" chars. ".toList ++ ((toString omittedCount).toList ++
    (" table(s) omitted. ".toList ++
      "Only the tables referenced by the SQL and shown above are relevant.".toList)))), ?_, ?_⟩
  · exact (congrArg (fun start => start ++ (toString maxChars).toList ++ " chars. ".toList ++
      (toString omittedCount).toList ++ " table(s) omitted. ".toList ++
      "Only the tables referenced by the SQL and shown above are relevant.".toList) opens).trans
      (joined noticeMark " at ".toList _ _ _ _ _)
  have free := digits_free (c := ':') (by decide)
  have at_ : ':' ∉ " at ".toList := by decide
  have chars : ':' ∉ " chars. ".toList := by decide
  have tables : ':' ∉ " table(s) omitted. ".toList := by decide
  have only : ':' ∉ "Only the tables referenced by the SQL and shown above are relevant.".toList :=
    by decide
  intro member
  rcases List.mem_append.mp member with here | member
  · exact at_ here
  rcases List.mem_append.mp member with here | member
  · exact free _ here
  rcases List.mem_append.mp member with here | member
  · exact chars here
  rcases List.mem_append.mp member with here | member
  · exact free _ here
  rcases List.mem_append.mp member with here | member
  · exact tables here
  · exact only member

/-- A text that is too long is cut, and the notice follows. -/
theorem truncate_long {text : List Char} (long : maxChars < text.length) :
    ∃ rest, truncateAtDdlBoundary text maxChars =
      keptOf (text.take maxChars) maxChars ++ '\n' :: '\n' :: (noticeMark ++ rest) ∧
        ':' ∉ rest := by
  rw [truncateAtDdlBoundary, if_neg (Nat.not_le.mpr long), keptOf]
  simp only
  cases (rfind ");".toList (text.take maxChars)).filter (maxChars / 2 < ·) with
  | some lastEnd =>
    obtain ⟨rest, note, free⟩ := omittedNote_eq maxChars
      (finditer (opening ignoringCase) (text.drop (lastEnd + 2))).length
    exact ⟨rest, congrArg _ note, free⟩
  | none =>
    have fallback : fallbackNote =
      '\n' :: '\n' :: (noticeMark ++ ". Verify against the execution result below.".toList) := rfl
    exact ⟨_, congrArg _ fallback, by decide⟩

section Lines

variable {mark line place x : List Char}

theorem infix_line (free : '\n' ∉ mark) (nonempty : mark ≠ []) :
    mark <:+: x ++ '\n' :: '\n' :: line ↔ mark <:+: x ∨ mark <:+: line := by
  have blank : mark <:+: '\n' :: line ↔ mark <:+: line := by
    have sides : mark <:+: [] ++ '\n' :: line ↔ mark <:+: [] ∨ mark <:+: line :=
      Py.infix_separated free
    exact sides.trans (or_iff_right fun empty => nonempty (List.infix_nil.mp empty))
  rw [Py.infix_separated free, blank]

theorem onlyAt_line (only : OnlyAt mark line place) (free : '\n' ∉ mark) (nonempty : mark ≠ [])
    (absent : ¬ mark <:+: x) : OnlyAt mark (x ++ '\n' :: '\n' :: line) place := by
  refine OnlyAt.separated ?_ free nonempty absent
  exact OnlyAt.separated (x := []) only free nonempty fun empty => nonempty
    (List.infix_nil.mp empty)

end Lines

theorem noticeMark_eq : noticeMark = "-- NOTE".toList ++ ':' :: " Schema truncated".toList := rfl

theorem listMark_eq : listMark = "table".toList ++ '(' ::
    "s) in schema but not referenced by this SQL: ".toList :=
  rfl

theorem notice_only {rest : List Char} (free : ':' ∉ rest) :
    OnlyAt noticeMark (noticeMark ++ rest) (noticeMark ++ rest) := by
  have after : ':' ∉ " Schema truncated".toList ++ rest := by
    rw [List.mem_append]
    exact not_or.mpr ⟨by decide, free⟩
  have only := Py.onlyAt_around (a := "-- NOTE".toList)
    (b := " Schema truncated".toList) (by decide)
    (x := "-- NOTE".toList) (by decide) after
  rw [noticeMark_eq, List.append_assoc, List.cons_append]
  exact only

theorem notice_unlisted {rest : List Char} (free : ':' ∉ rest) :
    ¬ listMark <:+: noticeMark ++ rest := by
  intro found
  obtain ⟨s, begins, inside⟩ := List.infix_iff_prefix_suffix.mp found
  have after : ':' ∉ " Schema truncated".toList ++ rest := by
    rw [List.mem_append]
    exact not_or.mpr ⟨by decide, free⟩
  have only := Py.onlyAt_around (a := "table(s) in schema but not referenced by this SQL".toList)
    (b := " ".toList)
    (by decide) (x := "-- NOTE".toList) (by decide) after
  rw [noticeMark_eq, List.append_assoc, List.cons_append] at inside
  rw [only s inside begins, List.suffix_append_self_iff] at inside
  exact absurd inside (by decide)

/-- The line that lists names. -/
def namesLine (names : List (List Char)) : List Char :=
  "-- Note: ".toList ++ ((toString names.length).toList ++ (" other ".toList ++
    (listMark ++ ", ".toList.intercalate (byText.sort names))))

theorem namesNote_eq (names : List (List Char)) :
    namesNote names = '\n' :: '\n' :: namesLine names := by
  have joined (a n b mark l : List Char) : '\n' :: '\n' :: a ++ n ++ (b ++ mark) ++ l =
      '\n' :: '\n' :: (a ++ (n ++ (b ++ (mark ++ l)))) := by simp
  exact joined "-- Note: ".toList _ " other ".toList listMark _

section Names

variable {names : List (List Char)} {c : Char} (words : ∀ n ∈ names, ∀ d ∈ n, py.isWord d = true)
include words

theorem joined_free (other : py.isWord c = false) (apart : c ∉ ", ".toList) :
    c ∉ ", ".toList.intercalate (byText.sort names) := by
  intro member
  rcases Py.mem_intercalate member with between | ⟨n, inNames, inside⟩
  · exact apart between
  · have word := words n ((byText.sort_perm names).mem_iff.mp inNames) c inside
    rw [other] at word
    cases word

theorem namesLine_unnoticed : ¬ noticeMark <:+: namesLine names := by
  have other : py.isWord '-' = false := isWord_mark (by decide) (by decide)
  have start : '-' ∉ " Note: ".toList := by decide
  have middle : '-' ∉ " other ".toList := by decide
  have mark : '-' ∉ listMark := by decide
  have free : '-' ∉ " Note: ".toList ++ ((toString names.length).toList ++ (" other ".toList ++
      (listMark ++ ", ".toList.intercalate (byText.sort names)))) := by
    simp only [List.mem_append, not_or]
    exact ⟨start, digits_free (by decide) _, middle, mark, joined_free words other (by decide)⟩
  have line : namesLine names = '-' :: '-' ::
    (" Note: ".toList ++ ((toString names.length).toList ++
      (" other ".toList ++ (listMark ++ ", ".toList.intercalate (byText.sort names))))) := rfl
  rw [line, List.infix_cons_iff, List.infix_cons_iff]
  rintro (whole | second | later)
  · have start := whole.take 5
    change noticeMark.take 5 <+: "-- No".toList at start
    exact absurd start (by decide)
  · have start := second.take 2
    change noticeMark.take 2 <+: "- ".toList at start
    exact absurd start (by decide)
  · exact free (later.subset (List.mem_cons_self))

theorem namesLine_around : ∃ x y, namesLine names = x ++ '(' :: y ∧ '(' ∉ x ∧ '(' ∉ y ∧ 'C' ∉ x ∧
    listMark ++ ", ".toList.intercalate (byText.sort names) = "table".toList ++ '(' :: y := by
  have other : py.isWord '(' = false := isWord_mark (by decide) (by decide)
  have before {c : Char} (note : c ∉ "-- Note: ".toList) (digit : c.isDigit = false)
    (table : c ∉ " other table".toList) :
      c ∉ "-- Note: ".toList ++ ((toString names.length).toList ++ " other table".toList) := by
    simp only [List.mem_append, not_or]
    exact ⟨note, digits_free digit _, table⟩
  have mark : '(' ∉ "s) in schema but not referenced by this SQL: ".toList := by decide
  have after : '(' ∉ "s) in schema but not referenced by this SQL: ".toList ++
      ", ".toList.intercalate (byText.sort names) := by
    simp only [List.mem_append, not_or]
    exact ⟨mark, joined_free words other (by decide)⟩
  have split (a n b t : List Char) (c : Char) (m l : List Char) :
      a ++ (n ++ (b ++ ((t ++ c :: m) ++ l))) = (a ++ (n ++ (b ++ t))) ++ c :: (m ++ l) := by simp
  have place : listMark ++ ", ".toList.intercalate (byText.sort names) = "table".toList ++
      '(' :: ("s) in schema but not referenced by this SQL: ".toList ++
        ", ".toList.intercalate (byText.sort names)) := by
    rw [listMark_eq, List.append_assoc, List.cons_append]
  exact ⟨_, _, split "-- Note: ".toList _ " other ".toList "table".toList '(' _ _,
    before (by decide) (by decide) (by decide), after,
      before (by decide) (by decide) (by decide), place⟩

theorem names_only : OnlyAt listMark (namesLine names)
    (listMark ++ ", ".toList.intercalate (byText.sort names)) := by
  obtain ⟨x, y, line, before, after, -, place⟩ := namesLine_around words
  rw [line, place, listMark_eq]
  exact Py.onlyAt_around (by decide) before after

end Names

section Places

variable {t : Tables py} {b : Block py} {ds : List (Block py)} {s tail u more : List Char}

theorem takeWhile_stops {p : Char → Bool} {c : Char} (stop : p c = false) (member : c ∈ u) :
    (u ++ more).takeWhile p = u.takeWhile p := by
  rw [List.takeWhile_append, if_neg]
  intro all
  have whole := (List.takeWhile_prefix p).eq_of_length all
  have passes := List.mem_takeWhile_imp (whole ▸ member)
  rw [stop] at passes
  cases passes

/-- The word ends before the parenthesis, whatever follows that. -/
theorem leadOf_append (member : '(' ∈ u) : leadOf py (u ++ more) = leadOf py u := by
  have solid : u.dropWhile isSpace ≠ [] := by
    intro blank
    exact absurd (List.dropWhile_eq_nil_iff.mp blank '(' member) (by decide)
  have later : '(' ∈ u.dropWhile isSpace := by
    rw [← List.takeWhile_append_dropWhile (p := isSpace) (l := u)] at member
    rcases List.mem_append.mp member with before | later
    · exact absurd (List.mem_takeWhile_imp before) (by decide)
    · exact later
  have stop : py.isWord '(' = false := isWord_mark (by decide) (by decide)
  rw [leadOf, leadOf, List.dropWhile_append, if_neg (by simpa using solid)]
  cases shape : u.dropWhile isSpace with
  | nil => exact absurd shape solid
  | cons c v =>
    rw [shape] at later
    by_cases mark : c = '"'
    · subst mark
      have inside : '(' ∈ v := (List.mem_cons.mp later).resolve_left (by decide)
      exact takeWhile_stops stop inside
    · have same (w : List Char) : unquoted (c :: w) = c :: w := unquoted_other mark w
      rw [List.cons_append, same, same, ← List.cons_append]
      exact takeWhile_stops stop later

/-- A block that begins the text of another one has its name. -/
theorem lead_prefix {r : Block py} (begins : b.text <+: r.text ++ more) :
    b.lead py = r.lead py := by
  have same : r.text ++ more = "CREATE TABLE ".toList ++ (r.declared ++ more) :=
    List.append_assoc ..
  rw [same] at begins
  obtain ⟨rest, whole⟩ := (List.prefix_append_right_inj "CREATE TABLE ".toList).mp begins
  have inside (d : Block py) : '(' ∈ d.declared := List.mem_append_right _ d.columns
  have longer : leadOf py (b.declared ++ rest) = leadOf py b.declared := leadOf_append (inside b)
  rw [Ddl.lead, Ddl.lead, ← longer, whole, leadOf_append (inside r)]

theorem startsTable_block (d : Ddl) (t : List Char) : startsTable (d.text ++ t) = true :=
  opening_starts (opening_block d t)

/-- The words do not begin at the end of a line. -/
theorem starts_behind {c : Char} (starts : startsTable s = true) (other : c ≠ 'C')
    (inside : s <:+ c :: tail) :
    s <:+ tail := by
  rcases List.suffix_cons_iff.mp inside with rfl | later
  · exact absurd (Option.some.inj (startsTable_head starts)) other
  · exact later

theorem block_suffix (blank : ∀ c ∈ tail.head?, isSpace c = true)
    (next : (tail.dropWhile isSpace).head? ≠ some 'T')
    (starts : startsTable s = true) (inside : s <:+ b.text ++ tail) :
      s = b.text ++ tail ∨ s <:+ tail := by
  rcases Py.suffix_append_iff.mp inside with later | ⟨v, -, front, rfl⟩
  · exact .inr later
  · have alone := startsTable_append starts blank next
    rcases List.suffix_cons_iff.mp front with rfl | within
    · exact .inl rfl
    · rw [b.alone v within] at alone
      cases alone

/-- The words CREATE TABLE stand in the joined blocks only where a block begins. -/
theorem block_place (blank : ∀ c ∈ tail.head?, isSpace c = true)
    (next : (tail.dropWhile isSpace).head? ≠ some 'T') (starts : startsTable s = true)
    (inside : s <:+ "\n\n".toList.intercalate (ds.map fun b => b.text) ++ tail) :
    s <:+ tail ∨ ∃ r ∈ ds, ∃ rest, s = r.text ++ rest := by
  induction ds with
  | nil => exact .inl inside
  | cons b ds ih =>
    cases ds with
    | nil =>
      rw [List.map_cons, List.map_nil, List.intercalate_singleton] at inside
      rcases block_suffix blank next starts inside with whole | later
      · exact .inr ⟨b, List.mem_cons_self, tail, whole⟩
      · exact .inl later
    | cons c ds =>
      obtain ⟨rest, joined⟩ : ∃ rest, "\n\n".toList.intercalate ((c :: ds).map fun b => b.text) =
        c.text ++ rest := by
        cases ds with
        | nil => exact ⟨[], by rw [List.map_cons, List.map_nil, List.intercalate_singleton,
            List.append_nil]⟩
        | cons d ds =>
          exact ⟨_, by rw [List.map_cons, List.map_cons, List.intercalate_cons_cons,
            List.append_assoc]⟩
      have lines : "\n\n".toList.intercalate ((b :: c :: ds).map fun b => b.text) ++ tail =
          b.text ++ '\n' :: '\n' :: ("\n\n".toList.intercalate ((c :: ds).map fun b => b.text) ++
            tail) := by
        rw [List.map_cons, List.map_cons, List.intercalate_cons_cons, List.append_assoc,
          List.append_assoc]
        rfl
      rw [lines] at inside
      have after : (('\n' :: '\n' :: ("\n\n".toList.intercalate ((c :: ds).map fun b => b.text) ++
        tail)).dropWhile
          isSpace).head? ≠ some 'T' := by
        rw [joined, List.append_assoc]
        exact nofun
      rcases block_suffix (by simp; decide) after starts inside with whole | later
      · exact .inr ⟨b, List.mem_cons_self, _, whole⟩
      · have within := starts_behind starts (by decide) (starts_behind starts (by decide) later)
        exact (ih within).imp_right fun ⟨r, member, place⟩ => ⟨r,
          List.mem_cons_of_mem b member, place⟩

theorem block_not_listed {names : List (List Char)}
    (words : ∀ n ∈ names, ∀ d ∈ n, py.isWord d = true) :
    ¬ b.text <:+: namesLine names := by
  intro found
  obtain ⟨s, begins, inside⟩ := List.infix_iff_prefix_suffix.mp found
  obtain ⟨more, rfl⟩ := begins
  have member : '(' ∈ b.text ++ more :=
    List.mem_append_left _ (List.mem_append_right _ (List.mem_append_right _ b.columns))
  have head := startsTable_head (startsTable_block b.toDdl more)
  obtain ⟨x, y, line, -, after, upper, -⟩ := namesLine_around words
  rw [line] at inside
  rcases Py.suffix_append_iff.mp inside with later | ⟨v, nonempty, front, same⟩
  · rcases List.suffix_cons_iff.mp later with same | later
    · rw [same] at head
      exact absurd (Option.some.inj head) (by decide)
    · exact after (later.subset member)
  · obtain ⟨c, v, rfl⟩ := List.exists_cons_of_ne_nil nonempty
    rw [same] at head
    obtain rfl : c = 'C' := Option.some.inj head
    exact upper (front.subset List.mem_cons_self)

/-- A block that is in the joined blocks, or in those with the list, has the name of one of them. -/
theorem block_joined {names : List (List Char)} (words : ∀ n ∈ names, ∀ d ∈ n, py.isWord d = true)
    (listed : tail = [] ∨ tail = namesNote names)
    (found : b.text <:+: "\n\n".toList.intercalate (ds.map fun b => b.text) ++ tail) :
    ∃ r ∈ ds, b.lead py = r.lead py := by
  obtain ⟨s, begins, inside⟩ := List.infix_iff_prefix_suffix.mp found
  have starts : startsTable s = true := by
    obtain ⟨more, rfl⟩ := begins
    exact startsTable_block b.toDdl more
  have line : tail = [] ∨ tail = '\n' :: '\n' :: namesLine names :=
    listed.imp_right fun note => note.trans (namesNote_eq names)
  have blank : ∀ c ∈ tail.head?, isSpace c = true := by
    rcases line with rfl | rfl
    · exact nofun
    · simp; decide
  have next : (tail.dropWhile isSpace).head? ≠ some 'T' := by
    rcases line with rfl | rfl
    · exact nofun
    · change some '-' ≠ some 'T'
      decide
  rcases block_place blank next starts inside with later | ⟨r, member, rest, rfl⟩
  · rcases line with rfl | rfl
    · rw [List.suffix_nil.mp later] at starts
      cases starts
    · have within := starts_behind starts (by decide) (starts_behind starts (by decide) later)
      exact absurd (List.infix_iff_prefix_suffix.mpr ⟨s, begins, within⟩) (block_not_listed words)
  · exact ⟨r, member, lead_prefix begins⟩

end Places

section Names

variable {t : Tables py} {b : Block py} {n : List Char}

theorem lead_word (d : Ddl) :
    ∀ c ∈ d.lead py, py.isWord c = true := fun _ member => List.mem_takeWhile_imp member

open Classical in
theorem mem_omitted (member : n ∈ t.omitted sql) :
    n ≠ [] ∧ ∃ b ∈ t.blocks, ¬ Named sql b ∧ b.lead py = n := by
  rw [Tables.omitted] at member
  split at member
  · obtain ⟨w, inBlocks, read⟩ := List.mem_filterMap.mp (List.mem_dedup.mp member)
    obtain ⟨b, kept, rfl⟩ := List.mem_map.mp inBlocks
    obtain ⟨inText, other⟩ := List.mem_filter.mp kept
    rw [tableName_block] at read
    split at read
    · cases read
    next some_ =>
      obtain rfl := Option.some.inj read
      exact ⟨some_, b, inText, of_decide_eq_true other, rfl⟩
  · cases member

theorem omitted_words (t : Tables py) (sql : List Char) :
    ∀ n ∈ t.omitted sql, ∀ d ∈ n, py.isWord d = true := by
  intro n member
  obtain ⟨-, b, -, -, rfl⟩ := mem_omitted member
  exact lead_word b.toDdl

theorem takeWhile_name {p : Char → Bool} {name rest : List Char} (all : ∀ c ∈ name, p c = true)
    (ends : ∃ c ∈ rest.head?, p c = false) : (name ++ rest).takeWhile p = name := by
  obtain ⟨c, head, stop⟩ := ends
  obtain ⟨rest, rfl⟩ := List.head?_eq_some_iff.mp head
  rw [List.takeWhile_append_of_pos all, List.takeWhile_cons_of_neg (by simp [stop]),
    List.append_nil]

/-- A name that is a word is what is read off its block, or nothing is. -/
theorem lead_of_word (word : ∀ c ∈ b.name, py.isWord c = true) (nonempty : b.name ≠ []) :
    b.lead py = b.name ∨ b.lead py = [] := by
  rw [Ddl.lead, leadOf, Ddl.declared]
  cases b.quote with
  | plain =>
    obtain ⟨c, name, same⟩ := List.exists_cons_of_ne_nil nonempty
    have first : py.isWord c = true := word c (same ▸ List.mem_cons_self)
    have mark : c ≠ '"' := by
      rintro rfl
      rw [isWord_quote] at first
      cases first
    refine .inl ?_
    change (unquoted ((b.name ++ b.body).dropWhile isSpace)).takeWhile py.isWord = b.name
    rw [same, List.cons_append, List.dropWhile_cons_of_neg (by simp [py.word_solid c first]),
      unquoted_other mark,
      ← List.cons_append, ← same]
    exact takeWhile_name word b.ends
  | double =>
    refine .inl ?_
    change ((b.name ++ ['"']) ++ b.body).takeWhile py.isWord = b.name
    rw [List.append_assoc]
    exact takeWhile_name word ⟨'"', rfl, isWord_quote⟩
  | back =>
    refine .inr ?_
    exact List.takeWhile_cons_of_neg (by simp [isWord_back])

/-- A table whose name is listed is not named. -/
theorem listed_unnamed (member : b.name ∈ t.omitted sql) : ¬ Named sql b := by
  obtain ⟨nonempty, c, -, other, same⟩ := mem_omitted member
  rintro ⟨some_, w, spotted, equal⟩
  have word := omitted_words t sql b.name member
  rcases lead_of_word word nonempty with read | empty
  · exact other ⟨same ▸ nonempty, w, spotted, by rw [equal, read, same]⟩
  · exact some_ empty

end Names

section Verdict

variable {schema : Schema py}

theorem noticeMark_line : '\n' ∉ noticeMark := by decide

theorem listMark_line : '\n' ∉ listMark := by decide

theorem shown_unnoticed (schema : Schema py) (sql : List Char) :
    ¬ noticeMark <:+: schema.shown sql :=
  shown_unmarked noticeMark_line (by decide) schema.unnoticed sql

theorem shown_unlisted (schema : Schema py) (sql : List Char) : ¬ listMark <:+: schema.shown sql :=
  shown_unmarked listMark_line (by decide) schema.unlisted sql

/-- The text that the filter returns: what is to be shown, with or without a list, or the start
of it with the notice. -/
theorem schemaForCheck_cases (schema : Schema py) (sql : List Char) (maxChars : ℕ) :
    ((schema.shown sql).length ≤ maxChars ∧ schema.omitted sql = [] ∧
        schemaForCheck py schema.text sql maxChars = schema.shown sql) ∨
      ((schema.shown sql).length ≤ maxChars ∧ schema.omitted sql ≠ [] ∧
        schemaForCheck py schema.text sql maxChars = schema.shown sql ++ '\n' :: '\n' ::
          namesLine (schema.omitted sql)) ∨
      (maxChars < (schema.shown sql).length ∧ ∃ rest, ':' ∉ rest ∧
        schemaForCheck py schema.text sql maxChars =
        keptOf ((schema.shown sql).take maxChars) maxChars ++ '\n' :: '\n' ::
          (noticeMark ++ rest)) := by
  rw [schemaForCheck, filterSchemaText_text]
  split
  next short =>
    split
    next some_ => exact .inr (.inl ⟨short, some_, by rw [namesNote_eq]⟩)
    next none => exact .inl ⟨short, not_not.mp none, rfl⟩
  next long =>
    obtain ⟨rest, whole, free⟩ := truncate_long (Nat.not_le.mp long)
    exact .inr (.inr ⟨Nat.not_le.mp long, rest, free, whole⟩)

theorem kept_within (schema : Schema py) (sql : List Char) (maxChars : ℕ) :
    keptOf ((schema.shown sql).take maxChars) maxChars <:+: schema.shown sql :=
  ((keptOf_begins _ _).trans (List.take_prefix _ _)).isInfix

/-- The notice is there if and only if the text is cut. -/
theorem noticed_iff (schema : Schema py) (sql : List Char) (maxChars : ℕ) :
    Noticed (schemaForCheck py schema.text sql maxChars) ↔
    maxChars < (schema.shown sql).length := by
  have absent := shown_unnoticed schema sql
  rcases schemaForCheck_cases schema sql maxChars with ⟨short, -, whole⟩ | ⟨short, -, whole⟩
    | ⟨long, rest, -, whole⟩
  · rw [whole]
    exact iff_of_false absent (Nat.not_lt.mpr short)
  · rw [whole, Noticed, infix_line noticeMark_line (by decide)]
    refine iff_of_false ?_ (Nat.not_lt.mpr short)
    exact not_or.mpr ⟨absent, namesLine_unnoticed (omitted_words schema.toTables sql)⟩
  · rw [whole, Noticed, infix_line noticeMark_line (by decide)]
    exact iff_of_true (.inr List.infix_append_left) long

/-- What the text lists are the omitted names, and it lists nothing if it is cut. -/
theorem lists_omitted {name : List Char}
    (lists : Lists (schemaForCheck py schema.text sql maxChars) name) :
    (schema.shown sql).length ≤ maxChars ∧ name ∈ schema.omitted sql := by
  obtain ⟨before, names, text, member, plain⟩ := lists
  have found : listMark <:+: schemaForCheck py schema.text sql maxChars := by
    rw [text]
    exact List.infix_append_left.trans List.infix_append_right
  have absent := shown_unlisted schema sql
  rcases schemaForCheck_cases schema sql maxChars with
    ⟨-, -, whole⟩ | ⟨short, some_, whole⟩ | ⟨-, rest, free, whole⟩
  · exact absurd (whole ▸ found) absent
  · have words := omitted_words schema.toTables sql
    have only := onlyAt_line (names_only words) listMark_line (by decide) absent
    rw [whole] at text
    have joined := List.append_cancel_left (only.inj text)
    have perm := byText.sort_perm (schema.omitted sql)
    have comma : py.isWord ',' = false := isWord_mark (by decide) (by decide)
    have same := @Py.intercalate_inj ',' [' '] _ _ (List.ne_nil_of_mem member)
      (fun none => some_ (List.nil_perm.mp (none ▸ perm))) plain
      (fun n inside here => by simp [words n (perm.mem_iff.mp inside) ',' here] at comma) joined
    exact ⟨short, perm.mem_iff.mp (same ▸ member)⟩
  · rw [whole, infix_line listMark_line (by decide)] at found
    rcases found with inKept | inNotice
    · exact absurd (inKept.trans (kept_within schema sql maxChars)) absent
    · exact absurd inNotice (notice_unlisted free)

theorem omitted_listed {name : List Char} (short : (schema.shown sql).length ≤ maxChars)
    (member : name ∈ schema.omitted sql) :
      Lists (schemaForCheck py schema.text sql maxChars) name := by
  have perm := byText.sort_perm (schema.omitted sql)
  have comma : py.isWord ',' = false := isWord_mark (by decide) (by decide)
  rcases schemaForCheck_cases schema sql maxChars with ⟨-, none, -⟩ | ⟨-, -, whole⟩ | ⟨long, -⟩
  · rw [none] at member
    cases member
  · refine ⟨schema.shown sql ++ '\n' :: '\n' :: ("-- Note: ".toList ++
      ((toString (schema.omitted sql).length).toList ++ " other ".toList)),
        byText.sort (schema.omitted sql), ?_,
      perm.mem_iff.mpr member, fun n inside here => ?_⟩
    · have split (x a n b l : List Char) : x ++ '\n' :: '\n' :: (a ++ (n ++ (b ++ l))) =
          x ++ '\n' :: '\n' :: (a ++ (n ++ b)) ++ l := by simp
      exact whole.trans (split _ "-- Note: ".toList _ " other ".toList _)
    · have word := omitted_words schema.toTables sql n (perm.mem_iff.mp inside) ',' here
      rw [comma] at word
      cases word
  · omega

open Classical in
theorem shown_named {t : Tables py} (named : ∃ b ∈ t.blocks, Named sql b) : t.shown sql =
    "\n\n".toList.intercalate ((t.blocks.filter fun b => Named sql b).map fun b => b.text) :=
      if_pos named

open Classical in
/-- Where some table is named and the text fits, it has the blocks of the named tables and no
others. -/
theorem block_shown_iff {b : Block py} (member : b ∈ schema.blocks)
    (named : ∃ b ∈ schema.blocks, Named sql b)
    (short : (schema.shown sql).length ≤ maxChars) :
    b.text <:+: schemaForCheck py schema.text sql maxChars ↔ Named sql b := by
  have shown := shown_named named
  constructor
  · intro found
    have words := omitted_words schema.toTables sql
    have inside : ∃ r ∈ schema.blocks.filter fun b => Named sql b, b.lead py = r.lead py := by
      rcases schemaForCheck_cases schema sql maxChars with ⟨-, -, whole⟩ | ⟨-, -, whole⟩ | ⟨long, -⟩
      · rw [whole, shown, ← List.append_nil (List.intercalate _ _)] at found
        exact block_joined words (.inl rfl) found
      · rw [whole, shown, ← namesNote_eq] at found
        exact block_joined words (.inr rfl) found
      · omega
    obtain ⟨r, inFilter, same⟩ := inside
    have other : Named sql r := of_decide_eq_true (List.mem_filter.mp inFilter).2
    rwa [Named, same]
  · intro name
    have inFilter : b ∈ schema.blocks.filter fun b => Named sql b :=
      List.mem_filter.mpr ⟨member, decide_eq_true name⟩
    have inside : b.text <:+: schema.shown sql := by
      rw [shown]
      exact Py.infix_intercalate (List.mem_map_of_mem inFilter)
    rcases schemaForCheck_cases schema sql maxChars with ⟨-, -, whole⟩ | ⟨-, -, whole⟩ | ⟨long, -⟩
    · rwa [whole]
    · rw [whole]
      exact inside.trans List.infix_append_left
    · omega

/-- Where no table is named and the text fits, it is the whole text. -/
theorem whole_shown (none : ∀ b ∈ schema.blocks, ¬ Named sql b)
    (short : (schema.shown sql).length ≤ maxChars) :
    schemaForCheck py schema.text sql maxChars = schema.text := by
  have not : ¬ ∃ b ∈ schema.blocks, Named sql b := fun ⟨b, member, name⟩ => none b member name
  have shown : schema.shown sql = schema.text := if_neg not
  have omitted : schema.omitted sql = [] := if_neg not
  rw [schemaForCheck, filterSchemaText_text, if_pos short, if_neg (not_not.mpr omitted), shown]

theorem complete_iff (schema : Schema py) (sql : List Char) (refs : List Char → Prop)
    (maxChars : ℕ) :
    (¬ Noticed (schemaForCheck py schema.text sql maxChars) → ∀ b ∈ schema.blocks, refs b.name →
      b.text <:+: schemaForCheck py schema.text sql maxChars) ↔
        schema.Reached sql refs maxChars := by
  rw [noticed_iff, Nat.not_lt, Tables.Reached]
  by_cases short : (schema.shown sql).length ≤ maxChars
  · by_cases named : ∃ b ∈ schema.blocks, Named sql b
    · obtain ⟨c, inBlocks, name⟩ := named
      constructor
      · intro complete
        refine .inr (.inr fun b member referred => ?_)
        exact (block_shown_iff member ⟨c, inBlocks, name⟩ short).mp
          (complete short b member referred)
      · rintro (long | none | all) - b member referred
        · omega
        · exact absurd name (none c inBlocks)
        · exact (block_shown_iff member ⟨c, inBlocks, name⟩ short).mpr (all b member referred)
    · have none : ∀ b ∈ schema.blocks, ¬ Named sql b := fun b member name => named ⟨b, member, name⟩
      refine iff_of_true (fun _ b member _ => ?_) (.inr (.inl none))
      rw [whole_shown none short]
      exact text_within schema.toTables member
  · exact iff_of_true (fun fits => absurd fits short) (.inl (Nat.not_le.mp short))

theorem bounded_iff (schema : Schema py) (sql : List Char) (maxChars : ℕ) :
    (Noticed (schemaForCheck py schema.text sql maxChars) → ∃ kept rest,
      schemaForCheck py schema.text sql maxChars = kept ++ '\n' :: '\n' :: (noticeMark ++ rest) ∧
      kept.length ≤ maxChars ∧ kept <+: schema.shown sql ∧
      ((∃ p, maxChars / 2 < p ∧ p ≤ maxChars ∧ schema.EndsBlock ((schema.shown sql).take p)) →
        schema.EndsBlock kept)) ↔ schema.CutWell sql maxChars := by
  rw [noticed_iff, Tables.CutWell, closed_iff]
  rcases schemaForCheck_cases schema sql maxChars with ⟨short, -⟩ | ⟨short, -⟩
    | ⟨long, rest, free, whole⟩
  · exact iff_of_true (fun long => absurd short (Nat.not_le.mpr long)) (.inl short)
  · exact iff_of_true (fun long => absurd short (Nat.not_le.mpr long)) (.inl short)
  · have pre := (keptOf_begins ((schema.shown sql).take maxChars) maxChars).trans
      (List.take_prefix _ _)
    have fits : (keptOf ((schema.shown sql).take maxChars) maxChars).length ≤ maxChars :=
      (keptOf_begins _ _).length_le.trans (List.length_take_le _ _)
    constructor
    · intro bounded
      obtain ⟨kept, rest', text, -, -, ends⟩ := bounded long
      have absent : ¬ noticeMark <:+:
        keptOf ((schema.shown sql).take maxChars) maxChars := fun found =>
        shown_unnoticed schema sql (found.trans (kept_within schema sql maxChars))
      have only := onlyAt_line (notice_only free) noticeMark_line (by decide) absent
      rw [whole] at text
      have place := only.inj (x := kept ++ ['\n', '\n']) (by simpa using text)
      rw [place] at text
      obtain rfl := List.append_cancel_right text
      by_cases past : ∃ p, maxChars / 2 < p ∧ p ≤ maxChars ∧
        schema.EndsBlock ((schema.shown sql).take p)
      · exact .inr (.inr (ends past))
      · exact .inr (.inl fun p far near here => past ⟨p, far, near, here⟩)
    · rintro (short | none | closed) -
      · omega
      · exact ⟨_, rest, whole, fits, pre, fun ⟨p, far, near, here⟩ => absurd here (none p far near)⟩
      · exact ⟨_, rest, whole, fits, pre, fun _ => closed⟩

/-- The filter does what it is for exactly where the condition holds. -/
theorem sees_iff (schema : Schema py) (sql : List Char) (refs : List Char → Prop) (maxChars : ℕ) :
    Sees schema sql refs maxChars (schemaForCheck py schema.text sql maxChars) ↔
      schema.Reached sql refs maxChars ∧ schema.CutWell sql maxChars := by
  constructor
  · rintro ⟨complete, -, bounded⟩
    exact ⟨(complete_iff schema sql refs maxChars).mp complete,
      (bounded_iff schema sql maxChars).mp bounded⟩
  · rintro ⟨reached, cut⟩
    refine ⟨(complete_iff schema sql refs maxChars).mpr reached, fun b member referred lists => ?_,
      (bounded_iff schema sql maxChars).mpr cut⟩
    obtain ⟨short, listed⟩ := lists_omitted lists
    have unnamed := listed_unnamed listed
    rcases reached with long | none | all
    · omega
    -- a list is only there where some table is named
    · have not : ¬ ∃ b ∈ schema.blocks, Named sql b := fun ⟨b, member, name⟩ => none b member name
      have omitted : schema.omitted sql = [] := if_neg not
      rw [omitted] at listed
      cases listed
    · exact unnamed (all b member referred)

end Verdict

end Sight

/-- The block that `build_compact_ddl` writes for a table with one column. -/
def idBlock (name : Char) (letter : name = 'a' ∨ name = 'b') : Block Script.ascii where
  name := [name]
  quote := .plain
  body := " (\n  id INTEGER\n);".toList
  gap := []
  blank := blank_nil
  ends := ⟨' ', rfl, rfl⟩
  columns := by decide
  closed := ⟨';', rfl, rfl⟩
  alone := by
    have first : ∀ s ∈ (Ddl.text ⟨['a'], .plain, " (\n  id INTEGER\n);".toList⟩).tail.tails,
      startsTable s = false := by
      decide
    have second : ∀ s ∈ (Ddl.text ⟨['b'], .plain, " (\n  id INTEGER\n);".toList⟩).tail.tails,
      startsTable s = false := by
      decide
    intro s inside
    rcases letter with rfl | rfl
    · exact first s ((List.mem_tails _ _).mpr inside)
    · exact second s ((List.mem_tails _ _).mpr inside)

/-- Two tables. -/
def twoTables : Schema Script.ascii where
  header := some "-- SQL Dialect: sqlite".toList
  blocks := [idBlock 'a' (.inl rfl), idBlock 'b' (.inr rfl)]
  comment := by decide
  quiet := by
    have line : ∀ s ∈ "-- SQL Dialect: sqlite".toList.tails, startsTable s = false := by decide
    rintro h ⟨⟩ s inside
    exact line s ((List.mem_tails _ _).mpr inside)
  unnoticed found := absurd (found.subset (by decide : 'h' ∈ noticeMark)) (by decide)
  unlisted found := absurd (found.subset (by decide : 'h' ∈ listMark)) (by decide)

def joinSql : List Char := "SELECT * FROM a JOIN b ON a.id = b.id".toList

theorem joinSql_names : Named joinSql (idBlock 'a' (.inl rfl)) ∧
    ¬ Named joinSql (idBlock 'b' (.inr rfl)) :=
  ⟨(isUsed_iff joinSql _).mp (by decide), mt (isUsed_iff joinSql _).mpr (by decide)⟩

/-- JOIN is read as the alias of the first table, and the second one is listed as not referenced. -/
theorem join_not_seen : Lists (schemaForCheck Script.ascii twoTables.text joinSql 8000) ['b'] ∧
    ¬ Sees twoTables joinSql (· ∈ [['a'], ['b']]) 8000
      (schemaForCheck Script.ascii twoTables.text joinSql 8000) := by
  obtain ⟨first, second⟩ := joinSql_names
  have named : ∃ b ∈ twoTables.blocks, Named joinSql b := ⟨_, List.mem_cons_self, first⟩
  have shown : twoTables.shown joinSql = (idBlock 'a' (.inl rfl)).text := by
    rw [shown_named named, ← relevant_blocks]
    decide
  have omitted : twoTables.omitted joinSql = [['b']] := by
    refine (if_pos named).trans ?_
    rw [← unused_names]
    decide
  have short : (twoTables.shown joinSql).length ≤ 8000 := by
    rw [shown]
    decide
  refine ⟨omitted_listed short (by simp [omitted]), fun sees => ?_⟩
  have reached := (complete_iff twoTables joinSql _ 8000).mp sees.complete
  rcases reached with long | none | all
  · omega
  · exact none _ List.mem_cons_self first
  · exact second (all _ (List.mem_cons_of_mem _ List.mem_cons_self) (by decide))

end ReviewedSchema
end Nl2SqlAgent

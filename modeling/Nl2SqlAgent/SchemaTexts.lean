import Nl2SqlAgent.SchemaContext
import Nl2SqlAgent.SchemaFilter

/-! Schema texts: a comment and the blocks of tables. Which blocks `_filter_schema_text` finds
in them, and which names it reads off the blocks. -/
namespace Nl2SqlAgent

open Lib

namespace ReviewedSchema

open Regex SchemaFilter
open ExtractSql (ignoringCase word)
open Py (isSpace)

/-- How the name of a table is written. -/
inductive Quote where
  | plain
  | double
  | back
  deriving DecidableEq, Repr

def Quote.written (name : List Char) : Quote → List Char
  | plain => name
  | double => '"' :: name ++ ['"']
  | back => '`' :: name ++ ['`']

/-- A table: its name, and the text behind the name. -/
structure Ddl where
  name : List Char
  quote : Quote
  body : List Char
  deriving DecidableEq, Repr

/-- The text behind CREATE TABLE. -/
def Ddl.declared (d : Ddl) : List Char := d.quote.written d.name ++ d.body

def Ddl.text (d : Ddl) : List Char := "CREATE TABLE ".toList ++ d.declared

/-- The words CREATE TABLE stand here. -/
def startsTable (s : List Char) : Bool :=
  "CREATE".toList.isPrefixOf s && (s.drop 6).head?.any isSpace &&
    "TABLE".toList.isPrefixOf ((s.drop 6).dropWhile isSpace)

variable (py : Script)

/-- A table as a schema text has it, with the white space behind it: the name ends before the
body, the body has the columns in parentheses, and the words CREATE TABLE stand nowhere else in
it. -/
structure Block extends Ddl where
  gap : List Char
  blank : ∀ c ∈ gap, isSpace c = true
  ends : ∃ c ∈ body.head?, py.isWord c = false
  columns : '(' ∈ body
  closed : ∃ c ∈ body.getLast?, isSpace c = false
  alone : ∀ s, s <:+ toDdl.text.tail → startsTable s = false

/-- The comment that a text begins with, if any, and its tables. -/
structure Tables where
  header : Option (List Char)
  blocks : List (Block py)
  comment : ∀ h ∈ header, h.head? = some '-'
  quiet : ∀ h ∈ header, ∀ s, s <:+ h → startsTable s = false

variable {py}

def Tables.parts (t : Tables py) : List (List Char) :=
  t.header.toList ++ t.blocks.map fun b => b.text ++ b.gap

def Tables.text (t : Tables py) : List Char := ['\n'].intercalate t.parts

def noticeMark : List Char := "-- NOTE: Schema truncated".toList

def listMark : List Char := "table(s) in schema but not referenced by this SQL: ".toList

variable (py) in
/-- A schema text, which has no remark of the filter in it. -/
structure Schema extends Tables py where
  unnoticed : ¬ noticeMark <:+: toTables.text
  unlisted : ¬ listMark <:+: toTables.text

/-- The text without the double quote that it may begin with. -/
def unquoted : List Char → List Char
  | '"' :: s => s
  | s => s

variable (py) in
/-- The word that a text begins with, behind white space and a double quote. -/
def leadOf (s : List Char) : List Char := (unquoted (s.dropWhile isSpace)).takeWhile py.isWord

variable (py) in
def Ddl.lead (d : Ddl) : List Char := leadOf py d.declared

section Names

variable {c : Char} {s : List Char}

theorem isWord_mark (small : c.val < 128) (other : Py.isWordChar c = false) :
    py.isWord c = false := by
  rw [py.word_ascii c small, other]

theorem isWord_quote : py.isWord '"' = false := isWord_mark (by decide) (by decide)

theorem isWord_back : py.isWord '`' = false := isWord_mark (by decide) (by decide)

/-- A word that a double quote may follow. -/
def quotedWord (py : Script) :
    Pattern := (Pattern.group (.some_ py.isWord)).seq (.optional (· = '"'))

theorem head_quotedWord (s : List Char) :
    ((quotedWord py).run s).head?.map (fun m => m.groups.getD 0 []) =
    if s.takeWhile py.isWord = [] then none else some (s.takeWhile py.isWord) := by
  have always (t : List Char) : (Pattern.optional (· = '"')).run t ≠ [] := by
    simp [Pattern.optional, Pattern.run]
  cases s with
  | nil => rfl
  | cons c s =>
    rw [quotedWord, head_group_some (always _)]
    by_cases word : py.isWord c = true
    · obtain ⟨n, rest, found⟩ := List.exists_cons_of_ne_nil (always (s.dropWhile py.isWord))
      simp [word, found]
    · simp [word]

theorem quotedWord_skips (c : Char) (s : List Char) (other : py.isWord c = false) :
    (quotedWord py).run (c :: s) = [] := by
  have found := @head_quotedWord py (c :: s)
  rw [List.takeWhile_cons_of_neg (by simp [other]), if_pos rfl] at found
  exact List.head?_eq_none_iff.mp (Option.map_eq_none_iff.mp found)

theorem unquoted_other (other : c ≠ '"') (s : List Char) : unquoted (c :: s) = c :: s := by
  unfold unquoted
  split
  next equal => exact absurd (List.cons.inj equal).1 other
  · rfl

/-- The quote before the word is passed. -/
theorem head_unquoted (s : List Char) :
    (((Pattern.optional (· = '"')).seq (quotedWord py)).run s).head?.map
      (fun m => m.groups.getD 0 []) =
      if (unquoted s).takeWhile py.isWord =
        [] then none else some ((unquoted s).takeWhile py.isWord) := by
  rw [← head_quotedWord, Pattern.optional, run_alt_seq, run_empty_seq]
  cases s with
  | nil => rfl
  | cons c s =>
    by_cases mark : c = '"'
    · subst mark
      rw [quotedWord_skips '"' s isWord_quote, List.append_nil]
      simp [unquoted, Pattern.run, Option.map_map, Function.comp_def]
    · rw [unquoted_other mark]
      simp [Pattern.run, mark]

theorem tableName_block (d : Ddl) : tableName py d.text =
    if d.lead py = [] then none else some (d.lead py) := by
  have inner (c : Char) (s : List Char) (blank : isSpace c = true) :
      ((Pattern.optional (· = '"')).seq (quotedWord py)).run (c :: s) = [] := by
    have mark : c ≠ '"' := by
      rintro rfl
      exact absurd blank (by decide)
    have found := quotedWord_skips c s (@space_not_word py c blank)
    simpa [Pattern.optional, run_alt_seq, run_empty_seq, Pattern.run, mark] using found
  have outer (c : Char) (s : List Char) (blank : isSpace c = true) :
      ((word "TABLE").seq ((Pattern.some_ isSpace).seq
        ((Pattern.optional (· = '"')).seq (quotedWord py)))).run
        (c :: s) = [] := by
    rw [word, run_chars_seq, ExtractSql.word_skips "TABLE" ⟨'T', rfl, by decide⟩ c s blank]
    rfl
  have first : ((blockHead py).run d.text).head?.map Match.left =
      (((Pattern.optional (· = '"')).seq (quotedWord py)).run
        (d.declared.dropWhile isSpace)).head?.map Match.left := by
    rw [blockHead, word, left_chars_seq, if_pos (by rfl)]
    refine (left_some_seq outer _).trans ?_
    rw [if_pos (by rfl)]
    refine (left_chars_seq ignoringCase "TABLE".toList ("TABLE ".toList ++ d.declared) _).trans ?_
    rw [if_pos (by rfl)]
    refine (left_some_seq inner (' ' :: d.declared)).trans ?_
    rw [if_pos (by rfl)]
    rfl
  have names := congrArg (Option.map fun l => l.1.getD 0 []) first
  rw [Option.map_map, Option.map_map] at names
  exact names.trans (head_unquoted _)

end Names

section Parts

variable {c : Char} {s t u w p : List Char}

/-- What has no white space in it does not go on into white space. -/
theorem prefix_solid (solid : w.all (!isSpace ·) = true) (blank : ∀ c ∈ t.head?, isSpace c = true) :
    w <+: u ++ t ↔ w <+: u := by
  cases t with
  | nil => rw [List.append_nil]
  | cons c t =>
    refine Py.prefix_separated fun member => ?_
    have not := List.all_eq_true.mp solid c member
    rw [blank c rfl] at not
    cases not

theorem startsTable_iff : startsTable s = true ↔ "CREATE".toList <+: s ∧
    (s.drop 6).head?.any isSpace = true ∧
    "TABLE".toList <+: (s.drop 6).dropWhile isSpace := by
  rw [startsTable, Bool.and_eq_true, Bool.and_eq_true, List.isPrefixOf_iff_prefix,
    List.isPrefixOf_iff_prefix,
    and_assoc]

theorem startsTable_head (starts : startsTable s = true) : s.head? = some 'C' := by
  obtain ⟨more, rfl⟩ := (startsTable_iff.mp starts).1
  rfl

/-- The words are not completed by what follows white space, unless that begins with the second. -/
theorem startsTable_append (starts : startsTable (u ++ t) = true)
    (blank : ∀ c ∈ t.head?, isSpace c = true)
    (next : (t.dropWhile isSpace).head? ≠ some 'T') : startsTable u = true := by
  obtain ⟨first, follows, second⟩ := startsTable_iff.mp starts
  obtain ⟨v, rfl⟩ := (prefix_solid (by decide) blank).mp first
  rw [List.append_assoc] at follows second
  change (v ++ t).head?.any isSpace = true at follows
  change "TABLE".toList <+: (v ++ t).dropWhile isSpace at second
  rw [List.dropWhile_append] at second
  split at second
  · obtain ⟨more, whole⟩ := second
    rw [← whole] at next
    exact absurd rfl next
  next solid =>
    have inside := (prefix_solid (by decide) blank).mp second
    refine startsTable_iff.mpr ⟨List.prefix_append _ _, ?_, inside⟩
    cases v with
    | nil => exact absurd rfl solid
    | cons c v => exact follows

/-- The expression finds the words where white space follows them. -/
theorem opening_eq (s : List Char) : (opening (· == ·)).matches s =
    (startsTable s && (((s.drop 6).dropWhile isSpace).drop 5).head?.any isSpace) := by
  have skips := chars_skip (p := isSpace) "TABLE".toList ⟨'T', rfl, by decide⟩ (.some_ isSpace)
  rw [matches_left, opening, left_chars_seq, agrees_exactly, startsTable]
  cases "CREATE".toList.isPrefixOf s with
  | false => rfl
  | true =>
    rw [if_pos rfl, left_some_seq skips, left_chars_seq, agrees_exactly]
    change Option.isSome (if (s.drop 6).head?.any isSpace = true then _ else none) = _
    cases (s.drop 6).head?.any isSpace with
    | false => rfl
    | true =>
      rw [if_pos rfl]
      change Option.isSome (if "TABLE".toList.isPrefixOf ((s.drop 6).dropWhile isSpace) =
        true then _ else none) =
        ("TABLE".toList.isPrefixOf ((s.drop 6).dropWhile isSpace) && _)
      cases "TABLE".toList.isPrefixOf ((s.drop 6).dropWhile isSpace) with
      | false => rfl
      | true =>
        rw [if_pos rfl, Option.isSome_map, head_some_isSome]
        rfl

theorem opening_starts (found : (opening (· == ·)).matches s = true) : startsTable s = true :=
  (Bool.and_eq_true_iff.mp (opening_eq s ▸ found)).1

theorem opening_block (d : Ddl) (t : List Char) :
    (opening (· == ·)).matches (d.text ++ t) = true := by
  rw [opening_eq]
  rfl

/-- No line of the part, behind its first, begins with the words. -/
def Quiet (p : List Char) : Prop := ∀ s, '\n' :: s <:+ p → startsTable s = false

theorem quiet_cons (quiet : Quiet (c :: p)) : Quiet p := fun s line =>
  quiet s (List.IsSuffix.trans line (List.suffix_cons c p))

theorem splitBlocks_last (quiet : Quiet p) : splitBlocks p = [p] := by
  induction p with
  | nil => rfl
  | cons c p ih =>
    have apart : ¬ (c = '\n' ∧ (opening (· == ·)).matches p = true) := by
      rintro ⟨rfl, found⟩
      have starts := opening_starts found
      rw [quiet p (List.suffix_refl _)] at starts
      cases starts
    rw [splitBlocks, if_neg apart, ih (quiet_cons quiet)]
    rfl

/-- A part ends before the next line that begins with the words. -/
theorem splitBlocks_append (quiet : Quiet p) (d : Ddl) (t : List Char) :
    splitBlocks (p ++ '\n' :: (d.text ++ t)) = p :: splitBlocks (d.text ++ t) := by
  induction p with
  | nil => rw [List.nil_append, splitBlocks, if_pos ⟨rfl, opening_block d t⟩]
  | cons c p ih =>
    have apart : ¬ (c = '\n' ∧ (opening (· == ·)).matches (p ++ '\n' :: (d.text ++ t)) = true) := by
      rintro ⟨rfl, found⟩
      have starts := startsTable_append (opening_starts found) (by simp; decide) nofun
      rw [quiet p (List.suffix_refl _)] at starts
      cases starts
    rw [List.cons_append, splitBlocks, if_neg apart, ih (quiet_cons quiet)]
    rfl

/-- A text is split into the parts that it is joined of, if all but the first are blocks. -/
theorem splitBlocks_join {ds : List (List Char)} (quiet : ∀ q ∈ p :: ds, Quiet q)
    (blocks : ∀ q ∈ ds, ∃ d g, q = Ddl.text d ++ g) :
    splitBlocks (['\n'].intercalate (p :: ds)) = p :: ds := by
  induction ds generalizing p with
  | nil =>
    rw [List.intercalate_singleton]
    exact splitBlocks_last (quiet p List.mem_cons_self)
  | cons q ds ih =>
    obtain ⟨d, g, rfl⟩ := blocks q List.mem_cons_self
    have later := ih (fun r member => quiet r (List.mem_cons_of_mem p member))
      fun r member => blocks r (List.mem_cons_of_mem _ member)
    obtain ⟨t, begins⟩ : ∃ t, ['\n'].intercalate ((d.text ++ g) :: ds) = d.text ++ t := by
      cases ds with
      | nil => exact ⟨g, List.intercalate_singleton⟩
      | cons r ds => exact ⟨_, by rw [List.intercalate_cons_cons, List.append_assoc,
          List.append_assoc]⟩
    rw [List.intercalate_cons_cons, begins, List.append_assoc, List.singleton_append,
      splitBlocks_append (quiet p List.mem_cons_self), ← begins, later]

theorem Block.quiet (b : Block py) : Quiet (b.text ++ b.gap) := by
  intro s line
  rcases Py.suffix_append_iff.mp line with inGap | ⟨v, nonempty, inText, same⟩
  · apply Bool.eq_false_iff.mpr
    intro starts
    have head := List.mem_of_mem_head? (startsTable_head starts)
    exact absurd (b.blank _ (inGap.subset (List.mem_cons_of_mem _ head))) (by decide)
  · obtain ⟨v, rfl⟩ : ∃ v', v = '\n' :: v' := by
      cases v with
      | nil => exact absurd rfl nonempty
      | cons c v => exact ⟨v, by rw [(List.cons.inj same).1]⟩
    obtain rfl := (List.cons.inj same).2
    have inside : v <:+ b.text.tail := by
      rcases List.suffix_cons_iff.mp inText with whole | later
      · exact absurd (List.cons.inj whole).1 (by decide)
      · exact (List.suffix_cons '\n' v).trans later
    apply Bool.eq_false_iff.mpr
    intro starts
    have blank : b.gap.dropWhile isSpace = [] := List.dropWhile_eq_nil_iff.mpr b.blank
    have alone := b.alone v inside
    rw [startsTable_append starts (fun c head => b.blank c (List.mem_of_mem_head? head))
      (by simp [blank])] at alone
    cases alone

theorem Ddl.text_ne_nil (d : Ddl) : d.text ≠ [] := List.append_ne_nil_of_left_ne_nil (by decide) _

theorem getLast_append (last : c ∈ t.getLast?) : (s ++ t).getLast? = some c := by
  rw [List.getLast?_append, Option.mem_def.mp last, Option.some_or]

theorem Block.trimmed (b : Block py) : Py.trim (b.text ++ b.gap) = b.text := by
  obtain ⟨c, last, solid⟩ := b.closed
  have whole := b.toDdl.text_ne_nil
  have split : b.text = ("CREATE TABLE ".toList ++ b.quote.written b.name) ++ b.body :=
    (List.append_assoc ..).symm
  have last : b.text.getLast? = some c := (congrArg _ split).trans (getLast_append last)
  have ends : b.text.getLast whole = c := by
    have found := List.getLast?_eq_some_getLast whole
    rw [last] at found
    exact (Option.some.inj found).symm
  exact Py.trim_padded (w := []) nofun b.blank whole rfl (ends ▸ solid)

theorem splitBlocks_text {t : Tables py} (nonempty : t.parts ≠ []) :
    splitBlocks t.text = t.parts := by
  have quiet : ∀ q ∈ t.parts, Quiet q := by
    intro q member
    rcases List.mem_append.mp member with comment | block
    · exact fun s line => t.quiet q (Option.mem_toList.mp comment) s
        ((List.suffix_cons '\n' s).trans line)
    · obtain ⟨b, -, rfl⟩ := List.mem_map.mp block
      exact b.quiet
  have block (bs : List (Block py)) :
      ∀ q ∈ bs.map fun b => b.text ++ b.gap, ∃ d g, q = Ddl.text d ++ g := by
    intro q member
    obtain ⟨b, -, rfl⟩ := List.mem_map.mp member
    exact ⟨_, _, rfl⟩
  have parts : t.parts = t.header.toList ++ t.blocks.map fun b => b.text ++ b.gap := rfl
  rw [Tables.text]
  cases header : t.header with
  | some h =>
    rw [header] at parts
    rw [parts] at quiet ⊢
    exact splitBlocks_join quiet (block t.blocks)
  | none =>
    cases blocks : t.blocks with
    | nil =>
      rw [header, blocks] at parts
      exact absurd parts nonempty
    | cons b bs =>
      rw [header, blocks] at parts
      rw [parts] at quiet ⊢
      exact splitBlocks_join quiet (block bs)

theorem comment_trim (comment : s.head? = some '-') : ∃ t, Py.trim s = '-' :: t := by
  obtain ⟨rest, rfl⟩ := List.head?_eq_some_iff.mp comment
  rw [Py.trim, List.dropWhile_cons_of_neg (by decide)]
  have front := List.rdropWhile_prefix isSpace ('-' :: rest)
  cases kept : ('-' :: rest).rdropWhile isSpace with
  | nil => exact absurd (List.rdropWhile_eq_nil_iff.mp kept '-' List.mem_cons_self) (by decide)
  | cons c t =>
    rw [kept] at front
    exact ⟨t, by rw [(List.cons_prefix_cons.mp front).1]⟩

/-- The blocks that the filter finds: the comment, and the tables. -/
theorem ddlBlocks_text (t : Tables py) :
    ddlBlocks t.text = t.header.toList.map Py.trim ++ t.blocks.map fun b => b.text := by
  have blocks : ((t.blocks.map fun b => b.text ++ b.gap).map Py.trim) =
    t.blocks.map fun b => b.text := by
    rw [List.map_map]
    exact List.map_congr_left fun b _ => b.trimmed
  have solid : ∀ w ∈ t.header.toList.map Py.trim ++ t.blocks.map fun b => b.text, w ≠ [] := by
    intro w member
    rcases List.mem_append.mp member with comment | block
    · obtain ⟨h, inHeader, rfl⟩ := List.mem_map.mp comment
      obtain ⟨rest, trimmed⟩ := comment_trim (t.comment h (Option.mem_toList.mp inHeader))
      rw [trimmed]
      exact List.cons_ne_nil _ _
    · obtain ⟨b, -, rfl⟩ := List.mem_map.mp block
      exact b.toDdl.text_ne_nil
  cases none : t.parts with
  | nil =>
    obtain ⟨header, empty⟩ := List.append_eq_nil_iff.mp none
    rw [ddlBlocks, Tables.text, none, header, List.map_eq_nil_iff.mp empty]
    rfl
  | cons p ds =>
    rw [ddlBlocks, splitBlocks_text (by simp [none]), Tables.parts, List.map_append, blocks]
    exact List.filter_eq_self.mpr fun w member => decide_eq_true (solid w member)

theorem tableName_comment (t : Tables py) : ∀ h ∈ t.header, tableName py (Py.trim h) = none := by
  intro h inHeader
  obtain ⟨rest, trimmed⟩ := comment_trim (t.comment h inHeader)
  rw [trimmed]
  rfl

end Parts

section Compact

open SchemaContext (createTable buildCompactDdl compactTable found getDialect columnMember fkMember)

theorem blank_nil : ∀ c ∈ ([] : List Char), isSpace c = true := List.forall_mem_nil _

/-- The script of ASCII texts. -/
def Script.ascii : Script where
  case := .ascii
  isWord := Py.isWordChar
  word_ascii _ _ := rfl
  word_solid c word := by
    have small : c.val < 128 := by
      rcases Bool.or_eq_true_iff.mp word with alphanumeric | underscore
      · rcases Bool.or_eq_true_iff.mp alphanumeric with letter | digit
        · rcases Bool.or_eq_true_iff.mp letter with upper | lower
          · exact UInt32.lt_of_le_of_lt (of_decide_eq_true upper).2 (by decide)
          · exact UInt32.lt_of_le_of_lt (of_decide_eq_true (Bool.and_eq_true_iff.mp lower).2)
              (by decide)
        · exact UInt32.lt_of_le_of_lt (of_decide_eq_true (Bool.and_eq_true_iff.mp digit).2)
            (by decide)
      · obtain rfl : c = '_' := by simpa using underscore
        decide
    exact Py.ascii_table (P := fun c => Py.isWordChar c = true →
      isSpace c = false) (by decide) small word

end Compact

end ReviewedSchema
end Nl2SqlAgent

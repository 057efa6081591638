import Mathlib.Data.List.Dedup
import Nl2SqlAgent.ExtractSql
import Nl2SqlAgent.Lib.Sorting

/-! `agent/nodes/semantic_check.py`: the tables read off a statement, and the schema text cut down to
them and to a length. -/
namespace Nl2SqlAgent

open Lib

namespace SchemaFilter

open Regex
open ExtractSql (ignoringCase stands word)
open Py (isSpace rfind)

/-- What the functions take from the interpreter: `str.lower` and `\w`. -/
structure Script where
  case : Py.Case
  isWord : Char → Bool
  word_ascii : ∀ c, c.val < 128 → isWord c = Py.isWordChar c
  word_solid : ∀ c, isWord c = true → isSpace c = false

variable (py : Script)

/-- `\s+(?:AS\s+)?(\w+)`. -/
def aliasPattern : Pattern :=
  (Pattern.some_ isSpace).seq
    ((((word "AS").seq (.some_ isSpace)).alt .empty).seq (.group (.some_ py.isWord)))

/-- `(?:FROM|JOIN)\s+(\w+)(?:\s+(?:AS\s+)?(\w+))?`. -/
def tableReference : Pattern :=
  ((word "FROM").alt (word "JOIN")).seq
    ((Pattern.some_ isSpace).seq ((Pattern.group (.some_ py.isWord)).seq ((aliasPattern py).alt .empty)))

/-- `_extract_sql_tables`, with the set as a list. -/
def extractSqlTables (sql : List Char) : List (List Char) :=
  (finditer (tableReference py) sql).map fun m => py.case.lowerText (m.groups.getD 0 [])

/-- `CREATE\s+TABLE\s+`. -/
def opening (same : Char → Char → Bool) : Pattern :=
  (Pattern.chars same "CREATE".toList).seq
    ((Pattern.some_ isSpace).seq ((Pattern.chars same "TABLE".toList).seq (.some_ isSpace)))

/-- `re.split(r"\n(?=CREATE\s+TABLE\s+)", s)`. -/
def splitBlocks : List Char → List (List Char)
  | [] => [[]]
  | c :: s =>
    if c = '\n' ∧ (opening (· == ·)).matches s = true then [] :: splitBlocks s
    else (splitBlocks s).modifyHead (c :: ·)

def ddlBlocks (schemaText : List Char) : List (List Char) :=
  ((splitBlocks schemaText).map Py.trim).filter (· ≠ [])

/-- `CREATE\s+TABLE\s+\"?(\w+)\"?`. -/
def blockHead : Pattern :=
  (word "CREATE").seq ((Pattern.some_ isSpace).seq ((word "TABLE").seq ((Pattern.some_ isSpace).seq
    ((Pattern.optional (· = '"')).seq ((Pattern.group (.some_ py.isWord)).seq (.optional (· = '"')))))))

/-- The first group of `re.match`. -/
def tableName (blk : List Char) : Option (List Char) :=
  ((blockHead py).run blk).head?.map fun m => m.groups.getD 0 []

def omittedNote (maxChars omittedCount : ℕ) : List Char :=
  "\n\n-- NOTE: Schema truncated at ".toList ++ (toString maxChars).toList ++ " chars. ".toList ++
    (toString omittedCount).toList ++ " table(s) omitted. ".toList ++
    "Only the tables referenced by the SQL and shown above are relevant.".toList

def fallbackNote : List Char :=
  "\n\n-- NOTE: Schema truncated. Verify against the execution result below.".toList

def truncateAtDdlBoundary (text : List Char) (maxChars : ℕ) : List Char :=
  if text.length ≤ maxChars then text
  else
    let truncated := text.take maxChars
    match (rfind ");".toList truncated).filter (maxChars / 2 < ·) with
    | some lastEnd =>
      let remaining := text.drop (lastEnd + 2)
      truncated.take (lastEnd + 2) ++ omittedNote maxChars (finditer (opening ignoringCase) remaining).length
    | none => truncated ++ fallbackNote

/-- `sorted` of names. -/
def byText : Ranking (List Char) := .ofKey String.ofList

def namesNote (omittedNames : List (List Char)) : List Char :=
  "\n\n-- Note: ".toList ++ (toString omittedNames.length).toList ++
    " other table(s) in schema but not referenced by this SQL: ".toList ++
    ", ".toList.intercalate (byText.sort omittedNames)

def isUsed (usedTables : List (List Char)) (blk : List Char) : Bool :=
  (tableName py blk).any fun name => py.case.lowerText name ∈ usedTables

def filterSchemaText (schemaText : List Char) (usedTables : List (List Char)) (maxChars : ℕ) : List Char :=
  if schemaText = [] then []
  else
    let blocks := ddlBlocks schemaText
    if usedTables = [] then truncateAtDdlBoundary schemaText maxChars
    else
      let relevant := blocks.filter (isUsed py usedTables)
      let unused := blocks.filter fun blk => !isUsed py usedTables blk
      if relevant = [] then truncateAtDdlBoundary schemaText maxChars
      else
        let filtered := "\n\n".toList.intercalate relevant
        if filtered.length ≤ maxChars then
          let omittedNames := (unused.filterMap (tableName py)).dedup
          if omittedNames ≠ [] then filtered ++ namesNote omittedNames else filtered
        else truncateAtDdlBoundary filtered maxChars

/-- The schema text in the prompt of `semantic_check_node`. -/
def schemaForCheck (schemaText sql : List Char) (maxChars : ℕ) : List Char :=
  filterSchemaText py schemaText (extractSqlTables py sql) maxChars

/-- What is left behind the alias that is read here, if one is. -/
def behindAlias (s : List Char) : List Char :=
  let t := s.dropWhile isSpace
  let u := (t.drop 2).dropWhile isSpace
  if s.head?.any isSpace then
    if stands "AS" t ∧ u.head?.any py.isWord then u.dropWhile py.isWord
    else if t.head?.any py.isWord then t.dropWhile py.isWord else s
  else s

/-- What stands behind the keyword and white space. -/
def afterKeyword (s : List Char) : List Char := (s.drop 4).dropWhile isSpace

/-- FROM or JOIN stands here, in any case, and behind it white space and a word. -/
def refers (s : List Char) : Bool :=
  (stands "FROM" s || stands "JOIN" s) && (afterKeyword s).head?.any py.isWord

/-- What is left behind the reference that stands here and its alias. -/
def behindReference (s : List Char) : List Char := behindAlias py ((afterKeyword s).dropWhile py.isWord)

/-- The word is spotted as the name of a table: FROM or JOIN stands before it, and is not itself part
of a reference that began earlier. -/
inductive Spotted (name : List Char) : List Char → Prop where
  | here {s} : refers py s = true → (afterKeyword s).takeWhile py.isWord = name → Spotted name s
  | behind {s} : refers py s = true → Spotted name (behindReference py s) → Spotted name s
  | later {c s} : refers py (c :: s) = false → Spotted name s → Spotted name (c :: s)

section Reading

variable {py} {c : Char} {s t : List Char}

theorem space_not_word (blank : isSpace c = true) : py.isWord c = false := by
  apply Bool.eq_false_iff.mpr
  intro word
  rw [py.word_solid c word] at blank
  contradiction

theorem head_word (s : List Char) : ((Pattern.group (.some_ py.isWord)).run s).head? =
    if s.head?.any py.isWord then
      some ⟨s.takeWhile py.isWord, [s.takeWhile py.isWord], s.dropWhile py.isWord⟩
    else none := by
  cases s with
  | nil => rfl
  | cons c s =>
    have always : Pattern.empty.run (s.dropWhile py.isWord) ≠ [] := List.cons_ne_nil _ _
    rw [← run_seq_empty, head_group_some always]
    by_cases word : py.isWord c = true <;> simp [word, Pattern.run]

theorem word_skips_space (c : Char) (s : List Char) (blank : isSpace c = true) :
    (Pattern.group (.some_ py.isWord)).run (c :: s) = [] := by
  rw [run_eq_nil_iff_head, head_word, if_neg]
  simp [space_not_word blank]

theorem head_gap_word (s : List Char) :
    (((Pattern.some_ isSpace).seq (.group (.some_ py.isWord))).run s).head?.map Match.rest =
      if s.head?.any isSpace ∧ (s.dropWhile isSpace).head?.any py.isWord then
        some ((s.dropWhile isSpace).dropWhile py.isWord)
      else none := by
  cases s with
  | nil => rfl
  | cons c s =>
    rw [head_some (fails_shorter word_skips_space), head_word]
    by_cases blank : isSpace c = true
    · by_cases word : (s.dropWhile isSpace).head?.any py.isWord = true <;> simp [blank, word]
    · simp [blank]

theorem head_alias_word (t : List Char) :
    (((((word "AS").seq (.some_ isSpace)).alt .empty).seq (.group (.some_ py.isWord))).run t).head?.map
        Match.rest =
      let u := (t.drop 2).dropWhile isSpace
      if stands "AS" t ∧ u.head?.any py.isWord then some (u.dropWhile py.isWord)
      else if t.head?.any py.isWord then some (t.dropWhile py.isWord) else none := by
  have plain : ((Pattern.group (.some_ py.isWord)).run t).head?.map Match.rest =
      if t.head?.any py.isWord then some (t.dropWhile py.isWord) else none := by
    rw [head_word]
    split <;> rfl
  have named : (((word "AS").seq ((Pattern.some_ isSpace).seq (.group (.some_ py.isWord)))).run t).head?.map
      Match.rest =
      if stands "AS" t ∧ ((t.drop 2).dropWhile isSpace).head?.any py.isWord then
        some (((t.drop 2).dropWhile isSpace).dropWhile py.isWord)
      else none := by
    rw [word, run_chars_seq]
    by_cases agree : agrees ignoringCase "AS".toList t = true
    · have follows : stands "AS" t = (t.drop 2).head?.any isSpace := by
        rw [stands, agree, Bool.true_and]
        rfl
      rw [if_pos agree, List.head?_map, Option.map_map, follows]
      exact head_gap_word (t.drop 2)
    · have not : stands "AS" t = false := by rw [stands, Bool.eq_false_iff.mpr agree, Bool.false_and]
      rw [if_neg agree, not]
      rfl
  rw [run_alt_seq, run_seq_assoc, run_empty_seq, List.head?_append, Option.map_or, named, plain]
  by_cases read : stands "AS" t = true ∧ ((t.drop 2).dropWhile isSpace).head?.any py.isWord = true
  · simp only [if_pos read, Option.some_or]
  · simp only [if_neg read, Option.none_or]

theorem head_aliased (s : List Char) :
    (((aliasPattern py).alt .empty).run s).head?.map Match.rest = some (behindAlias py s) := by
  have skips (c : Char) (s : List Char) (blank : isSpace c = true) :
      ((((word "AS").seq (.some_ isSpace)).alt .empty).seq (.group (.some_ py.isWord))).run (c :: s) = [] := by
    rw [run_alt_seq, run_seq_assoc, run_empty_seq, word_skips_space c s blank, word, run_chars_seq,
      ExtractSql.word_skips "AS" ⟨'A', rfl, by decide⟩ c s blank]
    rfl
  rw [Pattern.run, List.head?_append, Option.map_or, behindAlias]
  cases s with
  | nil => rfl
  | cons c s =>
    rw [aliasPattern, head_some (fails_shorter skips)]
    by_cases blank : isSpace c = true
    · have inner := @head_alias_word py (s.dropWhile isSpace)
      simp only [blank, if_true, Option.map_map, Function.comp_def, List.dropWhile_cons_of_pos, List.head?_cons,
        Option.any_some] at inner ⊢
      rw [inner]
      split
      · rfl
      · split <;> rfl
    · simp [blank, Pattern.run]

theorem aliased_ne_nil (s : List Char) : ((aliasPattern py).alt .empty).run s ≠ [] := by
  intro nothing
  have found := @head_aliased py s
  rw [nothing] at found
  cases found

theorem head_gap_table (s : List Char) :
    ((((Pattern.some_ isSpace).seq ((Pattern.group (.some_ py.isWord)).seq ((aliasPattern py).alt .empty))).run
        s).head?.map fun m => (m.groups.getD 0 [], m.rest)) =
      let t := s.dropWhile isSpace
      if s.head?.any isSpace ∧ t.head?.any py.isWord then
        some (t.takeWhile py.isWord, behindAlias py (t.dropWhile py.isWord))
      else none := by
  have skips (c : Char) (s : List Char) (blank : isSpace c = true) :
      ((Pattern.group (.some_ py.isWord)).seq ((aliasPattern py).alt .empty)).run (c :: s) = [] := by
    rw [run_eq_nil_iff_head, head_group_some (aliased_ne_nil _), space_not_word blank]
    rfl
  cases s with
  | nil => rfl
  | cons c s =>
    rw [head_some (fails_shorter skips)]
    by_cases blank : isSpace c = true
    · simp only [blank, if_true, List.dropWhile_cons_of_pos, List.head?_cons, Option.any_some]
      cases s.dropWhile isSpace with
      | nil => rfl
      | cons d t =>
        rw [head_group_some (aliased_ne_nil _)]
        by_cases first : py.isWord d = true
        · have alias_ := @head_aliased py (t.dropWhile py.isWord)
          obtain ⟨n, found, left⟩ := Option.map_eq_some_iff.mp alias_
          simp [first, found, left]
        · simp [first]
    · simp [blank]

theorem head_keyword (r : Pattern) (s : List Char) : ((((word "FROM").alt (word "JOIN")).seq r).run s).head? =
    if agrees ignoringCase "FROM".toList s ∨ agrees ignoringCase "JOIN".toList s then
      (r.run (s.drop 4)).head?.map fun n => ⟨s.take 4 ++ n.text, n.groups, n.rest⟩
    else none := by
  rw [run_alt_seq, word, word, run_chars_seq, run_chars_seq, List.head?_append]
  by_cases first : agrees ignoringCase "FROM".toList s = true
  · by_cases second : agrees ignoringCase "JOIN".toList s = true
    · rw [if_pos first, if_pos second, if_pos (.inl first), List.head?_map, List.head?_map]
      exact Option.or_self
    · rw [if_pos first, if_neg second, if_pos (.inl first), List.head?_nil, Option.or_none, List.head?_map]
      rfl
  · rw [if_neg first, List.head?_nil, Option.none_or]
    by_cases second : agrees ignoringCase "JOIN".toList s = true
    · rw [if_pos second, if_pos (.inr second), List.head?_map]
      rfl
    · rw [if_neg second, if_neg (not_or.mpr ⟨first, second⟩), List.head?_nil]

theorem refers_iff : refers py s = true ↔
    (agrees ignoringCase "FROM".toList s = true ∨ agrees ignoringCase "JOIN".toList s = true) ∧
      (s.drop 4).head?.any isSpace = true ∧ (afterKeyword s).head?.any py.isWord = true := by
  have from_ : stands "FROM" s = (agrees ignoringCase "FROM".toList s && (s.drop 4).head?.any isSpace) := rfl
  have join : stands "JOIN" s = (agrees ignoringCase "JOIN".toList s && (s.drop 4).head?.any isSpace) := rfl
  rw [refers, from_, join, ← Bool.and_or_distrib_right, Bool.and_eq_true, Bool.and_eq_true, Bool.or_eq_true,
    and_assoc]

theorem head_reference (s : List Char) :
    (((tableReference py).run s).head?.map fun m => (m.groups.getD 0 [], m.rest)) =
      if refers py s then some ((afterKeyword s).takeWhile py.isWord, behindReference py s) else none := by
  have gap := @head_gap_table py (s.drop 4)
  rw [tableReference, head_keyword]
  by_cases keyword : agrees ignoringCase "FROM".toList s = true ∨ agrees ignoringCase "JOIN".toList s = true
  · rw [if_pos keyword, Option.map_map]
    refine gap.trans ?_
    simp only [refers_iff, keyword, true_and]
    rfl
  · have not : ¬ refers py s = true := fun here => keyword (refers_iff.mp here).1
    rw [if_neg keyword, if_neg not]
    rfl

theorem reference_found (here : refers py s = true) : ∃ m, ((tableReference py).run s).head? = some m ∧
    m.groups.getD 0 [] = (afterKeyword s).takeWhile py.isWord ∧ m.rest = behindReference py s ∧
    m.text ≠ [] := by
  have found := @head_reference py s
  rw [if_pos here] at found
  obtain ⟨m, head, parts⟩ := Option.map_eq_some_iff.mp found
  obtain ⟨name, rest⟩ := Prod.mk.inj parts
  refine ⟨m, head, name, rest, ?_⟩
  have keyword := (refers_iff.mp here).1
  rw [tableReference, head_keyword, if_pos keyword] at head
  obtain ⟨n, -, rfl⟩ := Option.map_eq_some_iff.mp head
  cases s with
  | nil => rcases keyword with impossible | impossible <;> cases impossible
  | cons c s => exact List.cons_ne_nil _ _

theorem reference_none (not : refers py s = false) : ((tableReference py).run s).head? = none := by
  have found := @head_reference py s
  rw [if_neg (by simp [not])] at found
  exact Option.map_eq_none_iff.mp found

theorem behindReference_length (here : refers py s = true) : (behindReference py s).length < s.length := by
  obtain ⟨m, head, -, rest, nonempty⟩ := reference_found here
  have whole := congrArg List.length (run_text (List.mem_of_mem_head? head))
  have positive := List.length_pos_iff.mpr nonempty
  rw [List.length_append] at whole
  rw [← rest]
  omega

/-- The names that the expression finds are those spotted, by induction on what is left of the text. -/
theorem mem_finditer {name : List Char} (s : List Char) :
    name ∈ (finditer (tableReference py) s).map (fun m => m.groups.getD 0 []) ↔ Spotted py name s := by
  induction length : s.length using Nat.strong_induction_on generalizing s with
  | h n ih =>
    cases here : refers py s with
    | true =>
      obtain ⟨m, head, read, rest, nonempty⟩ := reference_found here
      have shorter := behindReference_length here
      have later := ih _ (length ▸ shorter) (behindReference py s) rfl
      rw [finditer_found head nonempty, List.map_cons, List.mem_cons, read, rest, later]
      constructor
      · rintro (rfl | behind)
        · exact .here here rfl
        · exact .behind here behind
      · intro spotted
        cases spotted with
        | here _ same => exact .inl same.symm
        | behind _ spotted => exact .inr spotted
        | later not _ =>
          rw [here] at not
          cases not
    | false =>
      cases s with
      | nil =>
        refine iff_of_false (fun member => ?_) fun spotted => ?_
        · cases member
        · cases spotted with
          | here here _ => cases here
          | behind here _ => cases here
      | cons c s =>
        have later := ih s.length (by rw [← length]; exact Nat.lt_succ_self _) s rfl
        rw [finditer_none (reference_none here), later]
        constructor
        · exact .later here
        · intro spotted
          cases spotted with
          | here read _ =>
            rw [read] at here
            cases here
          | behind read _ =>
            rw [read] at here
            cases here
          | later _ spotted => exact spotted

end Reading

end SchemaFilter
end Nl2SqlAgent

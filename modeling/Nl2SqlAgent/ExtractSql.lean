import Nl2SqlAgent.Lib.PyPhrases
import Nl2SqlAgent.Lib.Regex

/-! `extract_sql` of `agent/generator_llm.py`: which text of a reply it takes for the statement, and
for which replies it is the statement. -/
namespace Nl2SqlAgent

open Lib

namespace ExtractSql

open Regex
open Py (isSpace)

/-- What `re.IGNORECASE` makes of a character that is compared with an ASCII one: the lower case,
with the dotted and the dotless i, the long s and the Kelvin sign as the letters they fold to. -/
def folded (c : Char) : Char :=
  if c.val = 0x130 ∨ c.val = 0x131 then 'i' else if c.val = 0x17F then 's'
  else if c.val = 0x212A then 'k' else c.toLower

def ignoringCase (c d : Char) : Bool := folded d = c.toLower

/-- A text in any case. -/
def word (text : String) : Pattern := .chars ignoringCase text.toList

/-- `.*?`, where the dot is any character. -/
def lazily : Pattern := .many false fun _ => true

def ticks : List Char := "```".toList

/-- The pattern of the first layer: three backticks, `sql\s*(.*?)`, three backticks. -/
def blockPattern : Pattern :=
  (word "```sql").seq ((Pattern.many true isSpace).seq ((Pattern.group lazily).seq (word "```")))

/-- `;` after white space and anything, lazily. -/
def closing : Pattern := (Pattern.some_ isSpace).seq (lazily.seq (word ";"))

/-- `(?:WITH\s+.*?SELECT|SELECT)\s+.*?;`. -/
def statementPattern : Pattern :=
  (((word "WITH").seq ((Pattern.some_ isSpace).seq (lazily.seq (word "SELECT")))).alt
    (word "SELECT")).seq closing

def extractSql (response : String) : String :=
  match searchGroup blockPattern response with
  | some inner => Py.strip inner
  | none =>
    match search statementPattern response.toList with
    | some found => Py.strip (.ofList found.2.text)
    | none => Py.strip response

/-- The word stands here, directly before white space. -/
def stands (w : String) (s : List Char) : Bool :=
  agrees ignoringCase w.toList s && (s.drop w.toList.length).head?.any isSpace

/-- WITH or SELECT stands here. -/
def placed (s : List Char) : Bool := stands "WITH" s || stands "SELECT" s

def isFence (s : List Char) : Bool := agrees ignoringCase "```sql".toList s

def isTicks (s : List Char) : Bool := agrees ignoringCase ticks s

/-- What stands behind the first fence. -/
def fenced (s : List Char) : List Char := (fromFirst isFence s).drop 6

/-- The text to the first semicolon. -/
def through (s : List Char) : List Char := s.takeWhile (· ≠ ';') ++ [';']

def behind (s : List Char) : List Char := (s.dropWhile (· ≠ ';')).tail

section

variable {c d : Char} {s t w : List Char}

theorem folded_large (large : ¬ c.val < 128) :
    folded c = c ∨ (folded c ∈ ['i', 's', 'k'] ∧ isSpace c = false) := by
  have plain : c.toLower = c := by
    refine dif_neg ?_
    rintro ⟨-, upper⟩
    exact large (UInt32.lt_of_le_of_lt upper (by decide))
  unfold folded
  split
  next dotted => exact .inr ⟨by simp, by rcases dotted with equal | equal <;> simp [isSpace, equal]⟩
  next =>
    split
    next long => exact .inr ⟨by simp, by simp [isSpace, long]⟩
    next =>
      split
      next sign => exact .inr ⟨by simp, by simp [isSpace, sign]⟩
      next => exact .inl plain

theorem folded_space (blank : isSpace c = true) : folded c = c := by
  have ascii : ∀ n < 128, isSpace (Char.ofNat n) = true → folded (Char.ofNat n) = Char.ofNat n := by
    decide
  by_cases small : c.val < 128
  · exact Py.ascii_table (P := fun c => isSpace c = true → folded c = c) ascii small blank
  · rcases folded_large small with same | ⟨-, solid⟩
    · exact same
    · exact absurd blank (by simp [solid])

theorem folded_mark (mark : d ∈ [';', '`']) : folded c = d ↔ c = d := by
  have either : d = ';' ∨ d = '`' := by simpa using mark
  have ascii : ∀ n < 128, folded (Char.ofNat n) = d → Char.ofNat n = d := by
    rcases either with rfl | rfl <;> decide
  constructor
  · intro fold
    by_cases small : c.val < 128
    · exact Py.ascii_table (P := fun c => folded c = d → c = d) ascii small fold
    · rcases folded_large small with same | ⟨letter, -⟩
      · exact same.symm.trans fold
      · have apart : d ∉ ['i', 's', 'k'] := by rcases either with rfl | rfl <;> decide
        exact absurd (fold ▸ letter) apart
  · rintro rfl
    rcases either with rfl | rfl <;> decide

theorem agrees_iff {w s : List Char} :
    agrees ignoringCase w s = true ↔ w.map Char.toLower <+: s.map folded := by
  induction w generalizing s with
  | nil => simp [agrees]
  | cons d w ih =>
    cases s with
    | nil => simp [agrees]
    | cons c s =>
      rw [agrees, Bool.and_eq_true, ih, List.map_cons, List.map_cons, List.cons_prefix_cons, ignoringCase,
        decide_eq_true_eq, eq_comm]

theorem stands_iff (w : String) : stands w s = true ↔
    w.toList.map Char.toLower <+: s.map folded ∧ ∃ c, s[w.toList.length]? = some c ∧ isSpace c = true := by
  rw [stands, Bool.and_eq_true, agrees_iff, List.head?_drop, Option.any_eq_true]

theorem through_append (free : ';' ∉ w) (t : List Char) :
    through (w ++ t) = w ++ through t ∧ behind (w ++ t) = behind t := by
  have other : ∀ c ∈ w, decide (c ≠ ';') = true := fun c member =>
    decide_eq_true fun equal => free (equal ▸ member)
  simp only [through, behind, List.takeWhile_append_of_pos other, List.dropWhile_append_of_pos other,
    List.append_assoc, and_self]

theorem agrees_take (agree : agrees ignoringCase w s = true) :
    (s.take w.length).map folded = w.map Char.toLower := by
  have pre := List.prefix_iff_eq_take.mp (agrees_iff.mp agree)
  rw [List.length_map, ← List.map_take] at pre
  exact pre.symm

theorem word_skips (text : String) (solid : ∃ d ∈ text.toList.head?, isSpace d.toLower = false) (c : Char)
    (s : List Char) (blank : isSpace c = true) : agrees ignoringCase text.toList (c :: s) = false := by
  obtain ⟨d, head, solid⟩ := solid
  obtain ⟨rest, whole⟩ := List.head?_eq_some_iff.mp head
  rw [whole, agrees]
  have differ : ignoringCase d c = false := by
    apply decide_eq_false
    intro same
    rw [folded_space blank] at same
    rw [← same, blank] at solid
    contradiction
  rw [differ, Bool.false_and]

theorem semicolon_iff : agrees ignoringCase ";".toList (c :: s) = true ↔ c = ';' := by
  have fold : folded c = ';' ↔ c = ';' := folded_mark (by simp)
  simp [agrees, ignoringCase, fold]

theorem search_semicolon (s : List Char) : search (word ";") s =
    if ';' ∈ s then some (s.takeWhile (· ≠ ';'), ⟨[';'], [], behind s⟩) else none := by
  induction s with
  | nil => rfl
  | cons c s ih =>
    rw [search, word, run_chars]
    by_cases equal : c = ';'
    · rw [if_pos (semicolon_iff.mpr equal)]
      simp [equal, behind]
    · have other : ';' ≠ c := fun same => equal same.symm
      rw [if_neg (mt semicolon_iff.mp equal), ← word, List.head?_nil, ih]
      by_cases later : ';' ∈ s <;> simp [later, equal, other, behind]

theorem head_closing (s : List Char) : (closing.run s).head? =
    if s.head?.any isSpace = true ∧ ';' ∈ s then some ⟨through s, [], behind s⟩ else none := by
  cases s with
  | nil => rfl
  | cons c s =>
    have skips (c : Char) (s : List Char) (blank : isSpace c = true) : (word ";").run (c :: s) = [] := by
      rw [word, run_chars, word_skips ";" ⟨';', rfl, by decide⟩ c s blank, if_neg Bool.false_ne_true]
    rw [closing, lazily, head_some_lazy skips, search_semicolon]
    by_cases blank : isSpace c = true
    · have other : c ≠ ';' := by
        rintro rfl
        exact absurd blank (by decide)
      obtain ⟨text, rest⟩ := through_append (w := [c]) (by simpa using other.symm) s
      rw [List.singleton_append] at text rest
      have later : ';' ∈ c :: s ↔ ';' ∈ s := by simp [other.symm]
      have head : (c :: s).head?.any isSpace = true := blank
      simp only [blank, if_true, head, true_and, later, text, rest]
      split <;> rfl
    · simp [blank]

/-- The pattern from SELECT on. -/
def selectPattern : Pattern := (word "SELECT").seq closing

theorem select_free (agree : agrees ignoringCase "SELECT".toList s = true) : ';' ∉ s.take 6 := by
  intro member
  have inside := List.mem_map_of_mem (f := folded) member
  rw [show s.take 6 = s.take "SELECT".toList.length from rfl, agrees_take agree] at inside
  exact absurd inside (by decide)

theorem head_select (s : List Char) : (selectPattern.run s).head? =
    if stands "SELECT" s = true ∧ ';' ∈ s then some ⟨through s, [], behind s⟩ else none := by
  rw [selectPattern, word, run_chars_seq]
  by_cases agree : agrees ignoringCase "SELECT".toList s = true
  · have parts := List.take_append_drop 6 s
    obtain ⟨text, rest⟩ := through_append (select_free agree) (s.drop 6)
    rw [parts] at text rest
    have later : ';' ∈ s ↔ ';' ∈ s.drop 6 := by
      conv_lhs => rw [← parts, List.mem_append]
      exact or_iff_right (select_free agree)
    have follows : (s.drop 6).head?.any isSpace = stands "SELECT" s := by
      rw [stands, agree, Bool.true_and]
      rfl
    have run := head_closing (s.drop 6)
    rw [follows] at run
    rw [if_pos agree, List.head?_map, show s.drop "SELECT".toList.length = s.drop 6 from rfl, run]
    simp only [later, text, rest]
    split <;> rfl
  · have not : ¬ (stands "SELECT" s = true ∧ ';' ∈ s) := fun both =>
      agree (Bool.and_eq_true_iff.mp both.1).1
    rw [if_neg agree, if_neg not]
    rfl

theorem search_select (s : List Char) : search selectPattern s =
    let v := fromFirst (stands "SELECT") s
    if ';' ∈ v then some (beforeFirst (stands "SELECT") s, ⟨through v, [], behind v⟩) else none := by
  induction s with
  | nil => rfl
  | cons c s ih =>
    rw [search, head_select, fromFirst, beforeFirst]
    by_cases here : stands "SELECT" (c :: s) = true
    · by_cases found : ';' ∈ c :: s
      · simp [here, found]
      · have nothing : ';' ∉ fromFirst (stands "SELECT") s := fun member =>
          found (List.mem_cons_of_mem c ((fromFirst_suffix _ s).subset member))
        simp only [here, found, and_false, if_false, if_true, ih, nothing, Option.map_none]
    · simp only [here, Bool.false_eq_true, false_and, if_false, ih]
      split <;> rfl

theorem select_head (here : stands "SELECT" (c :: s) = true) : folded c = 's' := by
  have agree := (Bool.and_eq_true_iff.mp here).1
  exact of_decide_eq_true (Bool.and_eq_true_iff.mp agree).1

/-- WITH and white space are passed on the way to the first SELECT. -/
theorem with_append (agree : agrees ignoringCase "WITH".toList s = true) (blank : isSpace c = true)
    (whole : s = s.take 4 ++ (c :: t)) :
    fromFirst (stands "SELECT") s = fromFirst (stands "SELECT") t ∧
      beforeFirst (stands "SELECT") s = s.take 4 ++ c :: beforeFirst (stands "SELECT") t := by
  have letters : ∀ d ∈ s.take 4 ++ [c], folded d ≠ 's' := by
    intro d member
    rcases List.mem_append.mp member with letter | space
    · have inside := List.mem_map_of_mem (f := folded) letter
      rw [show s.take 4 = s.take "WITH".toList.length from rfl, agrees_take agree] at inside
      intro same
      rw [same] at inside
      exact absurd inside (by decide)
    · obtain rfl := List.mem_singleton.mp space
      rw [folded_space blank]
      rintro rfl
      exact absurd blank (by decide)
  have free : ∀ v, v ≠ [] → v <:+ s.take 4 ++ [c] → stands "SELECT" (v ++ t) = false := by
    intro v nonempty inside
    cases v with
    | nil => exact absurd rfl nonempty
    | cons d v =>
      exact Bool.eq_false_iff.mpr fun here => letters d (inside.subset List.mem_cons_self) (select_head here)
  have passed := fromFirst_append free
  rwa [List.append_assoc, List.append_assoc, List.singleton_append, List.singleton_append, ← whole] at passed

theorem head_with (s : List Char) :
    (((word "WITH").seq ((Pattern.some_ isSpace).seq (lazily.seq selectPattern))).run s).head? =
      let v := fromFirst (stands "SELECT") s
      if stands "WITH" s = true ∧ ';' ∈ v then
        some ⟨beforeFirst (stands "SELECT") s ++ through v, [], behind v⟩
      else none := by
  rw [word, run_chars_seq]
  by_cases agree : agrees ignoringCase "WITH".toList s = true
  · have parts := List.take_append_drop 4 s
    rw [if_pos agree, List.head?_map, show s.drop "WITH".toList.length = s.drop 4 from rfl]
    cases after : s.drop 4 with
    | nil =>
      have not : stands "WITH" s = false := by
        rw [stands, agree, Bool.true_and, show s.drop "WITH".toList.length = s.drop 4 from rfl, after]
        rfl
      simp only [not, Bool.false_eq_true, false_and, if_false]
      rfl
    | cons c t =>
      have skips (c : Char) (s : List Char) (blank : isSpace c = true) : selectPattern.run (c :: s) = [] := by
        rw [selectPattern, word, run_chars_seq, word_skips "SELECT" ⟨'S', rfl, by decide⟩ c s blank,
          if_neg Bool.false_ne_true]
      have stand : stands "WITH" s = isSpace c := by
        rw [stands, agree, Bool.true_and, show s.drop "WITH".toList.length = s.drop 4 from rfl, after]
        rfl
      rw [lazily, head_some_lazy skips, search_select, stand]
      by_cases blank : isSpace c = true
      · rw [after] at parts
        obtain ⟨later, before⟩ := with_append agree blank parts.symm
        simp only [blank, if_true, true_and, later, before]
        split
        · simp
        · rfl
      · simp [blank]
  · have not : stands "WITH" s = false := by
      rw [stands, Bool.eq_false_iff.mpr agree, Bool.false_and]
    rw [if_neg agree]
    simp [not]

/-- The match at a place: to the first semicolon behind the first SELECT. -/
theorem head_statement (s : List Char) : (statementPattern.run s).head? =
    let v := fromFirst (stands "SELECT") s
    if placed s = true ∧ ';' ∈ v then some ⟨beforeFirst (stands "SELECT") s ++ through v, [], behind v⟩
    else none := by
  have parts : statementPattern.run s =
      ((word "WITH").seq ((Pattern.some_ isSpace).seq (lazily.seq selectPattern))).run s ++
        selectPattern.run s := by
    rw [statementPattern, run_alt_seq, run_seq_assoc]
    refine congrArg (· ++ _) (run_seq_congr _ (fun t => ?_) s)
    rw [run_seq_assoc]
    exact run_seq_congr _ (fun t => run_seq_assoc ..) t
  rw [parts, List.head?_append, head_with, head_select]
  by_cases begins : stands "WITH" s = true
  · have other : stands "SELECT" s = false := by
      apply Bool.eq_false_iff.mpr
      intro here
      cases s with
      | nil => cases begins
      | cons c s =>
        have agree := (Bool.and_eq_true_iff.mp begins).1
        have first : folded c = 'w' := of_decide_eq_true (Bool.and_eq_true_iff.mp agree).1
        exact absurd ((select_head here).symm.trans first) (by decide)
    by_cases found : ';' ∈ fromFirst (stands "SELECT") s <;> simp [placed, begins, other, found]
  · by_cases here : stands "SELECT" s = true
    · have nonempty : s ≠ [] := by
        rintro rfl
        cases here
      simp only [placed, begins, here, fromFirst_here nonempty here, beforeFirst_here here]
      by_cases found : ';' ∈ s <;> simp [found]
    · simp [placed, begins, here]

/-- From the first place on, if a SELECT and a semicolon follow. -/
theorem search_statement (s : List Char) : (search statementPattern s).map (fun found => found.2.text) =
    let v := fromFirst (stands "SELECT") s
    if ';' ∈ v then some (beforeFirst (stands "SELECT") (fromFirst placed s) ++ through v) else none := by
  induction s with
  | nil => rfl
  | cons c s ih =>
    rw [search, head_statement]
    by_cases here : placed (c :: s) = true
    · rw [fromFirst_here (List.cons_ne_nil c s) here]
      by_cases found : ';' ∈ fromFirst (stands "SELECT") (c :: s)
      · simp [here, found]
      · have nothing : ';' ∉ fromFirst (stands "SELECT") s := fun member =>
          found ((fromFirst_mono (List.suffix_cons c s)).subset member)
        simp only [here, found, nothing, and_false, if_false] at ih ⊢
        simpa using ih
    · have no : ¬ stands "SELECT" (c :: s) = true := fun stand => here (by simp [placed, stand])
      simp only [here, Bool.false_eq_true, false_and, if_false, fromFirst, no, Option.map_map]
      exact ih

theorem isTicks_iff : isTicks s = true ↔ ticks <+: s := by
  have tick {c : Char} : ignoringCase '`' c = true ↔ '`' = c := by
    have fold : folded c = '`' ↔ c = '`' := folded_mark (by simp)
    rw [ignoringCase, decide_eq_true_eq, show ('`' : Char).toLower = '`' by decide, fold, eq_comm]
  have all : ∀ w : List Char, (∀ d ∈ w, d = '`') → ∀ s, agrees ignoringCase w s = true ↔ w <+: s := by
    intro w same
    induction w with
    | nil => simp [agrees]
    | cons d w ih =>
      obtain ⟨rfl, rest⟩ := List.forall_mem_cons.mp same
      intro s
      cases s with
      | nil => simp [agrees]
      | cons c s => rw [agrees, Bool.and_eq_true, tick, ih rest, List.cons_prefix_cons]
  exact all ticks (by simp [ticks]) s

theorem ticks_skips (c : Char) (s : List Char) (blank : isSpace c = true) :
    (word "```").run (c :: s) = [] := by
  rw [word, run_chars, word_skips "```" ⟨'`', rfl, by decide⟩ c s blank, if_neg Bool.false_ne_true]

theorem search_ticks (s : List Char) :
    (search (word "```") s).map (fun found => (found.1, found.2.groups)) =
      if fromFirst isTicks s = [] then none else some (beforeFirst isTicks s, []) := by
  induction s with
  | nil => rfl
  | cons c s ih =>
    rw [search, word, run_chars, fromFirst, beforeFirst]
    by_cases here : isTicks (c :: s) = true
    · rw [if_pos here, if_pos here, if_pos (show agrees ignoringCase "```".toList (c :: s) = true from here)]
      rfl
    · rw [if_neg here, if_neg here, if_neg (show ¬ agrees ignoringCase "```".toList (c :: s) = true from here)]
      rw [← word, List.head?_nil, Option.map_map]
      have later := congrArg (Option.map fun found : List Char × List (List Char) => (c :: found.1, found.2)) ih
      rw [Option.map_map] at later
      apply later.trans
      split <;> rfl

theorem ticks_blank {w : List Char} (blank : ∀ c ∈ w, isSpace c = true) (s : List Char) :
    fromFirst isTicks (w ++ s) = fromFirst isTicks s ∧
      beforeFirst isTicks (w ++ s) = w ++ beforeFirst isTicks s := by
  apply fromFirst_append
  intro v nonempty inside
  cases v with
  | nil => exact absurd rfl nonempty
  | cons c v =>
    exact word_skips "```" ⟨'`', rfl, by decide⟩ c _ (blank c (inside.subset List.mem_cons_self))

theorem head_block (s : List Char) : (blockPattern.run s).head?.map Match.groups =
    if isFence s = true ∧ fromFirst isTicks (s.drop 6) ≠ [] then
      some [beforeFirst isTicks ((s.drop 6).dropWhile isSpace)]
    else none := by
  rw [blockPattern, word, run_chars_seq]
  by_cases fence : isFence s = true
  · rw [if_pos (show agrees ignoringCase "```sql".toList s = true from fence), List.head?_map,
      show s.drop "```sql".toList.length = s.drop 6 from rfl]
    generalize s.drop 6 = t
    have fails : ((Pattern.group lazily).seq (word "```")).run (t.dropWhile isSpace) = [] →
        ∀ lead ∈ leads isSpace t, ((Pattern.group lazily).seq (word "```")).run lead.2 = [] := by
      intro nothing lead member
      rw [run_eq_nil_iff_head, lazily, head_lazy_group, Option.map_eq_none_iff] at nothing ⊢
      exact search_leads ticks_skips nothing lead member
    have all : ∀ c ∈ t.takeWhile isSpace, isSpace c = true := fun c inside => List.mem_takeWhile_imp inside
    have passed := (ticks_blank all (t.dropWhile isSpace)).1
    rw [List.takeWhile_append_dropWhile] at passed
    have found := search_ticks (t.dropWhile isSpace)
    rw [head_greedy fails, lazily, head_lazy_group, passed]
    cases ended : search (word "```") (t.dropWhile isSpace) with
    | none =>
      rw [ended] at found
      split at found
      next nothing => simp [nothing]
      next => cases found
    | some m =>
      rw [ended] at found
      split at found
      next => cases found
      next something =>
        obtain ⟨before, groups⟩ := Prod.mk.inj (Option.some.inj found)
        simp [fence, something, before, groups]
  · rw [if_neg (show ¬ agrees ignoringCase "```sql".toList s = true from fence),
      if_neg (fun both => fence both.1)]
    rfl

theorem drop_suffix (n : ℕ) (suffix : t <:+ s) : t.drop n <:+ s.drop n := by
  obtain ⟨w, rfl⟩ := suffix
  have same : t.drop n = ((w ++ t).drop n).drop w.length := by
    rw [List.drop_drop, Nat.add_comm, ← List.drop_drop, List.drop_left]
  rw [same]
  exact List.drop_suffix _ _

/-- The block behind the first fence, up to three backticks. -/
theorem search_block (s : List Char) : (search blockPattern s).map (fun found => found.2.groups) =
    if fromFirst isTicks (fenced s) ≠ [] then
      some [beforeFirst isTicks ((fenced s).dropWhile isSpace)]
    else none := by
  unfold fenced
  induction s with
  | nil => rfl
  | cons c s ih =>
    have head := head_block (c :: s)
    rw [search, fromFirst]
    by_cases fence : isFence (c :: s) = true
    · rw [if_pos fence]
      by_cases ended : fromFirst isTicks ((c :: s).drop 6) ≠ []
      · rw [if_pos ⟨fence, ended⟩] at head
        obtain ⟨m, run, groups⟩ := Option.map_eq_some_iff.mp head
        simp only [run, Option.map_some, groups, if_pos ended]
      · rw [if_neg (fun both => ended both.2)] at head
        have nothing : ¬ fromFirst isTicks ((fromFirst isFence s).drop 6) ≠ [] := by
          rw [not_not] at ended ⊢
          have later : (fromFirst isFence s).drop 6 <:+ (c :: s).drop 6 :=
            drop_suffix 6 ((fromFirst_suffix _ s).trans (List.suffix_cons c s))
          have none := fromFirst_mono (p := isTicks) later
          rw [ended] at none
          exact List.suffix_nil.mp none
        rw [Option.map_eq_none_iff.mp head, if_neg ended]
        simp only [if_neg nothing, Option.map_map] at ih ⊢
        exact ih
    · rw [if_neg (fun both => fence both.1)] at head
      rw [Option.map_eq_none_iff.mp head, if_neg fence]
      simp only [Option.map_map]
      exact ih

/-- What the three layers take, in the terms of the text. -/
theorem extractSql_eq (response : String) : (extractSql response).toList =
    if fromFirst isTicks (fenced response.toList) ≠ [] then
      Py.trim (beforeFirst isTicks (fenced response.toList))
    else if ';' ∈ fromFirst (stands "SELECT") response.toList then
      Py.trim (beforeFirst (stands "SELECT") (fromFirst placed response.toList) ++
        through (fromFirst (stands "SELECT") response.toList))
    else Py.trim response.toList := by
  have block := search_block response.toList
  have statement := search_statement response.toList
  have stripped (t : List Char) : (Py.strip (.ofList t)).toList = Py.trim t := by
    rw [Py.strip_ofList, String.toList_ofList]
  rw [extractSql, searchGroup]
  generalize fenced response.toList = r at block ⊢
  by_cases ended : fromFirst isTicks r ≠ []
  · rw [if_pos ended] at block ⊢
    obtain ⟨found, first, groups⟩ := Option.map_eq_some_iff.mp block
    have all : ∀ c ∈ r.takeWhile isSpace, isSpace c = true := fun c inside => List.mem_takeWhile_imp inside
    have passed := (ticks_blank all (r.dropWhile isSpace)).2
    rw [List.takeWhile_append_dropWhile] at passed
    simp only [first, groups, Option.bind_some, List.head?_cons, Option.map_some, stripped]
    rw [passed, Py.trim_blank_left all]
  · rw [if_neg ended] at block ⊢
    rw [Option.map_eq_none_iff.mp block]
    by_cases closed : ';' ∈ fromFirst (stands "SELECT") response.toList
    · simp only [closed, if_true] at statement ⊢
      obtain ⟨found, first, text⟩ := Option.map_eq_some_iff.mp statement
      simp only [first, text, Option.bind_none, stripped]
    · simp only [closed, if_false] at statement ⊢
      rw [Option.map_eq_none_iff.mp statement]
      rw [← stripped, String.ofList_toList]
      rfl

theorem isFence_iff : isFence s = true ↔ "```sql".toList <+: s.map folded := by
  rw [isFence, agrees_iff, show "```sql".toList.map Char.toLower = "```sql".toList by decide]

/-- Before a text that does not go on where a part of the fence stops there is no fence, if there is
none in front. -/
theorem fence_apart {x v t : List Char} (apart : ∀ k < 6, 0 < k →
      ("```sql".toList.drop k).take x.length ≠ x.take (6 - k))
    (begins : x <+: t.map folded) (nonempty : v ≠ []) (unfenced : isFence v = false) :
    isFence (v ++ t) = false := by
  apply Bool.eq_false_iff.mpr
  intro fence
  rw [isFence_iff, List.map_append] at fence
  by_cases long : 6 ≤ v.length
  · have inside : "```sql".toList <+: v.map folded :=
      List.prefix_of_prefix_length_le fence (List.prefix_append _ _) (by simpa using long)
    exact absurd (isFence_iff.mpr inside) (by simp [unfenced])
  · obtain ⟨u, whole⟩ := begins
    have positive : 0 < v.length := List.length_pos_iff.mpr nonempty
    have cut := congrArg (List.drop v.length) (List.prefix_iff_eq_take.mp fence)
    rw [show "```sql".toList.length = 6 from rfl, List.drop_take, List.drop_left' (List.length_map _),
      ← whole] at cut
    apply apart v.length (by omega) positive
    rw [cut, List.take_take, List.take_append, Nat.sub_eq_zero_of_le (Nat.min_le_left _ _), List.take_zero,
      List.append_nil]
    exact List.take_eq_take_iff.mpr (by omega)

theorem fenced_block {pre fence rest : List Char} (prose : fromFirst isFence pre = [])
    (begins : isFence fence = true) (length : fence.length = 6) :
    fenced (pre ++ (fence ++ rest)) = rest := by
  have here : isFence (fence ++ rest) = true := by
    rw [isFence_iff, List.map_append]
    exact (isFence_iff.mp begins).trans (List.prefix_append _ _)
  have free : ∀ v, v ≠ [] → v <:+ pre → isFence (v ++ (fence ++ rest)) = false := fun v nonempty inside =>
    fence_apart (x := "```sql".toList) (by decide) (isFence_iff.mp here) nonempty
      (fromFirst_eq_nil_iff.mp prose v nonempty inside)
  have nonempty : fence ++ rest ≠ [] := by
    intro empty
    rw [empty] at here
    cases here
  rw [fenced, (fromFirst_append free).1, fromFirst_here nonempty here, List.drop_left' length]

/-- The text up to three backticks has no three backticks. -/
theorem before_free (s : List Char) : ¬ ticks <:+: beforeFirst isTicks s := by
  rintro ⟨x, y, whole⟩
  have parts := before_append_from isTicks s
  -- where the first place would be there is an earlier one
  have here : isTicks (ticks ++ (y ++ fromFirst isTicks s)) = true := isTicks_iff.mpr (List.prefix_append _ _)
  have inside : ticks ++ (y ++ fromFirst isTicks s) <:+ s := by
    refine ⟨x, ?_⟩
    rw [← List.append_assoc ticks, ← List.append_assoc x, ← List.append_assoc x, whole, parts]
  have earlier := fromFirst_mono (p := isTicks) inside
  rw [fromFirst_here (by simp [ticks]) here] at earlier
  have lengths := earlier.length_le
  simp only [List.length_append, ticks] at lengths
  simp at lengths
  omega

theorem ticks_begin {body post : List Char} (free : ticks <:+: body ++ ['`', '`']) :
    ∃ u v, body = u ++ v ∧ v ≠ [] ∧ isTicks (v ++ (ticks ++ post)) = true := by
  obtain ⟨x, y, whole⟩ := free
  have short : x.length < body.length := by
    have lengths := congrArg List.length whole
    simp [ticks] at lengths
    omega
  refine ⟨body.take x.length, body.drop x.length, (List.take_append_drop ..).symm, by simpa using short, ?_⟩
  have cut := congrArg (List.drop x.length) whole
  rw [List.append_assoc, List.drop_left, List.drop_append_of_le_length short.le] at cut
  refine isTicks_iff.mpr ⟨y ++ ('`' :: post), ?_⟩
  rw [← List.append_assoc, cut, List.append_assoc]
  rfl

/-- Backticks that begin inside the body cut something solid off. -/
theorem block_cut {u v post : List Char} (nonempty : v ≠ [])
    (inside : isTicks (v ++ (ticks ++ post)) = true) :
    Py.trim (beforeFirst isTicks (u ++ v ++ (ticks ++ post))) ≠ Py.trim (u ++ v) := by
  intro same
  have suffix : v ++ (ticks ++ post) <:+ u ++ v ++ (ticks ++ post) :=
    List.suffix_append_self_iff.mpr (List.suffix_append _ _)
  have first := fromFirst_mono (p := isTicks) suffix
  rw [fromFirst_here (by simp [ticks]) inside] at first
  have parts := before_append_from isTicks (u ++ v ++ (ticks ++ post))
  have there : fromFirst isTicks (u ++ v ++ (ticks ++ post)) ≠ [] := by
    intro empty
    rw [empty] at first
    exact absurd (List.suffix_nil.mp first) (by simp [ticks])
  have begins := isTicks_iff.mp (fromFirst_passes there)
  have lengths := first.length_le
  have positive := List.length_pos_iff.mpr nonempty
  generalize beforeFirst isTicks (u ++ v ++ (ticks ++ post)) = before at parts same
  generalize fromFirst isTicks (u ++ v ++ (ticks ++ post)) = found at parts begins lengths
  rcases List.append_eq_append_iff.mp parts with ⟨c, body, rfl⟩ | ⟨c, -, after⟩
  · cases c with
    | nil =>
      simp only [List.nil_append, List.length_append] at lengths
      omega
    | cons d c =>
      -- a backtick of the body is cut off
      obtain ⟨rfl, -⟩ : '`' = d ∧ _ := List.cons_prefix_cons.mp begins
      rw [body] at same
      have solid := congrArg (fun t => (t.filter (!isSpace ·)).length) same
      simp only [Py.filter_trim, List.filter_append, List.length_append] at solid
      rw [List.filter_cons_of_pos (by decide)] at solid
      simp at solid
  · have total := congrArg List.length after
    simp only [List.length_append] at total lengths
    omega

/-- Without backticks before the end of the body all of it is taken. -/
theorem block_whole {body post : List Char} (free : ¬ ticks <:+: body ++ ['`', '`']) :
    beforeFirst isTicks (body ++ (ticks ++ post)) = body := by
  have ended : isTicks (ticks ++ post) = true := isTicks_iff.mpr (List.prefix_append _ _)
  have clear : ∀ v, v ≠ [] → v <:+ body → isTicks (v ++ (ticks ++ post)) = false := by
    intro v nonempty suffix
    refine Bool.eq_false_iff.mpr fun here => free ?_
    obtain ⟨w, rfl⟩ := suffix
    have short : ticks <+: v ++ ['`', '`'] := by
      apply List.prefix_of_prefix_length_le (isTicks_iff.mp here)
      · exact List.prefix_append_right_inj v |>.mpr ⟨'`' :: post, rfl⟩
      · have positive := List.length_pos_iff.mpr nonempty
        simp only [ticks, List.length_append]
        simp
        omega
    rw [List.append_assoc]
    exact short.isInfix.trans List.infix_append_right
  rw [(fromFirst_append clear).2, beforeFirst_here ended, List.append_nil]

theorem block_iff {body post : List Char} :
    Py.trim (beforeFirst isTicks (body ++ (ticks ++ post))) = Py.trim body ↔
      ¬ ticks <:+: body ++ ['`', '`'] := by
  constructor
  · intro same free
    obtain ⟨u, v, rfl, nonempty, inside⟩ := @ticks_begin _ post free
    exact block_cut nonempty inside same
  · intro free
    rw [block_whole free]

theorem ticks_iff : fromFirst isTicks s = [] ↔ ¬ ticks <:+: s := by
  rw [fromFirst_eq_nil_iff]
  constructor
  · rintro free ⟨x, y, whole⟩
    have inside : ticks ++ y <:+ s := ⟨x, by rw [← List.append_assoc, whole]⟩
    have here : isTicks (ticks ++ y) = true := isTicks_iff.mpr (List.prefix_append _ _)
    exact absurd here (by simp [free _ (by simp [ticks]) inside])
  · intro free v _ inside
    refine Bool.eq_false_iff.mpr fun here => free ?_
    exact (isTicks_iff.mp here).isInfix.trans inside.isInfix

theorem stands_long {text : String} (here : stands text s = true) : text.toList.length < s.length := by
  obtain ⟨-, c, there, -⟩ := (stands_iff text).mp here
  exact (List.getElem?_eq_some_iff.mp there).1

/-- Whether a word stands somewhere depends on what is as long as the word and one more. -/
theorem stands_leading (text : String) (pre : s <+: t) (long : text.toList.length < s.length) :
    stands text s = stands text t := by
  have same : s[text.toList.length]? = t[text.toList.length]? := by
    obtain ⟨u, rfl⟩ := pre
    rw [List.getElem?_append_left long]
  rw [Bool.eq_iff_iff, stands_iff, stands_iff, same]
  refine and_congr_left fun _ => ⟨fun begins => begins.trans (pre.map folded), fun begins => ?_⟩
  exact List.prefix_of_prefix_length_le begins (pre.map folded) (by simpa using long.le)

theorem placed_leading (pre : s <+: t) (long : 6 < s.length) : placed s = placed t := by
  have short : "WITH".toList.length < s.length := lt_of_le_of_lt (by decide : 4 ≤ 6) long
  rw [placed, placed, stands_leading "SELECT" pre long, stands_leading "WITH" pre short]

theorem through_prefix (found : ';' ∈ s) : through s ++ behind s = s := by
  obtain ⟨first, rest, rfl, free⟩ := List.eq_append_cons_of_mem found
  obtain ⟨text, after⟩ := through_append free (';' :: rest)
  rw [text, after]
  simp [through, behind]

theorem through_long (here : stands "SELECT" s = true) : 6 < (through s).length := by
  have agree := (Bool.and_eq_true_iff.mp here).1
  have long : 6 < s.length := stands_long here
  have parts := (through_append (select_free agree) (s.drop 6)).1
  rw [List.take_append_drop] at parts
  rw [parts, List.length_append, List.length_take, through, List.length_append]
  simp
  omega

end

/-- WITH or SELECT stands at the start, and behind the first SELECT no semicolon but the last. -/
structure Closed (stmt : List Char) : Prop where
  begins : placed stmt = true
  selects : fromFirst (stands "SELECT") stmt ≠ []
  single : ';' ∉ (fromFirst (stands "SELECT") stmt).dropLast

section

variable {s stmt : List Char}

/-- In what goes on behind a closed statement the first SELECT is that of the statement. -/
theorem Closed.select (closed : Closed stmt) (y : List Char) :
    fromFirst (stands "SELECT") (stmt ++ y) = fromFirst (stands "SELECT") stmt ++ y ∧
      beforeFirst (stands "SELECT") (stmt ++ y) = beforeFirst (stands "SELECT") stmt := by
  have here := fromFirst_passes closed.selects
  have long : 6 < (fromFirst (stands "SELECT") stmt).length := stands_long here
  have parts := before_append_from (stands "SELECT") stmt
  have free : ∀ u, u ≠ [] → u <:+ beforeFirst (stands "SELECT") stmt →
      stands "SELECT" (u ++ (fromFirst (stands "SELECT") stmt ++ y)) = false := by
    intro u nonempty inside
    rw [← List.append_assoc, ← stands_leading "SELECT" (List.prefix_append _ y)
      (lt_of_lt_of_le long (by simp))]
    exact beforeFirst_free nonempty inside
  have there : stands "SELECT" (fromFirst (stands "SELECT") stmt ++ y) = true := by
    rw [← stands_leading "SELECT" (List.prefix_append _ y) long]
    exact here
  obtain ⟨first, before⟩ := fromFirst_append free
  rw [← List.append_assoc, parts] at first before
  exact ⟨first.trans (fromFirst_here (by simp [closed.selects]) there),
    before.trans (by rw [beforeFirst_here there, List.append_nil])⟩

/-- A closed statement has its one semicolon behind the first SELECT at the end. -/
theorem Closed.through (closed : Closed stmt) (ends : ∃ x, stmt = x ++ [';']) (y : List Char) :
    ExtractSql.through (fromFirst (stands "SELECT") stmt ++ y) = fromFirst (stands "SELECT") stmt := by
  obtain ⟨w, whole⟩ := fromFirst_suffix (stands "SELECT") stmt
  obtain ⟨x, ending⟩ := ends
  have last : (fromFirst (stands "SELECT") stmt).getLast closed.selects = ';' := by
    have same : (w ++ fromFirst (stands "SELECT") stmt).getLast (by simp [closed.selects]) =
        (x ++ [';']).getLast (by simp) := by
      congr 1
      exact whole.trans ending
    rwa [List.getLast_append_of_ne_nil _ closed.selects, List.getLast_concat] at same
  have split := List.dropLast_append_getLast closed.selects
  rw [last] at split
  have text := (through_append closed.single (';' :: y)).1
  conv_lhs => rw [← split, List.append_assoc, List.singleton_append, text]
  conv_rhs => rw [← split]
  simp [ExtractSql.through]

/-- What is taken from a place on is the statement exactly if it is closed and stands there. -/
theorem taken_iff (place : placed s = true) (found : ';' ∈ fromFirst (stands "SELECT") s)
    (ends : ∃ x, stmt = x ++ [';']) :
    beforeFirst (stands "SELECT") s ++ through (fromFirst (stands "SELECT") s) = stmt ↔
      Closed stmt ∧ stmt <+: s := by
  constructor
  · rintro rfl
    have parts := before_append_from (stands "SELECT") s
    have cut := through_prefix found
    have there : fromFirst (stands "SELECT") s ≠ [] := List.ne_nil_of_mem found
    have long := through_long (fromFirst_passes there)
    have inside : through (fromFirst (stands "SELECT") s) <+: fromFirst (stands "SELECT") s := ⟨_, cut⟩
    have pre : beforeFirst (stands "SELECT") s ++ through (fromFirst (stands "SELECT") s) <+: s := by
      conv_rhs => rw [← parts]
      exact (List.prefix_append_right_inj _).mpr inside
    have here : stands "SELECT" (through (fromFirst (stands "SELECT") s)) = true := by
      rw [stands_leading "SELECT" inside long]
      exact fromFirst_passes there
    have free : ∀ u, u ≠ [] → u <:+ beforeFirst (stands "SELECT") s →
        stands "SELECT" (u ++ through (fromFirst (stands "SELECT") s)) = false := by
      intro u nonempty within
      have longer : 6 < (u ++ through (fromFirst (stands "SELECT") s)).length :=
        lt_of_lt_of_le long (by simp)
      rw [stands_leading "SELECT" ((List.prefix_append_right_inj u).mpr inside) longer]
      exact beforeFirst_free nonempty within
    have first := (fromFirst_append free).1
    rw [fromFirst_here (by simp [through]) here] at first
    refine ⟨⟨?_, ?_, ?_⟩, pre⟩
    · rw [placed_leading pre (lt_of_lt_of_le long (by simp))]
      exact place
    · rw [first]
      simp [through]
    · rw [first, through, List.dropLast_concat]
      intro member
      exact absurd (List.mem_takeWhile_imp member) (by simp)
  · rintro ⟨closed, y, rfl⟩
    obtain ⟨first, before⟩ := closed.select y
    rw [first, before, closed.through ends]
    exact before_append_from _ _

theorem Closed.found (closed : Closed stmt) (ends : ∃ x, stmt = x ++ [';']) (y : List Char) :
    ';' ∈ fromFirst (stands "SELECT") (stmt ++ y) := by
  have text := closed.through ends []
  rw [(closed.select y).1, ← text]
  exact List.mem_append_left _ (List.mem_append_right _ List.mem_cons_self)

/-- A text that begins with one of the words does not begin with white space. -/
theorem begins_head (begins : agrees ignoringCase "SELECT".toList s = true ∨
    agrees ignoringCase "WITH".toList s = true) : ∃ nonempty : s ≠ [], isSpace (s.head nonempty) = false := by
  cases s with
  | nil => rcases begins with none | none <;> cases none
  | cons c s =>
    refine ⟨List.cons_ne_nil c s, Bool.eq_false_iff.mpr fun blank => ?_⟩
    rcases begins with select | with_
    · exact Bool.false_ne_true ((word_skips "SELECT" ⟨'S', rfl, by decide⟩ c s blank).symm.trans select)
    · exact Bool.false_ne_true ((word_skips "WITH" ⟨'W', rfl, by decide⟩ c s blank).symm.trans with_)

theorem placed_head (place : placed s = true) : ∃ nonempty : s ≠ [], isSpace (s.head nonempty) = false := by
  apply begins_head
  rcases Bool.or_eq_true_iff.mp place with begins | begins
  · exact .inr (Bool.and_eq_true_iff.mp begins).1
  · exact .inl (Bool.and_eq_true_iff.mp begins).1

/-- Of a text that goes on behind a part, what ends it is longer than the rest or no longer. -/
theorem suffix_cases {x y v : List Char} (suffix : v <:+ x ++ y) :
    v <:+ y ∨ ∃ a, a ≠ [] ∧ a <:+ x ∧ v = a ++ y := by
  obtain ⟨w, whole⟩ := suffix
  rcases List.append_eq_append_iff.mp whole with ⟨a, rfl, rfl⟩ | ⟨b, -, rfl⟩
  · by_cases empty : a = []
    · exact .inl (by simp [empty])
    · exact .inr ⟨a, empty, List.suffix_append _ _, rfl⟩
  · exact .inl (List.suffix_append _ _)

theorem fence_ticks (fence : isFence s = true) : ticks <+: s := by
  refine isTicks_iff.mp (agrees_iff.mpr (List.IsPrefix.trans ?_ (agrees_iff.mp fence)))
  decide

/-- A fence in a response without one in its prose is in the statement. -/
theorem ticks_inside {pre post : List Char} (prose : fromFirst isFence pre = [])
    (prose' : fromFirst isFence post = [])
    (begins : agrees ignoringCase "SELECT".toList stmt = true ∨ agrees ignoringCase "WITH".toList stmt = true)
    (ends : ∃ x, stmt = x ++ [';']) (there : fromFirst isFence (pre ++ (stmt ++ post)) ≠ []) :
    ticks <:+: stmt := by
  have fence := fromFirst_passes there
  have suffix := fromFirst_suffix isFence (pre ++ (stmt ++ post))
  generalize fromFirst isFence (pre ++ (stmt ++ post)) = found at there fence suffix
  rcases suffix_cases suffix with later | ⟨a, nonempty, inside, rfl⟩
  · rcases suffix_cases later with last | ⟨a, nonempty, inside, rfl⟩
    · exact absurd fence (by simp [fromFirst_eq_nil_iff.mp prose' found there last])
    · by_cases long : 6 ≤ a.length
      · have short : ticks <+: a :=
          List.prefix_of_prefix_length_le (fence_ticks fence) (List.prefix_append _ _)
            (le_trans (by decide) long)
        exact short.isInfix.trans inside.isInfix
      · -- the semicolon at the end of the statement would be in the fence
        obtain ⟨x, rfl⟩ := ends
        have ending : [';'] <:+ a := List.suffix_of_suffix_length_le (List.suffix_append x [';']) inside
          (List.length_pos_iff.mpr nonempty)
        have last : ';' ∈ a := ending.subset List.mem_cons_self
        have member : ';' ∈ (a ++ post).take 6 := by
          rw [List.take_append, List.take_of_length_le (by omega)]
          exact List.mem_append_left _ last
        have folds := agrees_take (show agrees ignoringCase "```sql".toList (a ++ post) = true from fence)
        have image := List.mem_map_of_mem (f := folded) member
        rw [show (a ++ post).take 6 = (a ++ post).take "```sql".toList.length from rfl, folds] at image
        exact absurd image (by decide)
  · have unfenced := fromFirst_eq_nil_iff.mp prose a nonempty inside
    have apart : isFence (a ++ (stmt ++ post)) = false := by
      rcases begins with select | with_
      · have pre := (agrees_iff.mp select).trans ((List.prefix_append stmt post).map folded)
        exact fence_apart (by decide) pre nonempty unfenced
      · have pre := (agrees_iff.mp with_).trans ((List.prefix_append stmt post).map folded)
        exact fence_apart (by decide) pre nonempty unfenced
    exact absurd fence (by simp [apart])

theorem taken_solid (place : placed s = true) (found : ';' ∈ fromFirst (stands "SELECT") s) :
    Py.trim (beforeFirst (stands "SELECT") s ++ through (fromFirst (stands "SELECT") s)) =
      beforeFirst (stands "SELECT") s ++ through (fromFirst (stands "SELECT") s) := by
  obtain ⟨nonempty, first⟩ := placed_head place
  have text : beforeFirst (stands "SELECT") s ++ through (fromFirst (stands "SELECT") s) ≠ [] := by
    simp [through]
  refine Py.trim_solid text ?_ (by simp [through]; decide)
  have whole : beforeFirst (stands "SELECT") s ++ through (fromFirst (stands "SELECT") s) ++
      behind (fromFirst (stands "SELECT") s) = s := by
    rw [List.append_assoc, through_prefix found, before_append_from]
  generalize beforeFirst (stands "SELECT") s ++ through (fromFirst (stands "SELECT") s) = taken at text whole
  generalize behind (fromFirst (stands "SELECT") s) = rest at whole
  subst whole
  rwa [List.head_append_of_ne_nil text] at first

/-- If stripping leaves a part, there is only white space around it. -/
theorem blank_around {pre post : List Char} (same : Py.trim (pre ++ (stmt ++ post)) = stmt) :
    (∀ c ∈ pre, isSpace c = true) ∧ ∀ c ∈ post, isSpace c = true := by
  have solid := congrArg (fun t => (t.filter (!isSpace ·)).length) same
  simp only [Py.filter_trim, List.filter_append, List.length_append] at solid
  have none {t : List Char} (empty : (t.filter (!isSpace ·)).length = 0) : ∀ c ∈ t, isSpace c = true := by
    intro c member
    have out := List.filter_eq_nil_iff.mp (List.length_eq_zero_iff.mp empty) c member
    simpa using out
  exact ⟨none (by omega), none (by omega)⟩

/-- Where no semicolon follows a SELECT, and the prose behind the statement is blank, no SELECT is
there: the semicolon of the statement would follow it. -/
theorem no_select {pre post : List Char} (ends : ∃ x, stmt = x ++ [';']) (nonempty : stmt ≠ [])
    (found : ';' ∉ fromFirst (stands "SELECT") (pre ++ (stmt ++ post)))
    (blank : ∀ c ∈ post, isSpace c = true) : fromFirst (stands "SELECT") (pre ++ (stmt ++ post)) = [] := by
  by_contra there
  have select := fromFirst_passes there
  have begins : placed (fromFirst (stands "SELECT") (pre ++ (stmt ++ post))) = true := by
    simp [placed, select]
  have solid := placed_head begins
  have suffix := fromFirst_suffix (stands "SELECT") (pre ++ (stmt ++ post))
  generalize fromFirst (stands "SELECT") (pre ++ (stmt ++ post)) = v at there found solid suffix
  have without {a : List Char} (given : a ≠ []) (inside : a <:+ stmt) : ';' ∈ a := by
    obtain ⟨x, rfl⟩ := ends
    exact (List.suffix_of_suffix_length_le (List.suffix_append x [';']) inside
      (List.length_pos_iff.mpr given)).subset List.mem_cons_self
  rcases suffix_cases suffix with later | ⟨a, -, -, rfl⟩
  · rcases suffix_cases later with last | ⟨a, given, inside, rfl⟩
    · obtain ⟨given, head⟩ := solid
      have space := blank _ (last.subset (List.head_mem given))
      rw [head] at space
      contradiction
    · exact found (List.mem_append_left _ (without given inside))
  · have whole := without nonempty (List.suffix_refl stmt)
    exact found (List.mem_append_right _ (List.mem_append_left _ whole))

/-- A response that is only stripped gives the statement if nothing but blanks is around it. -/
theorem prose_iff {pre post : List Char} (ends : ∃ x, stmt = x ++ [';'])
    (begins : agrees ignoringCase "SELECT".toList stmt = true ∨ agrees ignoringCase "WITH".toList stmt = true)
    (found : ';' ∉ fromFirst (stands "SELECT") (pre ++ (stmt ++ post))) :
    Py.trim (pre ++ (stmt ++ post)) = stmt ↔
      fromFirst (stands "SELECT") (pre ++ (stmt ++ post)) = [] ∧
        (∀ c ∈ pre, isSpace c = true) ∧ ∀ c ∈ post, isSpace c = true := by
  obtain ⟨nonempty, first⟩ := begins_head begins
  constructor
  · intro same
    obtain ⟨blank, blank'⟩ := blank_around same
    exact ⟨no_select ends nonempty found blank', blank, blank'⟩
  · rintro ⟨-, blank, blank'⟩
    obtain ⟨x, rfl⟩ := ends
    exact Py.trim_padded blank blank' nonempty first (by simp; decide)

/-- A response of which no block is taken gives the statement in it. -/
theorem statement_iff {pre post : List Char} (ends : ∃ x, stmt = x ++ [';'])
    (begins : agrees ignoringCase "SELECT".toList stmt = true ∨ agrees ignoringCase "WITH".toList stmt = true) :
    (if ';' ∈ fromFirst (stands "SELECT") (pre ++ (stmt ++ post)) then
      Py.trim (beforeFirst (stands "SELECT") (fromFirst placed (pre ++ (stmt ++ post))) ++
        through (fromFirst (stands "SELECT") (pre ++ (stmt ++ post))))
    else Py.trim (pre ++ (stmt ++ post))) = stmt ↔
      (Closed stmt ∧ stmt <+: fromFirst placed (pre ++ (stmt ++ post))) ∨
      (fromFirst (stands "SELECT") (pre ++ (stmt ++ post)) = [] ∧
        (∀ c ∈ pre, isSpace c = true) ∧ ∀ c ∈ post, isSpace c = true) := by
  have only : ∀ s, stands "SELECT" s = true → placed s = true := fun s here => by simp [placed, here]
  have selects := fromFirst_fromFirst only (pre ++ (stmt ++ post))
  by_cases found : ';' ∈ fromFirst (stands "SELECT") (pre ++ (stmt ++ post))
  · have there : fromFirst placed (pre ++ (stmt ++ post)) ≠ [] := by
      intro empty
      rw [empty] at selects
      rw [← selects] at found
      cases found
    have place := fromFirst_passes there
    rw [← selects] at found
    have text : Py.trim (beforeFirst (stands "SELECT") (fromFirst placed (pre ++ (stmt ++ post))) ++
        through (fromFirst (stands "SELECT") (fromFirst placed (pre ++ (stmt ++ post))))) =
        beforeFirst (stands "SELECT") (fromFirst placed (pre ++ (stmt ++ post))) ++
          through (fromFirst (stands "SELECT") (fromFirst placed (pre ++ (stmt ++ post)))) :=
      taken_solid place found
    rw [← selects, if_pos found, text, taken_iff place found ends, or_iff_left]
    exact fun blank => absurd (blank.1 ▸ found) List.not_mem_nil
  · rw [if_neg found, or_iff_right]
    · exact prose_iff ends begins found
    · rintro ⟨closed, y, whole⟩
      have inside := closed.found ends y
      rw [whole, selects] at inside
      exact found inside

end

/-- Prose in which no code block begins. -/
def NoFence (s : String) : Prop := fromFirst isFence s.toList = []

def Blank (s : String) : Prop := ∀ c ∈ s.toList, isSpace c = true

instance : Decidable (NoFence s) := inferInstanceAs (Decidable (_ = _))

/-- SELECT or WITH in any case. -/
def Begins (stmt : String) : Prop :=
  agrees ignoringCase "SELECT".toList stmt.toList = true ∨ agrees ignoringCase "WITH".toList stmt.toList = true

/-- Of a block in prose the body is taken exactly if it has no three backticks, nor ends in one
directly before the fence. Of a statement in prose without a block it is taken exactly if no three
backticks stand behind a fence, and either the statement is closed and the first WITH or SELECT before
white space is one where it stands, or there is no such SELECT and no prose. -/
theorem extractSql_iff (pre post fence body stmt : String) (prose : NoFence pre) :
    (isFence fence.toList = true → fence.length = 6 →
      (extractSql (pre ++ (fence ++ (body ++ ("```" ++ post)))) = Py.strip body ↔
        ¬ ticks <:+: body.toList ++ ['`', '`'])) ∧
    (NoFence post → Begins stmt → (∃ x, stmt.toList = x ++ [';']) →
      let response := pre ++ (stmt ++ post)
      (extractSql response = stmt ↔ ¬ ticks <:+: fenced response.toList ∧
        ((Closed stmt.toList ∧ stmt.toList <+: fromFirst placed response.toList) ∨
          (fromFirst (stands "SELECT") response.toList = [] ∧ Blank pre ∧ Blank post)))) := by
  constructor
  · intro begins length
    have chars : (pre ++ (fence ++ (body ++ ("```" ++ post)))).toList =
        pre.toList ++ (fence.toList ++ (body.toList ++ (ticks ++ post.toList))) := by
      simp only [String.toList_append, ticks]
    rw [← String.toList_inj, extractSql_eq, chars,
      fenced_block prose begins (String.length_toList.trans length), if_pos,
      ← block_iff, Py.strip, String.toList_ofList]
    · rfl
    · exact fun none => ticks_iff.mp none (List.infix_append' _ _ _)
  · intro prose' begins ends response
    have chars : response.toList = pre.toList ++ (stmt.toList ++ post.toList) := by
      simp only [response, String.toList_append]
    rw [← String.toList_inj, extractSql_eq, chars]
    by_cases block : ticks <:+: fenced (pre.toList ++ (stmt.toList ++ post.toList))
    · rw [if_pos fun none => ticks_iff.mp none block]
      refine iff_of_false (fun same => ?_) fun both => both.1 block
      have there : fromFirst isFence (pre.toList ++ (stmt.toList ++ post.toList)) ≠ [] := by
        intro empty
        rw [fenced, empty] at block
        exact absurd (List.eq_nil_of_infix_nil block) (by decide)
      have inside := ticks_inside prose prose' begins ends there
      rw [← same] at inside
      exact before_free _ (inside.trans (Py.trim_infix _))
    · rw [if_neg (not_not.mpr (ticks_iff.mpr block)), statement_iff ends begins]
      exact (and_iff_right block).symm

theorem extractSql_iff_totals :
    extractSql ("The totals:\n" ++ ("```sql" ++ ("\nSELECT total FROM orders\n" ++ ("```" ++ "\nDone.")))) =
      Py.strip "\nSELECT total FROM orders\n" ∧
    extractSql ("The totals: " ++ ("SELECT total FROM orders;" ++ " It lists all.")) =
      "SELECT total FROM orders;" :=
  ⟨((extractSql_iff "The totals:\n" "\nDone." "```sql" "\nSELECT total FROM orders\n" ""
      (by decide +kernel)).1 (by decide +kernel) (by decide)).mpr (by decide +kernel),
    ((extractSql_iff "The totals: " " It lists all." "" "" "SELECT total FROM orders;" (by decide +kernel)).2
      (by decide +kernel) (.inl (by decide +kernel)) ⟨"SELECT total FROM orders".toList, by decide⟩).mpr
      ⟨by decide +kernel, .inl ⟨⟨by decide +kernel, by decide +kernel, by decide +kernel⟩, by decide +kernel⟩⟩⟩

/-- What is returned for replies around one statement: a literal with a semicolon cuts it, prose
with the word WITH is taken along, three backticks in a literal end the block, and a statement
without white space behind SELECT is not found. -/
theorem cut_short :
    extractSql ("The notes: " ++ "SELECT id FROM t WHERE note = 'a;b';") =
      "SELECT id FROM t WHERE note = 'a;" ∧
    extractSql ("The query with all totals: " ++ "SELECT total FROM t;") =
      "with all totals: SELECT total FROM t;" ∧
    extractSql ("The query:\n```sql\n" ++ ("SELECT '```' AS fence" ++ "\n```\nDone.")) = "SELECT '" ∧
    extractSql ("The numbers: " ++ "SELECT(1);") = "The numbers: SELECT(1);" := by
  decide +kernel

end ExtractSql
end Nl2SqlAgent

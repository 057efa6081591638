import Mathlib.Order.WithBot
import Nl2SqlAgent.Lib.PyRepr
import Nl2SqlAgent.RowMultisets
import Nl2SqlAgent.Voter

/-! `_normalize` of `agent/nodes/voter.py` beside `normalize_rows` of `evaluation/metrics.py`: the
one sorts the rows as tuples, the other by what they look like as text. -/
namespace Nl2SqlAgent

open Lib

namespace RowHash

open Metrics

/-- What stands around a number or begins a string. -/
def marks : List Char := [',', ')', ']', '\'', '"']

/-- Numbers are rounded to numbers, and what is printed for a number tells which it is and
where it ends. -/
structure Numerals where
  floats : Floats
  ofInt_number : ∀ n, floats.ofInt n ≠ .nan
  round6_number : ∀ x, x ≠ .nan → floats.round6 x ≠ .nan
  str_inj : ∀ x y, floats.str x = floats.str y → x = y
  str_plain : ∀ x, ∀ c ∈ (floats.str x).toList, c ∉ marks

/-- The interpreter: its numbers, which characters it prints as they are, and its sort. -/
structure Python extends Numerals where
  printable : Char → Bool
  sorter : Sorter (List NormCell)

/-- What a database returns; NaN is no number. -/
structure Result where
  rows : List (List Cell)
  numbers : ∀ row ∈ rows, .float .nan ∉ row

/-- Where a float stands; NaN, which stands nowhere, is not asked. -/
def rank : PyFloat → WithBot (WithTop Rat)
  | .finite q => ((q : WithTop Rat) : WithBot (WithTop Rat))
  | .negZero => (((0 : Rat) : WithTop Rat) : WithBot (WithTop Rat))
  | .infinite false => ((⊤ : WithTop Rat) : WithBot (WithTop Rat))
  | .infinite true => ⊥
  | .nan => ⊥

/-- `<` of two floats. -/
def floatLt : PyFloat → PyFloat → Bool
  | .nan, _ => false
  | _, .nan => false
  | x, y => decide (rank x < rank y)

/-- `<` of two cells; between a number and a text it raises. -/
def cellLt : NormCell → NormCell → Option Bool
  | .float x, .float y => some (floatLt x y)
  | .str s, .str t => some (decide (s.toList < t.toList))
  | _, _ => none

/-- `<` of two tuples: the first cells that are not equal decide, else the lengths. -/
def tupleLt : List NormCell → List NormCell → Option Bool
  | [], [] => some false
  | [], _ :: _ => some true
  | _ :: _, [] => some false
  | c :: cs, d :: ds => if c.eq d then tupleLt cs ds else cellLt c d

/-- `repr` of a cell; that of a float is its `str`. -/
def cellRepr (py : Python) : NormCell → List Char
  | .float x => (py.floats.str x).toList
  | .str s => Py.reprStr py.printable s

def normed (py : Python) (rows : List (List Cell)) : List (List NormCell) :=
  rows.map fun row => row.map (normCell py.floats)

/-- `_normalize`; `none` where the sort raises. -/
def normalize (py : Python) (rows : List (List Cell)) : Option String :=
  if rows.isEmpty then some "EMPTY"
  else ((py.sorter.sort (normed py rows)).run tupleLt).map fun sorted =>
    String.ofList (Py.list (Py.tuple (cellRepr py)) sorted)

/-- `==` of two rows. -/
def rowEq (row row' : List NormCell) : Bool := listEq NormCell.eq row row'

/-- `normalize_rows` gives each row as often for the one as for the other. -/
def SameRows (py : Python) (a b : List (List Cell)) : Prop :=
  let x := normalizeRows py.floats a
  let y := normalizeRows py.floats b
  ∀ row ∈ x ++ y, x.countP row.eq = y.countP row.eq

instance (py : Python) (a b : List (List Cell)) : Decidable (SameRows py a b) :=
  inferInstanceAs (Decidable (∀ row ∈ _ ++ _, _))

def isNumber : NormCell → Bool
  | .float _ => true
  | .str _ => false

/-- Behind cells that are equal, two rows both have a number or both a text. -/
def Unmixed (rows : List (List NormCell)) : Prop :=
  ∀ front c cs front' d ds, front ++ c :: cs ∈ rows → front' ++ d :: ds ∈ rows →
    rowEq front front' = true → isNumber c = isNumber d

/-- Equal rows stand in the same order, with the same signs of their zeros. -/
def SameSigns (a b : List (List NormCell)) : Prop :=
  ∀ row ∈ a ++ b, a.filter (rowEq row) = b.filter (rowEq row)

/-- Numbers before texts, or behind them. -/
def cellLe (behind : Bool) : NormCell → NormCell → Bool
  | .float x, .float y => decide (rank x ≤ rank y)
  | .str s, .str t => !decide (t.toList < s.toList)
  | .float _, .str _ => !behind
  | .str _, .float _ => behind

theorem cellLe_trans (behind : Bool) (c d e : NormCell) (first : cellLe behind c d = true)
    (second : cellLe behind d e = true) : cellLe behind c e = true := by
  cases c <;> cases d <;> cases e <;>
    simp only [cellLe, decide_eq_true_eq, Bool.not_eq_true', decide_eq_false_iff_not]
      at first second ⊢
  all_goals first
    | exact le_trans first second
    | exact List.le_trans first second
    | simp_all

theorem cellLe_total (behind : Bool) (c d : NormCell) :
    (cellLe behind c d || cellLe behind d c) = true := by
  cases c with
  | float x =>
    cases d with
    | float y => simpa [cellLe] using le_total (rank x) (rank y)
    | str t => simp [cellLe]
  | str s =>
    cases d with
    | float y => simp [cellLe]
    | str t =>
      simp only [cellLe, Bool.or_eq_true, Bool.not_eq_true', decide_eq_false_iff_not]
      exact List.le_total s.toList t.toList

def cellRanking (behind : Bool) : Ranking NormCell where
  le := cellLe behind
  trans := cellLe_trans behind
  total := cellLe_total behind

abbrev ranking (behind : Bool) : Ranking (List NormCell) := (cellRanking behind).lex

def Numbers (row : List NormCell) : Prop := .float .nan ∉ row

section

variable {py : Python} {behind : Bool} {x y : PyFloat} {c d : NormCell} {cs ds row row' : List NormCell}
  {a b : Result} {answer : Bool}

theorem rank_eq_iff (first : x ≠ .nan) (second : y ≠ .nan) : x.eq y = true ↔ rank x = rank y := by
  rcases x with q | _ | (_ | _) | _ <;> rcases y with q' | _ | (_ | _) | _ <;> first
    | contradiction
    | simp only [PyFloat.eq, PyFloat.unsigned, rank, decide_eq_true_eq, WithBot.coe_inj, WithTop.coe_inj,
        WithBot.coe_ne_bot, WithBot.bot_ne_coe, WithTop.coe_ne_top, WithTop.top_ne_coe,
        PyFloat.finite.injEq, PyFloat.infinite.injEq, reduceCtorEq, Bool.true_eq_false, Bool.false_eq_true]

theorem floatLt_iff (first : x ≠ .nan) (second : y ≠ .nan) : floatLt x y = decide (rank x < rank y) := by
  cases x <;> cases y <;> first | rfl | contradiction

theorem tied_iff_eq (behind : Bool) (first : c ≠ .float .nan) (second : d ≠ .float .nan) :
    (cellRanking behind).tied c d = true ↔ c.eq d = true := by
  rw [Ranking.tied_iff]
  cases c with
  | float x =>
    cases d with
    | float y =>
      have same := rank_eq_iff (x := x) (y := y) (by simpa using first) (by simpa using second)
      simp only [NormCell.eq, cellRanking, cellLe, same, decide_eq_true_eq]
      exact antisymm_iff
    | str t => cases behind <;> simp [NormCell.eq, cellRanking, cellLe]
  | str s =>
    cases d with
    | float y => cases behind <;> simp [NormCell.eq, cellRanking, cellLe]
    | str t =>
      simp only [cellRanking, cellLe, Bool.not_eq_true', decide_eq_false_iff_not, NormCell.eq,
        decide_eq_true_eq, String.ext_iff]
      exact ⟨fun both => List.le_antisymm both.1 both.2, fun same => by simp [same]⟩

theorem cellLt_spec (first : c ≠ .float .nan) (second : d ≠ .float .nan)
    (compared : cellLt c d = some answer) : answer = !cellLe behind d c := by
  cases c with
  | float x =>
    cases d with
    | float y =>
      have less := floatLt_iff (x := x) (y := y) (by simpa using first) (by simpa using second)
      obtain rfl := Option.some.inj compared
      simp [cellLe, less, ← not_le]
    | str t => contradiction
  | str s =>
    cases d with
    | float y => contradiction
    | str t =>
      obtain rfl := Option.some.inj compared
      simp [cellLe]

/-- A number and a text change places. -/
theorem cellLt_none (raised : cellLt c d = none) :
    (cellLe false d c = false ∧ cellLe true c d = false) ∨
      (cellLe false c d = false ∧ cellLe true d c = false) := by
  cases c <;> cases d <;> simp_all [cellLt, cellLe]

theorem cellLt_isSome_iff : (cellLt c d).isSome = true ↔ isNumber c = isNumber d := by
  cases c <;> cases d <;> simp [cellLt, isNumber]

theorem isNumber_of_eq (same : c.eq d = true) : isNumber c = isNumber d := by
  cases c <;> cases d <;> simp_all [NormCell.eq, isNumber]

theorem numbers_cons (numbers : Numbers (c :: cs)) : c ≠ .float .nan ∧ Numbers cs := by
  obtain ⟨head, tail⟩ := not_or.mp fun inside => numbers (List.mem_cons.mpr inside)
  exact ⟨Ne.symm head, tail⟩

theorem row_tied_iff (numbers : Numbers row) (numbers' : Numbers row') :
    (ranking behind).tied row row' = true ↔ rowEq row row' = true := by
  induction row generalizing row' with
  | nil => cases row' <;> simp [rowEq, listEq, Ranking.tied, Ranking.lex, Ranking.lexLe]
  | cons c cs ih =>
    cases row' with
    | nil => simp [rowEq, listEq, Ranking.tied, Ranking.lex, Ranking.lexLe]
    | cons d ds =>
      obtain ⟨number, rest⟩ := numbers_cons numbers
      obtain ⟨number', rest'⟩ := numbers_cons numbers'
      rw [Ranking.lex_tied_cons, tied_iff_eq behind number number', ih rest rest', rowEq, rowEq, listEq,
        Bool.and_eq_true]

theorem tupleLt_spec (numbers : Numbers row) (numbers' : Numbers row')
    (compared : tupleLt row row' = some answer) : answer = !(ranking behind).le row' row := by
  induction row generalizing row' with
  | nil => cases row' <;> simp_all [tupleLt, Ranking.lex, Ranking.lexLe]
  | cons c cs ih =>
    cases row' with
    | nil => simp_all [tupleLt, Ranking.lex, Ranking.lexLe]
    | cons d ds =>
      obtain ⟨number, rest⟩ := numbers_cons numbers
      obtain ⟨number', rest'⟩ := numbers_cons numbers'
      have tied := tied_iff_eq behind number number'
      simp only [Ranking.lex, Ranking.lexLe, Ranking.tied_comm (a := d)]
      by_cases same : c.eq d = true
      · simp only [tupleLt, same, if_true] at compared
        rw [if_pos (tied.mpr same)]
        exact ih rest rest' compared
      · simp only [tupleLt, same] at compared
        rw [if_neg (mt tied.mp same)]
        exact cellLt_spec number number' compared

theorem tupleLt_none (numbers : Numbers row) (numbers' : Numbers row') (raised : tupleLt row row' = none) :
    ((ranking false).le row' row = false ∧ (ranking true).le row row' = false) ∨
      ((ranking false).le row row' = false ∧ (ranking true).le row' row = false) := by
  induction row generalizing row' with
  | nil => cases row' <;> cases raised
  | cons c cs ih =>
    cases row' with
    | nil => cases raised
    | cons d ds =>
      obtain ⟨number, rest⟩ := numbers_cons numbers
      obtain ⟨number', rest'⟩ := numbers_cons numbers'
      have tied (behind : Bool) := tied_iff_eq behind number number'
      simp only [Ranking.lex, Ranking.lexLe, Ranking.tied_comm (a := d)]
      by_cases same : c.eq d = true
      · simp only [tupleLt, same, if_true] at raised
        simp only [(tied _).mpr same, if_true]
        exact ih rest rest' raised
      · simp only [tupleLt, same] at raised
        simp only [mt (tied _).mp same]
        exact cellLt_none raised

theorem splits {rows : List (List NormCell)} (numbers : ∀ row ∈ rows, Numbers row) :
    Sorter.Splits (· ∈ rows) tupleLt (ranking false) (ranking true) := by
  have agrees (behind : Bool) : Asking.Agrees (· ∈ rows) tupleLt (ranking behind) :=
    fun row row' member member' _ => tupleLt_spec (numbers row member) (numbers row' member')
  exact ⟨agrees false, agrees true, fun row row' member member' =>
    tupleLt_none (numbers row member) (numbers row' member')⟩

/-- Two rows can be compared unless a number meets a text behind cells that are equal. -/
theorem tupleLt_isSome_iff : (tupleLt row row').isSome = true ↔
    ∀ front c cs front' d ds, row = front ++ c :: cs → row' = front' ++ d :: ds →
      rowEq front front' = true → isNumber c = isNumber d := by
  induction row generalizing row' with
  | nil => cases row' <;> simp [tupleLt]
  | cons c cs ih =>
    cases row' with
    | nil => simp [tupleLt]
    | cons d ds =>
      constructor
      · intro compared front e es front' f fs split split' same
        cases front with
        | nil =>
          cases front' with
          | nil =>
            obtain ⟨rfl, rfl⟩ := List.cons.inj split
            obtain ⟨rfl, rfl⟩ := List.cons.inj split'
            by_cases equal : c.eq d = true
            · exact isNumber_of_eq equal
            · simp only [tupleLt, equal] at compared
              exact cellLt_isSome_iff.mp compared
          | cons g gs => cases same
        | cons g gs =>
          cases front' with
          | nil => cases same
          | cons h hs =>
            obtain ⟨rfl, rfl⟩ := List.cons.inj split
            obtain ⟨rfl, rfl⟩ := List.cons.inj split'
            obtain ⟨equal, sames⟩ := Bool.and_eq_true_iff.mp same
            simp only [tupleLt, equal, if_true] at compared
            exact ih.mp compared gs e es hs f fs rfl rfl sames
      · intro unmixed
        by_cases equal : c.eq d = true
        · simp only [tupleLt, equal, if_true]
          apply ih.mpr
          intro front e es front' f fs split split' same
          exact unmixed (c :: front) e es (d :: front') f fs (by rw [split]; rfl) (by rw [split']; rfl)
            (by rw [rowEq, listEq, equal]; exact same)
        · simp only [tupleLt, equal]
          exact cellLt_isSome_iff.mpr (unmixed [] c cs [] d ds rfl rfl rfl)

theorem unmixed_iff {rows : List (List NormCell)} :
    (∀ row ∈ rows, ∀ row' ∈ rows, (tupleLt row row').isSome = true) ↔ Unmixed rows := by
  constructor
  · intro compared front c cs front' d ds member member'
    exact tupleLt_isSome_iff.mp (compared _ member _ member') front c cs front' d ds rfl rfl
  · rintro unmixed row member row' member'
    apply tupleLt_isSome_iff.mpr
    intro front c cs front' d ds split split'
    exact unmixed front c cs front' d ds (split ▸ member) (split' ▸ member')

theorem normCell_number {cell : Cell} (number : cell ≠ .float .nan) :
    normCell py.floats cell ≠ .float .nan := by
  cases cell with
  | null => simp [normCell]
  | int n => simpa [normCell] using py.round6_number _ (py.ofInt_number n)
  | float x => simpa [normCell] using py.round6_number x (by simpa using number)
  | other shown => simp [normCell]

theorem normed_numbers (a : Result) : ∀ row ∈ normed py a.rows, Numbers row := by
  intro row member inside
  obtain ⟨cells, found, rfl⟩ := List.mem_map.mp member
  obtain ⟨cell, here, same⟩ := List.mem_map.mp inside
  exact normCell_number (fun nan => a.numbers cells found (nan ▸ here)) same

theorem quote_marks (s : String) : Py.quoteOf s.toList ∈ marks := by
  rcases Py.quoteOf_quote s.toList with found | found <;> rw [found] <;> decide

theorem ends_marks {stop : Char} (closes : stop ∈ [',', ')', ']']) : stop ∈ marks :=
  List.mem_of_mem_take (i := 3) closes

/-- No number, and not what follows it, begins with a quote. -/
theorem number_text_apart (x : PyFloat) (s : String) {stop : Char} {tail rest : List Char}
    (closes : stop ∈ [',', ')', ']']) :
    (py.floats.str x).toList ++ stop :: tail ≠ Py.reprStr py.printable s ++ rest := by
  intro equal
  have first := congrArg List.head? equal
  cases shape : (py.floats.str x).toList with
  | nil =>
    rw [shape] at first
    obtain rfl : stop = Py.quoteOf s.toList := Option.some.inj first
    rcases Py.quoteOf_quote s.toList with found | found <;> simp [found] at closes
  | cons z zs =>
    rw [shape] at first
    obtain rfl : z = Py.quoteOf s.toList := Option.some.inj first
    exact py.str_plain x _ (shape ▸ List.mem_cons_self) (quote_marks s)

theorem cellRepr_readable (py : Python) : Py.Readable (cellRepr py) Py.Ends := by
  rintro c d _ _ ⟨stop, tail, rfl, closes⟩ ⟨stop', tail', rfl, closes'⟩ same
  cases c with
  | float x =>
    cases d with
    | float y =>
      obtain ⟨texts, stopped, tails⟩ := Py.leading_inj (k := fun z => decide (z ∉ marks)) same
        (fun z inside => decide_eq_true (py.str_plain x z inside))
        (fun z inside => decide_eq_true (py.str_plain y z inside))
        (decide_eq_false (not_not.mpr (ends_marks closes)))
        (decide_eq_false (not_not.mpr (ends_marks closes')))
      exact ⟨congrArg _ (py.str_inj x y (String.ext texts)), by rw [stopped, tails]⟩
    | str t => exact absurd same (number_text_apart x t closes)
  | str s =>
    cases d with
    | float y => exact absurd same.symm (number_text_apart y s closes')
    | str t =>
      obtain ⟨equal, tails⟩ := Py.reprStr_readable py.printable (fun _ => True) s t _ _ trivial trivial same
      exact ⟨congrArg _ equal, tails⟩

theorem cellRepr_begins (py : Python) : Py.Begins (cellRepr py) := by
  intro c rest rest' same
  cases c with
  | float x =>
    cases shape : (py.floats.str x).toList with
    | nil => simp [cellRepr, shape] at same
    | cons w ws =>
      simp only [cellRepr, shape, List.cons_append, List.cons.injEq] at same
      exact py.str_plain x w (shape ▸ List.mem_cons_self) (by rw [same.1]; decide)
  | str s =>
    have first : Py.quoteOf s.toList = ')' := (List.cons.inj same).1
    rcases Py.quoteOf_quote s.toList with found | found <;> rw [found] at first <;> cases first

/-- The text of a list of rows tells the rows. -/
theorem text_inj {rows rows' : List (List NormCell)}
    (same : Py.list (Py.tuple (cellRepr py)) rows = Py.list (Py.tuple (cellRepr py)) rows') : rows = rows' := by
  refine Py.list_inj (Py.tuple_readable (cellRepr_readable py) (cellRepr_begins py) _) ?_ same
  intro row rest rest' first
  rcases row with _ | ⟨c, _ | ⟨d, ds⟩⟩ <;> cases (List.cons.inj first).1

/-- The hash is there unless two rows cannot be compared. -/
theorem normalize_isSome_iff : (normalize py a.rows).isSome = true ↔ Unmixed (normed py a.rows) := by
  rw [normalize]
  split
  next empty =>
    rw [List.isEmpty_iff.mp empty]
    simp [normed, Unmixed]
  next =>
    rw [Option.isSome_map, py.sorter.run_isSome_iff (splits (normed_numbers a)), unmixed_iff]

/-- The hash that is there. -/
def textOf (py : Python) (rows : List (List Cell)) : String :=
  if rows.isEmpty then "EMPTY"
  else String.ofList (Py.list (Py.tuple (cellRepr py)) ((ranking false).sort (normed py rows)))

theorem normalize_some (some : (normalize py a.rows).isSome = true) :
    normalize py a.rows = .some (textOf py a.rows) := by
  obtain ⟨text, hashed⟩ := Option.isSome_iff_exists.mp some
  rw [hashed]
  rw [normalize] at hashed
  rw [textOf]
  split at hashed
  next empty => rw [if_pos empty, ← Option.some.inj hashed]
  next rows =>
    obtain ⟨sorted, ran, rfl⟩ := Option.map_eq_some_iff.mp hashed
    rw [if_neg rows, py.sorter.eq_of_run (splits (normed_numbers a)).agrees ran]

theorem textOf_eq_iff {rows rows' : List (List Cell)} : textOf py rows = textOf py rows' ↔
    (ranking false).sort (normed py rows) = (ranking false).sort (normed py rows') := by
  have apart (sorted : List (List NormCell)) :
      "EMPTY" ≠ String.ofList (Py.list (Py.tuple (cellRepr py)) sorted) := by
    intro same
    have first := congrArg String.toList same
    rw [String.toList_ofList] at first
    cases sorted <;> simp [Py.list] at first
  have length (rows : List (List Cell)) :
      ((ranking false).sort (normed py rows)).length = rows.length := by
    rw [(Ranking.sort_perm _ _).length_eq, normed, List.length_map]
  rw [textOf, textOf]
  cases rows with
  | nil =>
    cases rows' with
    | nil => simp
    | cons row rows' =>
      apply iff_of_false (apart _)
      intro same
      simpa [length] using congrArg List.length same
  | cons row rows =>
    cases rows' with
    | nil =>
      apply iff_of_false (apart _).symm
      intro same
      simpa [length] using congrArg List.length same
    | cons row' rows' => exact ⟨fun same => text_inj (String.ofList_injective same), fun same => by simp [same]⟩

/-- Where both are there, they are the same if the rows are, with the signs of their zeros. -/
theorem normalize_eq_iff (first : (normalize py a.rows).isSome = true)
    (second : (normalize py b.rows).isSome = true) :
    normalize py a.rows = normalize py b.rows ↔ SameSigns (normed py a.rows) (normed py b.rows) := by
  rw [normalize_some first, normalize_some second, Option.some.injEq, textOf_eq_iff,
    Ranking.sort_eq_iff_mem]
  have numbers : ∀ row ∈ normed py a.rows ++ normed py b.rows, Numbers row := by
    intro row member
    exact (List.mem_append.mp member).elim (normed_numbers a row) (normed_numbers b row)
  have ties (c : Result) (row : List NormCell) (numbers : Numbers row) :
      (normed py c.rows).filter ((ranking false).tied row) = (normed py c.rows).filter (rowEq row) :=
    List.filter_congr fun row' member =>
      Bool.eq_iff_iff.mpr (row_tied_iff numbers (normed_numbers c row' member))
  apply forall₂_congr
  intro row member
  rw [ties a row (numbers row member), ties b row (numbers row member)]

theorem sameRows_iff {rows rows' : List (List Cell)} : SameRows py rows rows' ↔
    ∀ row ∈ normed py rows ++ normed py rows',
      (normed py rows).countP (rowEq row) = (normed py rows').countP (rowEq row) := by
  have count (rows : List (List Cell)) (row : List NormCell) :
      (normalizeRows py.floats rows).countP (NormRow.tuple row).eq = (normed py rows).countP (rowEq row) := by
    rw [normalizeRows, List.countP_map]
    exact (List.mergeSort_perm _ _).countP_eq _
  have member (rows : List (List Cell)) (row : NormRow) : row ∈ normalizeRows py.floats rows ↔
      ∃ row' ∈ normed py rows, .tuple row' = row := by
    simp [normalizeRows, normed, List.mem_mergeSort]
  simp only [SameRows, List.mem_append, member]
  constructor
  · intro same row inside
    rw [← count, ← count]
    exact same _ (inside.imp (fun found => ⟨row, found, rfl⟩) fun found => ⟨row, found, rfl⟩)
  · rintro same _ (⟨row, found, rfl⟩ | ⟨row, found, rfl⟩)
    · rw [count, count, same row (.inl found)]
    · rw [count, count, same row (.inr found)]

/-- Two results have hashes, and the same one just when `normalize_rows` gives the same rows, if
and only if in neither a number meets a text, and the zeros have the same signs should the
rows be the same. -/
theorem hash_iff (py : Python) (a b : Result) :
    ((normalize py a.rows).isSome = true ∧ (normalize py b.rows).isSome = true ∧
      (normalize py a.rows = normalize py b.rows ↔ SameRows py a.rows b.rows)) ↔
    (Unmixed (normed py a.rows) ∧ Unmixed (normed py b.rows) ∧
      (SameRows py a.rows b.rows → SameSigns (normed py a.rows) (normed py b.rows))) := by
  have counted (signs : SameSigns (normed py a.rows) (normed py b.rows)) : SameRows py a.rows b.rows :=
    sameRows_iff.mpr fun row member => by
      rw [List.countP_eq_length_filter, List.countP_eq_length_filter, signs row member]
  rw [normalize_isSome_iff, normalize_isSome_iff]
  refine and_congr_right fun first => and_congr_right fun second => ?_
  rw [normalize_eq_iff (normalize_isSome_iff.mpr first) (normalize_isSome_iff.mpr second)]
  exact ⟨fun both => both.mpr, fun kept => ⟨counted, kept⟩⟩

end

/-- Numbers printed as fractions; the sign of a zero is kept. -/
def rounding : Floats where
  ofInt n := .finite n
  round6
    | .finite q =>
      let rounded := RowMultisets.sixPlaces.round6 q
      if rounded = 0 ∧ q < 0 then .negZero else .finite rounded
    | x => x
  str
    | .finite q => RowMultisets.fraction q
    | .negZero => "-0.0"
    | .infinite negative => if negative then "-inf" else "inf"
    | .nan => "nan"

theorem fraction_chars (q : Rat) :
    ∀ c ∈ (RowMultisets.fraction q).toList, c.isDigit = true ∨ c ∈ ['-', '.', '/'] := by
  intro c member
  obtain ⟨sep, rest, kind, text, dot, slash⟩ := RowMultisets.fraction_shape q
  rw [text] at member
  rcases List.mem_append.mp member with front | back
  · have chars := RowMultisets.intRepr_chars q.num c front
    rw [Bool.or_eq_true, beq_iff_eq] at chars
    exact chars.imp_right fun sign => by simp [sign]
  · rcases List.mem_cons.mp back with rfl | later
    · exact .inr (by rcases kind with rfl | rfl <;> simp)
    · refine .inl ?_
      rcases kind with rfl | rfl
      · rw [(dot rfl).2] at later
        rw [List.mem_singleton.mp later]
        rfl
      · exact RowMultisets.digits_repr q.den c (slash rfl ▸ later)

theorem fraction_ne {q : Rat} {text : String} (letter : 'n' ∈ text.toList) :
    RowMultisets.fraction q ≠ text := by
  rintro rfl
  rcases fraction_chars q 'n' letter with digit | sign
  · exact absurd digit (by decide)
  · exact absurd sign (by decide)

theorem fraction_ne_negZero (q : Rat) : RowMultisets.fraction q ≠ "-0.0" := by
  intro same
  obtain ⟨sep, rest, kind, text, -, -⟩ := RowMultisets.fraction_shape q
  have stops : (sep.isDigit || sep == '-') = false := by rcases kind with rfl | rfl <;> rfl
  have split : q.num.repr.toList ++ sep :: rest = "-0".toList ++ '.' :: ['0'] := by rw [← text, same]; rfl
  obtain ⟨num, -⟩ := Py.leading_inj split (RowMultisets.intRepr_chars _)
    (List.all_eq_true.mp (by decide)) stops rfl
  rw [RowMultisets.intRepr] at num
  split at num
  · have sign : '-' ∈ q.num.toNat.repr.toList := num ▸ (by decide : '-' ∈ "-0".toList)
    exact absurd (RowMultisets.digits_repr _ '-' sign) (by decide)
  next negative =>
    have zero := RowMultisets.natRepr_inj (n := 0) (List.cons.inj num).2
    omega

def fractions : Numerals where
  floats := rounding
  ofInt_number _ := nofun
  round6_number x number := by
    cases x with
    | finite q =>
      simp only [rounding]
      split <;> simp
    | nan => exact absurd rfl number
    | _ => simp [rounding]
  str_inj x y same := by
    rcases x with q | _ | (_ | _) | _ <;> rcases y with q' | _ | (_ | _) | _
    case finite.finite => exact congrArg _ (RowMultisets.fraction_inj same)
    case finite.negZero => exact absurd same (fraction_ne_negZero q)
    case negZero.finite => exact absurd same.symm (fraction_ne_negZero q')
    case finite.infinite.false | finite.infinite.true | finite.nan =>
      exact absurd same (fraction_ne (by decide))
    case infinite.false.finite | infinite.true.finite | nan.finite =>
      exact absurd same.symm (fraction_ne (by decide))
    all_goals first | rfl | exact absurd same (by decide)
  str_plain x c member marked := by
    rcases x with q | _ | (_ | _) | _
    case finite =>
      rcases fraction_chars q c member with digit | sign
      · have plain : marks.all (!·.isDigit) = true := by decide
        exact absurd digit (by simpa using List.all_eq_true.mp plain c marked)
      · have plain : marks.all (· ∉ ['-','.','/']) = true := by decide
        exact of_decide_eq_true (List.all_eq_true.mp plain c marked) sign
    case negZero =>
      have plain : "-0.0".toList.all (· ∉ marks) = true := by decide
      exact of_decide_eq_true (List.all_eq_true.mp plain c member) marked
    case infinite.false =>
      have plain : "inf".toList.all (· ∉ marks) = true := by decide
      exact of_decide_eq_true (List.all_eq_true.mp plain c member) marked
    case infinite.true =>
      have plain : "-inf".toList.all (· ∉ marks) = true := by decide
      exact of_decide_eq_true (List.all_eq_true.mp plain c member) marked
    case nan =>
      have plain : "nan".toList.all (· ∉ marks) = true := by decide
      exact of_decide_eq_true (List.all_eq_true.mp plain c member) marked

def insertionPython : Python := { fractions with printable _ := true, sorter := .insertion }

/-- A NULL and a number in one column raise, where the metric sorts; and a small negative number
has another hash than zero, where the metric finds them equal. -/
theorem null_number_raises :
    normalize insertionPython [[.null], [.int 1]] = none ∧
    (let a := [[.float (.finite (-1 / 10000000))]]
     let b := [[.int 0]]
     SameRows insertionPython a b ∧ normalize insertionPython a ≠ normalize insertionPython b ∧
       (normalize insertionPython a).isSome = true ∧ (normalize insertionPython b).isSome = true) := by
  decide +kernel

end RowHash
end Nl2SqlAgent

import Mathlib.Data.List.Lex
import Mathlib.Algebra.Order.Ring.Rat
import Mathlib.Data.String.Basic
import Nl2SqlAgent.SqlExecutor

/-! `evaluation/metrics.py`: two statements are compared by the rows they give. How long
they take and whether a wait ends at its limit are arguments. -/
namespace Nl2SqlAgent

open Lib

namespace Metrics

inductive PyFloat where
  | finite (q : Rat)
  | negZero
  | infinite (negative : Bool)
  | nan
  deriving DecidableEq, Repr

def PyFloat.unsigned : PyFloat → PyFloat
  | .negZero => .finite 0
  | x => x

/-- `==`, which holds of no NaN and of both zeros. -/
def PyFloat.eq : PyFloat → PyFloat → Bool
  | .nan, _ => false
  | a, b => a.unsigned = b.unsigned

/-- One cell of a row; booleans are integers, and everything else is known by its `str`. -/
inductive Cell where
  | null
  | int (n : Int)
  | float (x : PyFloat)
  | other (shown : String)
  deriving DecidableEq, Repr

def Cell.ofValue : Value → Cell
  | .null => .null
  | .num q => .float (.finite q)
  | .other shown => .other shown

/-- What the interpreter does with floats: `float` of an integer, `round` to six digits, `str`. -/
structure Floats where
  ofInt : Int → PyFloat
  round6 : PyFloat → PyFloat
  str : PyFloat → String

inductive NormCell where
  | float (x : PyFloat)
  | str (s : String)
  deriving DecidableEq, Repr

def NormCell.eq : NormCell → NormCell → Bool
  | .float a, .float b => a.eq b
  | .str a, .str b => a = b
  | _, _ => false

/-- A row is a tuple, and a list after it was read from JSON. -/
inductive NormRow where
  | tuple (cells : List NormCell)
  | list (cells : List NormCell)
  deriving DecidableEq, Repr

def NormRow.cells : NormRow → List NormCell
  | tuple cells => cells
  | list cells => cells

/-- `==` of two lists. -/
def listEq {α : Type} (eq : α → α → Bool) : List α → List α → Bool
  | [], [] => true
  | a :: as, b :: bs => eq a b && listEq eq as bs
  | _, _ => false

/-- A tuple is no list. -/
def NormRow.eq : NormRow → NormRow → Bool
  | .tuple a, .tuple b => listEq NormCell.eq a b
  | .list a, .list b => listEq NormCell.eq a b
  | _, _ => false

def normCell (f : Floats) : Cell → NormCell
  | .null => .str "\x00NULL\x00"
  | .int n => .float (f.round6 (f.ofInt n))
  | .float x => .float (f.round6 x)
  | .other shown => .str shown

def NormCell.shown (f : Floats) : NormCell → String
  | .float x => f.str x
  | .str s => s

/-- `normalize_rows`: the rows in the order of what their cells look like. -/
def normalizeRows (f : Floats) (rows : List (List Cell)) : List NormRow :=
  let key (cells : List NormCell) := cells.map (NormCell.shown f)
  ((rows.map fun row => row.map (normCell f)).mergeSort fun a b => decide (key a ≤ key b)).map .tuple

/-- What `execute_sql` comes to. -/
inductive Executed where
  | rows (data : List (List Cell))
  | failed (error : String)
  | raised (error : String)
  deriving DecidableEq, Repr

abbrev Executor := String → Executed

/-- `execute_sql` with its default cap. -/
def executor (env : Env) (database : SqlExecutor.Database) (url : Option String) : Executor :=
  fun sql =>
    match (SqlExecutor.executeSql env database sql 1000 url).2 with
    | some (.rows data _) => .rows (data.map fun row => row.map Cell.ofValue)
    | some (.failed error _) => .failed error
    | none => .raised "validation"

/-- An entry of the gold cache; `error` is `_error`. -/
structure GoldEntry where
  norm : Option (List NormRow)
  goldTimeMs : Rat
  goldRows : Nat
  error : Option String := none
  deriving DecidableEq, Repr

structure MatchInfo where
  ex : Bool
  detail : String
  goldTimeMs : Rat
  genTimeMs : Rat
  goldRows : Nat
  genRows : Nat
  deriving DecidableEq, Repr

structure Timing where
  goldMs : Rat
  genMs : Rat
  timedOut : Bool := false
  deriving DecidableEq, Repr

/-- The rest of `exec_match` once the gold rows are there. -/
def compareRows (f : Floats) (execute : Executor) (sqlB : String) (t : Timing)
    (normA : List NormRow) (goldTime : Rat) (goldRows : Nat) : MatchInfo :=
  if t.timedOut then
    ⟨false, "generated SQL timed out after 60s", goldTime, t.genMs, goldRows, 0⟩
  else
    match execute sqlB with
    | .raised e => ⟨false, "generated SQL error: " ++ Py.take 80 e, goldTime, t.genMs, goldRows, 0⟩
    | .failed e => ⟨false, "generated SQL failed: " ++ Py.take 80 e, goldTime, t.genMs, goldRows, 0⟩
    | .rows data =>
      if listEq NormRow.eq normA (normalizeRows f data) then
        ⟨true, "match (" ++ toString goldRows ++ " rows)", goldTime, t.genMs, goldRows, data.length⟩
      else
        ⟨false, "mismatch: gold=" ++ toString goldRows ++ " rows, gen=" ++ toString data.length ++
          " rows", goldTime, t.genMs, goldRows, data.length⟩

/-- `exec_match`; it raises where the execution of the gold statement does. -/
def execMatch (f : Floats) (execute : Executor) (sqlA sqlB : String) (goldCache : Option GoldEntry)
    (t : Timing) : Option MatchInfo :=
  match goldCache with
  | some entry =>
    match entry.norm with
    | none => some ⟨false, "gold unavailable: " ++ Py.take 80 (entry.error.getD "?"),
        entry.goldTimeMs, 0, 0, 0⟩
    | some norm =>
      let normA := norm.map fun row => NormRow.tuple row.cells
      some (compareRows f execute sqlB t normA entry.goldTimeMs entry.goldRows)
  | none =>
    match execute sqlA with
    | .raised _ => none
    | .failed e => some ⟨false, "gold SQL failed: " ++ Py.take 80 e, t.goldMs, 0, 0, 0⟩
    | .rows data =>
      some (compareRows f execute sqlB t (normalizeRows f data) t.goldMs data.length)

theorem listEq_self {α : Type} {eq : α → α → Bool} (xs : List α) :
    listEq eq xs xs = true ↔ ∀ x ∈ xs, eq x x = true := by
  induction xs with
  | nil => simp [listEq]
  | cons x rest ih => simp [listEq, ih]

theorem NormCell.eq_self (cell : NormCell) : cell.eq cell = true ↔ cell ≠ .float .nan := by
  cases cell with
  | float x => cases x <;> simp [NormCell.eq, PyFloat.eq]
  | str s => simp [NormCell.eq]

/-- No cell is a NaN. -/
def Comparable (rows : List NormRow) : Prop := ∀ row ∈ rows, ∀ cell ∈ row.cells, cell ≠ .float .nan

theorem rows_eq_self (rows : List NormRow) :
    listEq NormRow.eq rows rows = true ↔ Comparable rows := by
  rw [listEq_self]
  apply forall₂_congr
  intro row _
  cases row <;> simp [NormRow.eq, NormRow.cells, listEq_self, NormCell.eq_self]

theorem normalizeRows_tuples (f : Floats) (rows : List (List Cell)) :
    (normalizeRows f rows).map (fun row => NormRow.tuple row.cells) = normalizeRows f rows := by
  simp [normalizeRows, Function.comp_def, NormRow.cells]

theorem compareRows_self (f : Floats) (execute : Executor) (sql : String) (t : Timing)
    (goldTime : Rat) (goldRows : Nat) (inTime : t.timedOut = false)
    (executed : execute sql = .rows data) :
    (compareRows f execute sql t (normalizeRows f data) goldTime goldRows).ex = true ↔
      Comparable (normalizeRows f data) := by
  rw [← rows_eq_self, compareRows, inTime, if_neg Bool.false_ne_true, executed]
  by_cases same : listEq NormRow.eq (normalizeRows f data) (normalizeRows f data) = true
  · simp only [same, if_true]
  · simp only [same, Bool.false_eq_true, if_false]

end Metrics
end Nl2SqlAgent

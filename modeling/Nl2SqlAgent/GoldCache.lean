import Nl2SqlAgent.Metrics

/-! `evaluation/precompute_gold.py`: the rows of a gold statement are computed once and kept
in a file. Where the safe executor stumbles over a bind parameter, the rows come from the
driver itself. -/
namespace Nl2SqlAgent

open Lib

namespace GoldCache

open Metrics

/-- The driver without the gate and the cap: rows, or the text of an exception. -/
abbrev Driver := String → Except String (List (List Cell))

inductive GoldRun where
  | ok (norm : List NormRow) (goldTimeMs : Rat) (goldRows : Nat)
  | timeout (error : String) (goldTimeMs : Rat)
  | error (error : String) (goldTimeMs : Rat)
  deriving DecidableEq, Repr

structure GoldTiming where
  goldMs : Rat
  rawMs : Rat
  timeoutS : Nat := 30
  timedOut : Bool := false

/-- `_exec`; it raises where `execute_sql` does. -/
def exec (f : Floats) (case : Py.Case) (execute : Executor) (driver : Driver) (goldSql : String)
    (t : GoldTiming) : Option GoldRun :=
  match execute goldSql with
  | .raised _ => none
  | .rows data => some (.ok (normalizeRows f data) t.goldMs data.length)
  | .failed err =>
    if Py.contains "bind parameter" (case.lower err) then
      match driver goldSql with
      | .ok rows => some (.ok (normalizeRows f rows) t.rawMs rows.length)
      | .error e2 =>
        some (.error (Py.take 200 (Py.take 80 err ++ "; sqlite3 fallback: " ++ e2)) t.goldMs)
    else some (.error (Py.take 200 err) t.goldMs)

def runGold (f : Floats) (case : Py.Case) (execute : Executor) (driver : Driver) (goldSql : String)
    (t : GoldTiming) : Option GoldRun :=
  if t.timedOut then
    some (.timeout ("gold SQL timeout (" ++ toString t.timeoutS ++ "s)") (t.timeoutS * 1000))
  else exec f case execute driver goldSql t

def entryOf : GoldRun → GoldEntry
  | .ok norm goldTimeMs goldRows => ⟨some norm, goldTimeMs, goldRows, none⟩
  | .timeout error goldTimeMs => ⟨none, goldTimeMs, 0, some (Py.take 80 error)⟩
  | .error error goldTimeMs => ⟨none, goldTimeMs, 0, some (Py.take 80 error)⟩

/-- `json.load` of what `json.dump` writes: floats and texts come back as they were, and
tuples as lists. -/
def throughJson (entry : GoldEntry) : GoldEntry :=
  { entry with norm := entry.norm.map fun rows => rows.map fun row => .list row.cells }

def verdict (m : Option MatchInfo) : Option Bool := m.map MatchInfo.ex

/-- A gold statement matches itself with its entry, and without it the same way. -/
def SelfMatches (f : Floats) (execute : Executor) (goldSql : String) (run : GoldRun) (t : Timing) :
    Prop :=
  verdict (execMatch f execute goldSql goldSql (some (throughJson (entryOf run))) t) = some true ∧
    verdict (execMatch f execute goldSql goldSql none t) = some true

theorem runGold_ok {f : Floats} {case : Py.Case} {execute : Executor} {driver : Driver}
    {goldSql : String} {t : GoldTiming} {norm : List NormRow} {ms : Rat} {n : Nat}
    (ran : runGold f case execute driver goldSql t = some (.ok norm ms n)) :
    (∃ data, execute goldSql = .rows data ∧ norm = normalizeRows f data ∧ n = data.length) ∨
      ∃ err rows, execute goldSql = .failed err ∧ driver goldSql = .ok rows ∧
        norm = normalizeRows f rows := by
  unfold runGold exec at ran
  split at ran
  · cases ran
  cases executed : execute goldSql with
  | raised e => simp [executed] at ran
  | rows data =>
    simp only [executed, Option.some.injEq, GoldRun.ok.injEq] at ran
    obtain ⟨rfl, -, rfl⟩ := ran
    exact .inl ⟨data, rfl, rfl, rfl⟩
  | failed err =>
    cases fallback : driver goldSql with
    | error e2 =>
      simp only [executed, fallback] at ran
      split at ran <;> cases ran
    | ok rows =>
      simp only [executed, fallback] at ran
      split at ran
      · obtain ⟨rfl, -, -⟩ := GoldRun.ok.inj (Option.some.inj ran)
        exact .inr ⟨err, rows, rfl, rfl, rfl⟩
      · cases ran

/-- Every gold statement with a run that is ok matches itself exactly if the safe executor
runs it, so that its rows are not the driver's, and no number among them is a NaN. -/
theorem gold_self_match_iff {f : Floats} {case : Py.Case} {execute : Executor} {driver : Driver}
    {goldSql : String} {took : GoldTiming} {norm : List NormRow} {ms : Rat} {n : Nat} {t : Timing}
    (ran : runGold f case execute driver goldSql took = some (.ok norm ms n))
    (inTime : t.timedOut = false) :
    SelfMatches f execute goldSql (.ok norm ms n) t ↔
      (∃ data, execute goldSql = .rows data) ∧ Comparable norm := by
  have loaded (rows : List NormRow) : (rows.map fun row => NormRow.list row.cells).map
      (fun row => NormRow.tuple row.cells) = rows.map fun row => NormRow.tuple row.cells := by
    simp [Function.comp_def, NormRow.cells]
  rcases runGold_ok ran with ⟨data, executed, rfl, rfl⟩ | ⟨err, rows, failed, -, rfl⟩
  · have cached := compareRows_self f execute goldSql t ms data.length inTime executed
    have direct := compareRows_self f execute goldSql t t.goldMs data.length inTime executed
    simp only [SelfMatches, verdict, execMatch, throughJson, entryOf, Option.map_some, executed,
      loaded, normalizeRows_tuples, Option.some.injEq, cached, direct, and_self]
    exact ⟨fun comparable => ⟨⟨data, rfl⟩, comparable⟩, And.right⟩
  · refine iff_of_false ?_ ?_
    · rintro ⟨-, direct⟩
      simp [verdict, execMatch, failed] at direct
    · rintro ⟨⟨data, executed⟩, -⟩
      rw [failed] at executed
      contradiction

def exactFloats : Floats where
  ofInt n := .finite n
  round6 x := x
  str
    | .finite q => toString q.num ++ "/" ++ toString q.den
    | .negZero => "-0.0"
    | .infinite negative => if negative then "-inf" else "inf"
    | .nan => "nan"

/-- A database with one row, which takes a colon and what follows it for a parameter. -/
def shop : SqlExecutor.Database := fun _ sql =>
  if Py.contains ":" sql then .error "A value is required for bind parameter '__'"
  else .ok ([[.other "SKU-1", .null]], ["code","note"])

def driver : Driver := fun _ => .ok [[.other "SKU-1", .null]]

theorem gold_self_match_codes :
    let execute := executor .plain shop (some "sqlite:///shop.sqlite")
    ∃ norm ms n, runGold exactFloats .ascii execute driver "SELECT code, note FROM items" ⟨5, 5, 30, false⟩ =
        some (.ok norm ms n) ∧
      SelfMatches exactFloats execute "SELECT code, note FROM items" (.ok norm ms n) ⟨5, 5, false⟩ := by
  intro execute
  have ran : runGold exactFloats .ascii execute driver "SELECT code, note FROM items" ⟨5, 5, 30, false⟩ =
      some (.ok [.tuple [.str "SKU-1", .str "\x00NULL\x00"]] 5 1) := by decide +kernel
  refine ⟨_, _, _, ran, (gold_self_match_iff ran rfl).mpr ⟨?_, ?_⟩⟩
  · exact ⟨[[.other "SKU-1", .null]], by decide +kernel⟩
  · simp [Comparable, NormRow.cells]

/-- The pattern of a gold statement is taken for a parameter, and its rows come from the driver. -/
theorem fallback_not_matched :
    let execute := executor .plain shop (some "sqlite:///shop.sqlite")
    let goldSql := "SELECT code, note FROM items WHERE code LIKE '_:%:__.___'"
    ∃ norm ms n, runGold exactFloats .ascii execute driver goldSql ⟨5, 5, 30, false⟩ =
        some (.ok norm ms n) ∧
      verdict (execMatch exactFloats execute goldSql goldSql
        (some (throughJson (entryOf (.ok norm ms n)))) ⟨5, 5, false⟩) = some false := by
  refine ⟨[.tuple [.str "SKU-1", .str "\x00NULL\x00"]], 5, 1, ?_, ?_⟩
  · decide +kernel
  · decide +kernel

end GoldCache
end Nl2SqlAgent

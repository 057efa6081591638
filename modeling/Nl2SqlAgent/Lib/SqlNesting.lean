import Nl2SqlAgent.Lib.SqlLexer

/-! The parentheses and semicolons of SQL texts as a dialect reads them, and what a text in
parentheses must be like. -/
namespace Lib.Sql

inductive Mark where
  | opening | closing | semicolon
deriving DecidableEq, Repr

/-- The parentheses match, with `depth` of them open before, and no semicolon is inside any. -/
def nested : (depth : ℕ) → List Mark → Bool
  | depth, [] => decide (depth = 0)
  | depth, .opening :: marks => nested (depth + 1) marks
  | 0, .closing :: _ => false
  | depth + 1, .closing :: marks => nested depth marks
  | depth, .semicolon :: marks => decide (depth = 0) && nested depth marks

/-- How a dialect finds the marks between literals, quoted names and comments. No comment ends but
at a new line, an asterisk or a slash. -/
structure Lexis where
  State : Type
  start : State
  step : State → Char → State × List Mark
  inComment : State → Bool
  comment_step : inComment s = true → c ≠ '\n' → c ≠ '*' → c ≠ '/' →
    inComment (step s c).1 = true ∧ (step s c).2 = []

namespace Lexis

variable {L : Lexis}

def read (L : Lexis) (s : L.State) : List Char → L.State × List Mark
  | [] => (s, [])
  | c :: cs => ((L.read (L.step s c).1 cs).1, (L.step s c).2 ++ (L.read (L.step s c).1 cs).2)

def marks (L : Lexis) (text : List Char) : List Mark := (L.read L.start text).2

/-- The text ends outside of comments and its marks have no semicolon. -/
structure Closed (L : Lexis) (text : List Char) : Prop where
  ended : L.inComment (L.read L.start text).1 = false
  single : .semicolon ∉ L.marks text

theorem read_append (s : L.State) (xs ys : List Char) : L.read s (xs ++ ys) =
    ((L.read (L.read s xs).1 ys).1, (L.read s xs).2 ++ (L.read (L.read s xs).1 ys).2) := by
  induction xs generalizing s with
  | nil => rfl
  | cons c cs ih => simp [read, ih]

theorem read_comment {s : L.State} (comment : L.inComment s = true)
    (line : '\n' ∉ text) (star : '*' ∉ text) (slash : '/' ∉ text) : (L.read s text).2 = [] := by
  induction text generalizing s with
  | nil => rfl
  | cons c cs ih =>
    simp only [List.mem_cons, not_or] at line star slash
    obtain ⟨still, none⟩ := L.comment_step comment (Ne.symm line.1) (Ne.symm star.1) (Ne.symm slash.1)
    rw [read, none, ih still line.2 star.2 slash.2]
    rfl

end Lexis

/-- Marks that match on their own and also inside a parenthesis leave that parenthesis open. -/
theorem nested_inside (alone : nested d marks = true)
    (inside : nested (d + 1) (marks ++ rest) = true) :
    .semicolon ∉ marks ∧ nested 1 rest = true := by
  induction marks generalizing d with
  | nil =>
    obtain rfl : d = 0 := by simpa [nested] using alone
    exact ⟨List.not_mem_nil, inside⟩
  | cons mark marks ih =>
    cases mark with
    | opening =>
      obtain ⟨none, later⟩ := ih (d := d + 1) alone inside
      exact ⟨by simpa using none, later⟩
    | closing =>
      cases d with
      | zero => cases alone
      | succ d =>
        obtain ⟨none, later⟩ := ih (d := d) alone inside
        exact ⟨by simpa using none, later⟩
    | semicolon => simp [nested] at inside

/-- A text that reads well alone and in parentheses is closed. -/
theorem Lexis.closed_of_nested {L : Lexis} {before text after : List Char}
    (opens : L.read L.start before = (L.start, [.opening]))
    (line : '\n' ∉ after) (star : '*' ∉ after) (slash : '/' ∉ after)
    (alone : nested 0 (L.marks text) = true)
    (inside : nested 0 (L.marks (before ++ text ++ after)) = true) : L.Closed text := by
  have apart : L.marks (before ++ text ++ after) =
      .opening :: (L.marks text ++ (L.read (L.read L.start text).1 after).2) := by
    rw [marks, List.append_assoc, read_append, opens, read_append]
    rfl
  rw [apart] at inside
  obtain ⟨none, later⟩ := nested_inside alone inside
  refine ⟨?_, none⟩
  by_contra comment
  rw [read_comment (Bool.not_eq_false _ ▸ comment) line star slash] at later
  cases later

def Mode.inComment : Mode → Bool
  | .line | .block | .star => true
  | _ => false

def Token.mark : Token → Option Mark
  | .symbol '(' => some .opening
  | .symbol ')' => some .closing
  | .symbol ';' => some .semicolon
  | _ => none

/-- The standard lexis, as the lexer of this library reads it. -/
def ansi : Lexis where
  State := Mode
  start := .code
  step m c := ((Sql.step m c).1, (Sql.step m c).2.filterMap Token.mark)
  inComment := Mode.inComment
  comment_step := by
    rintro (_ | _ | _ | _ | _ | _ | _ | _ | _) c inside line star slash <;>
      simp_all [Mode.inComment, Sql.step]

instance : DecidableEq ansi.State := inferInstanceAs (DecidableEq Mode)

example : ansi.marks "SELECT (1; /* ) */ ')');".toList = [.opening,.semicolon,.closing,.semicolon] := by
  decide

end Lib.Sql

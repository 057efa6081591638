import Mathlib.Algebra.GroupWithZero.Nat
import Mathlib.Data.List.Basic

/-! What Python's `repr` writes for strings, tuples and lists, and that it can be read back. -/
namespace Lib.Py

/-- The last digits of a number in hexadecimal. -/
def hexDigits : Nat → Nat → List Char
  | 0, _ => []
  | width + 1, n => hexDigits width (n / 16) ++ [Nat.digitChar (n % 16)]

theorem hexDigits_length (width n : Nat) : (hexDigits width n).length = width := by
  induction width generalizing n with
  | zero => rfl
  | succ width ih => simp [hexDigits, ih]

theorem hexDigits_inj {width m n : Nat} (first : m < 16 ^ width) (second : n < 16 ^ width)
    (same : hexDigits width m = hexDigits width n) : m = n := by
  induction width generalizing m n with
  | zero => omega
  | succ width ih =>
    have digit : ∀ a < 16, ∀ b < 16, Nat.digitChar a = Nat.digitChar b → a = b := by decide
    rw [Nat.pow_succ, Nat.mul_comm] at first second
    obtain ⟨front, last⟩ := List.append_inj same (by simp [hexDigits_length])
    have quotients := ih (Nat.div_lt_of_lt_mul first) (Nat.div_lt_of_lt_mul second) front
    have remainders := digit _ (Nat.mod_lt m (by decide)) _ (Nat.mod_lt n (by decide)) (List.cons.inj last).1
    omega

/-- Written as it is; `printable` is about what is no ASCII. -/
def printed (printable : Char → Bool) (c : Char) : Bool :=
  if c.toNat < 0x80 then decide (0x20 ≤ c.toNat ∧ c.toNat ≠ 0x7f) else printable c

/-- What `repr` writes for one character of a string. -/
def escaped (printable : Char → Bool) (quote c : Char) : List Char :=
  if c = quote ∨ c = '\\' then ['\\', c]
  else if c = '\t' then ['\\', 't']
  else if c = '\n' then ['\\', 'n']
  else if c = '\r' then ['\\', 'r']
  else if printed printable c then [c]
  else if c.toNat < 0x100 then '\\' :: 'x' :: hexDigits 2 c.toNat
  else if c.toNat < 0x10000 then '\\' :: 'u' :: hexDigits 4 c.toNat
  else '\\' :: 'U' :: hexDigits 8 c.toNat

def quoteOf (s : List Char) : Char := if '\'' ∈ s ∧ '"' ∉ s then '"' else '\''

/-- `repr` of a string. -/
def reprStr (printable : Char → Bool) (s : String) : List Char :=
  quoteOf s.toList :: (s.toList.flatMap (escaped printable (quoteOf s.toList)) ++ [quoteOf s.toList])

/-- How many digits follow the letter after a backslash. -/
def width : Char → Nat
  | 'x' => 2
  | 'u' => 4
  | 'U' => 8
  | _ => 0

/-- What the other letters stand for. -/
def letter : Char → Char
  | 't' => '\t'
  | 'n' => '\n'
  | 'r' => '\r'
  | c => c

/-- A character as it is, or a backslash with a letter and its digits. -/
inductive Written (quote c : Char) : List Char → Prop where
  | plain (quoted : c ≠ quote) (slashed : c ≠ '\\') : Written quote c [c]
  | coded (tag : Char) (short : width tag = 0 → letter tag = c)
      (fits : width tag ≠ 0 → c.toNat < 16 ^ width tag) :
      Written quote c ('\\' :: tag :: hexDigits (width tag) c.toNat)

def IsQuote (quote : Char) : Prop := quote = '\'' ∨ quote = '"'

theorem quoteOf_quote (s : List Char) : IsQuote (quoteOf s) := by
  unfold quoteOf
  split
  · exact .inr rfl
  · exact .inl rfl

theorem escaped_written {quote : Char} (quotes : IsQuote quote) (printable : Char → Bool) (c : Char) :
    Written quote c (escaped printable quote c) := by
  unfold escaped
  split
  next special =>
    have short : width c = 0 ∧ letter c = c := by
      rcases quotes with rfl | rfl <;> rcases special with rfl | rfl <;> decide
    have coded : Written quote c _ := .coded c (fun _ => short.2) fun long => absurd short.1 long
    rwa [short.1] at coded
  next special =>
    obtain ⟨quoted, slashed⟩ := not_or.mp special
    split
    next tab => exact tab ▸ .coded 't' (fun _ => rfl) nofun
    split
    next line => exact line ▸ .coded 'n' (fun _ => rfl) nofun
    split
    next feed => exact feed ▸ .coded 'r' (fun _ => rfl) nofun
    split
    · exact .plain quoted slashed
    split
    next short => exact .coded 'x' nofun fun _ => short
    split
    next short => exact .coded 'u' nofun fun _ => short
    · exact .coded 'U' nofun fun _ => c.val.toNat_lt

theorem written_inj {quote c c' : Char} {text text' rest rest' : List Char}
    (written : Written quote c text) (written' : Written quote c' text')
    (same : text ++ rest = text' ++ rest') : c = c' ∧ rest = rest' := by
  cases written with
  | plain quoted slashed =>
    cases written' with
    | plain quoted' slashed' => exact List.cons.inj same
    | coded tag short fits => exact absurd (List.cons.inj same).1 slashed
  | coded tag short fits =>
    cases written' with
    | plain quoted' slashed' => exact absurd (List.cons.inj same).1.symm slashed'
    | coded tag' short' fits' =>
      obtain ⟨rfl, tails⟩ := List.cons.inj (List.cons.inj same).2
      obtain ⟨digits, rests⟩ := List.append_inj tails (by rw [hexDigits_length, hexDigits_length])
      refine ⟨?_, rests⟩
      by_cases none : width tag = 0
      · rw [← short none, ← short' none]
      · exact Char.toNat_inj.mp (hexDigits_inj (fits none) (fits' none) digits)

theorem written_open {quote c : Char} {text rest rest' : List Char} (quotes : IsQuote quote)
    (written : Written quote c text) : text ++ rest ≠ quote :: rest' := by
  intro same
  cases written with
  | plain quoted slashed => exact quoted (List.cons.inj same).1
  | coded tag short fits =>
    have slash : '\\' = quote := (List.cons.inj same).1
    rcases quotes with rfl | rfl <;> exact absurd slash (by decide)

theorem body_inj {printable : Char → Bool} {quote : Char} (quotes : IsQuote quote) {s t : List Char}
    {rest rest' : List Char} (same : s.flatMap (escaped printable quote) ++ quote :: rest =
      t.flatMap (escaped printable quote) ++ quote :: rest') : s = t ∧ rest = rest' := by
  have written := escaped_written quotes printable
  induction s generalizing t with
  | nil =>
    cases t with
    | nil => exact ⟨rfl, (List.cons.inj same).2⟩
    | cons d ds =>
      rw [List.flatMap_cons, List.append_assoc] at same
      exact absurd same.symm (written_open quotes (written d))
  | cons c cs ih =>
    cases t with
    | nil =>
      rw [List.flatMap_cons, List.append_assoc] at same
      exact absurd same (written_open quotes (written c))
    | cons d ds =>
      rw [List.flatMap_cons, List.flatMap_cons, List.append_assoc, List.append_assoc] at same
      obtain ⟨rfl, tails⟩ := written_inj (written c) (written d) same
      obtain ⟨rfl, rests⟩ := ih tails
      exact ⟨rfl, rests⟩

/-- Where a text stands first and may be followed by such a rest, it can be read off. -/
def Readable {α : Type u} (text : α → List Char) (follows : List Char → Prop) : Prop :=
  ∀ a b rest rest', follows rest → follows rest' → text a ++ rest = text b ++ rest' → a = b ∧ rest = rest'

theorem reprStr_readable (printable : Char → Bool) (follows : List Char → Prop) :
    Readable (reprStr printable) follows := by
  intro s t rest rest' _ _ same
  simp only [reprStr, List.cons_append, List.append_assoc, List.nil_append] at same
  obtain ⟨quote, bodies⟩ := List.cons.inj same
  rw [← quote] at bodies
  obtain ⟨chars, rests⟩ := body_inj (quoteOf_quote _) bodies
  exact ⟨String.ext chars, rests⟩

section Sequences

variable {α : Type u} {text : α → List Char} {close : Char} {rest rest' : List Char} {xs ys : List α}

/-- The elements after the first. -/
def more (text : α → List Char) (xs : List α) : List Char := xs.flatMap fun x => ',' :: ' ' :: text x

/-- `repr` of a tuple. -/
def tuple (text : α → List Char) : List α → List Char
  | [] => ['(', ')']
  | [x] => '(' :: (text x ++ [',', ')'])
  | x :: y :: rest => '(' :: (text x ++ (more text (y :: rest) ++ [')']))

/-- `repr` of a list. -/
def list (text : α → List Char) : List α → List Char
  | [] => ['[', ']']
  | x :: xs => '[' :: (text x ++ (more text xs ++ [']']))

def Ends (rest : List Char) : Prop := ∃ c tail, rest = c :: tail ∧ c ∈ [',', ')', ']']

theorem ends_more (closes : close ∈ [',', ')', ']']) : Ends (more text xs ++ close :: rest) := by
  cases xs with
  | nil => exact ⟨close, rest, rfl, closes⟩
  | cons x xs => exact ⟨',', _, rfl, by simp⟩

theorem more_inj (readable : Readable text Ends) (closes : close = ')' ∨ close = ']')
    (same : more text xs ++ close :: rest = more text ys ++ close :: rest') : xs = ys ∧ rest = rest' := by
  have inner : close ∈ [',', ')', ']'] := by rcases closes with rfl | rfl <;> simp
  have noComma : close ≠ ',' := by rcases closes with rfl | rfl <;> decide
  induction xs generalizing ys with
  | nil =>
    cases ys with
    | nil => exact ⟨rfl, (List.cons.inj same).2⟩
    | cons y ys => exact absurd (List.cons.inj same).1 noComma
  | cons x xs ih =>
    cases ys with
    | nil => exact absurd (List.cons.inj same).1.symm noComma
    | cons y ys =>
      simp only [more, List.flatMap_cons, List.cons_append, List.append_assoc, List.cons.injEq,
        true_and] at same
      obtain ⟨rfl, tails⟩ := readable x y _ _ (ends_more inner) (ends_more inner) same
      obtain ⟨rfl, rests⟩ := ih tails
      exact ⟨rfl, rests⟩

/-- No element begins with the end of a tuple. -/
def Begins (text : α → List Char) : Prop := ∀ x rest rest', text x ++ ',' :: rest ≠ ')' :: rest'

theorem tuple_cons (text : α → List Char) (x : α) (xs : List α) :
    ∃ after, tuple text (x :: xs) = '(' :: (text x ++ ',' :: after) ∧
      (xs = [] → after = [')']) ∧ (xs ≠ [] → ',' :: after = more text xs ++ [')']) := by
  cases xs with
  | nil => exact ⟨[')'], rfl, fun _ => rfl, fun some => absurd rfl some⟩
  | cons y ys => exact ⟨_, rfl, nofun, fun _ => rfl⟩

theorem tuple_readable (readable : Readable text Ends) (begins : Begins text)
    (follows : List Char → Prop) : Readable (tuple text) follows := by
  intro xs ys rest rest' _ _ same
  have comma (tail : List Char) : Ends (',' :: tail) := ⟨',', tail, rfl, by simp⟩
  cases xs with
  | nil =>
    cases ys with
    | nil => exact ⟨rfl, List.append_cancel_left same⟩
    | cons y ys =>
      obtain ⟨after, shape, -, -⟩ := tuple_cons text y ys
      rw [shape, List.cons_append, List.append_assoc] at same
      exact absurd (List.cons.inj same).2.symm (begins y _ _)
  | cons x xs =>
    obtain ⟨after, shape, single, several⟩ := tuple_cons text x xs
    simp only [shape, List.cons_append, List.append_assoc] at same
    cases ys with
    | nil => exact absurd (List.cons.inj same).2 (begins x _ _)
    | cons y ys =>
      obtain ⟨after', shape', single', several'⟩ := tuple_cons text y ys
      simp only [shape', List.cons_append, List.append_assoc] at same
      obtain ⟨rfl, tails⟩ := readable x y _ _ (comma _) (comma _) (List.cons.inj same).2
      -- one cell or more, as the character after the comma tells
      cases xs with
      | nil =>
        obtain rfl := single rfl
        cases ys with
        | nil =>
          obtain rfl := single' rfl
          exact ⟨rfl, (List.cons.inj (List.cons.inj tails).2).2⟩
        | cons z zs =>
          obtain ⟨-, rfl⟩ := List.cons.inj (several' nofun)
          simp at tails
      | cons w ws =>
        have front := several nofun
        cases ys with
        | nil =>
          obtain rfl := single' rfl
          obtain ⟨-, rfl⟩ := List.cons.inj front
          simp at tails
        | cons z zs =>
          rw [← List.cons_append, ← List.cons_append, front, several' nofun, List.append_assoc,
            List.append_assoc] at tails
          obtain ⟨equal, rests⟩ := more_inj readable (.inl rfl) tails
          exact ⟨by rw [equal], rests⟩

theorem list_inj (readable : Readable text Ends) (begins : ∀ x rest rest', text x ++ rest ≠ ']' :: rest')
    (same : list text xs = list text ys) : xs = ys := by
  cases xs with
  | nil =>
    cases ys with
    | nil => rfl
    | cons y ys => exact absurd (List.cons.inj same).2.symm (begins y _ _)
  | cons x xs =>
    cases ys with
    | nil => exact absurd (List.cons.inj same).2 (begins x _ _)
    | cons y ys =>
      have last : ']' ∈ [',', ')', ']'] := by simp
      obtain ⟨rfl, tails⟩ := readable x y _ _ (ends_more last) (ends_more last) (List.cons.inj same).2
      rw [(more_inj readable (.inr rfl) tails).1]

end Sequences
end Lib.Py

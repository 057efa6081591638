import Mathlib.Data.List.TakeWhile
import Nl2SqlAgent.Lib.Json
import Nl2SqlAgent.Lib.PyDict
import Nl2SqlAgent.Lib.PyRepr

/-! JSON texts. The writer escapes what cannot stand in a string and leaves every other
character as it is; the reader takes one value and gives what follows it. -/
namespace Lib.JsonText

/-- How numbers with a fraction or an exponent are written, and what is read from their texts. -/
structure Numerals where
  text : Rat → List Char
  value : List Char → Rat

def escape (c : Char) : List Char :=
  if c = '"' then ['\\', '"']
  else if c = '\\' then ['\\', '\\']
  else if c = '\n' then ['\\', 'n']
  else if c = '\r' then ['\\', 'r']
  else if c = '\t' then ['\\', 't']
  else if c = '\x08' then ['\\', 'b']
  else if c = '\x0c' then ['\\', 'f']
  else if c.toNat < 0x20 then '\\' :: 'u' :: Py.hexDigits 4 c.toNat
  else [c]

def quoted (s : String) : List Char := '"' :: (s.toList.flatMap escape ++ ['"'])

def intText : Int → List Char
  | .ofNat n => Nat.toDigits 10 n
  | .negSucc n => '-' :: Nat.toDigits 10 (n + 1)

/-- One after the other, with `, ` between them. -/
def joined (texts : List (List Char)) : List Char := [',', ' '].intercalate texts

mutual

def write (num : Numerals) : Json → List Char
  | .null => ['n', 'u', 'l', 'l']
  | .bool true => ['t', 'r', 'u', 'e']
  | .bool false => ['f', 'a', 'l', 's', 'e']
  | .int n => intText n
  | .float q => num.text q
  | .nonFinite => ['N', 'a', 'N']
  | .str s => quoted s
  | .arr items => '[' :: (joined (itemTexts num items) ++ [']'])
  | .obj fields => '{' :: (joined (fieldTexts num fields) ++ ['}'])

def itemTexts (num : Numerals) : List Json → List (List Char)
  | [] => []
  | item :: rest => write num item :: itemTexts num rest

def fieldTexts (num : Numerals) : List (String × Json) → List (List Char)
  | [] => []
  | field :: rest => (quoted field.1 ++ ':' :: ' ' :: write num field.2) :: fieldTexts num rest

end

def isBlank (c : Char) : Bool := c = ' ' || c = '\t' || c = '\n' || c = '\r'

def skip (s : List Char) : List Char := s.dropWhile isBlank

/-- What follows a word. -/
def after : List Char → List Char → Option (List Char)
  | [], s => some s
  | c :: w, d :: s => if c = d then after w s else none
  | _ :: _, [] => none

/-- The rest of a word by its first character, and what the word stands for. -/
def words : List (Char × List Char × Json) :=
  [('n', ['u', 'l', 'l'], .null), ('t', ['r', 'u', 'e'], .bool true),
    ('f', ['a', 'l', 's', 'e'], .bool false), ('N', ['a', 'N'], .nonFinite),
    ('I', ['n', 'f', 'i', 'n', 'i', 't', 'y'], .nonFinite),
    ('-', ['I', 'n', 'f', 'i', 'n', 'i', 't', 'y'], .nonFinite)]

def word (c : Char) (s : List Char) : Option (Json × List Char) :=
  (words.lookup c).bind fun entry => (after entry.1 s).map fun rest => (entry.2, rest)

def hexDigit (c : Char) : Option Nat :=
  if '0' ≤ c ∧ c ≤ '9' then some (c.toNat - 48)
  else if 'a' ≤ c ∧ c ≤ 'f' then some (c.toNat - 87)
  else if 'A' ≤ c ∧ c ≤ 'F' then some (c.toNat - 55)
  else none

def hexValue (digits : List Char) : Option Nat :=
  (digits.mapM hexDigit).map fun values => values.foldl (fun n d => 16 * n + d) 0

def hex : List Char → Option (Nat × List Char)
  | a :: b :: c :: d :: s => (hexValue [a, b, c, d]).map fun n => (n, s)
  | _ => none

/-- What the letters after a backslash stand for, `u` apart. -/
def letters : List (Char × Char) :=
  [('"', '"'), ('\\', '\\'), ('/', '/'), ('b', '\x08'), ('f', '\x0c'), ('n', '\n'), ('r', '\r'),
    ('t', '\t')]

/-- What stands behind a backslash. -/
def escaped : List Char → Option (Nat × List Char)
  | [] => none
  | c :: s => if c = 'u' then hex s else (letters.lookup c).map fun d => (d.toNat, s)

/-- A character of a string, by its number: half a pair of surrogates is read alone. -/
def unit : List Char → Option (Nat × List Char)
  | [] => none
  | c :: s =>
    if c = '\\' then escaped s else if c.toNat < 0x20 then none else some (c.toNat, s)

/-- Up to the closing quote. -/
def units : Nat → List Char → Option (List Nat × List Char)
  | 0, _ => none
  | _ + 1, [] => none
  | n + 1, c :: s =>
    if c = '"' then some ([], s)
    else (unit (c :: s)).bind fun read => (units n read.2).map fun more => (read.1 :: more.1, more.2)

def isHigh (u : Nat) : Bool := 0xd800 ≤ u && u < 0xdc00

def isLow (u : Nat) : Bool := 0xdc00 ≤ u && u < 0xe000

/-- Surrogates in pairs stand for one character; one alone for none. -/
def characters : List Nat → Option (List Char)
  | [] => some []
  | u :: us =>
    if isHigh u then
      match us with
      | [] => none
      | v :: us =>
        if isLow v then
          (characters us).map (Char.ofNat (0x10000 + (u - 0xd800) * 0x400 + (v - 0xdc00)) :: ·)
        else none
    else if isLow u then none
    else (characters us).map (Char.ofNat u :: ·)

/-- A string behind its opening quote. -/
def string (n : Nat) (s : List Char) : Option (String × List Char) :=
  (units n s).bind fun read => (characters read.1).map fun cs => (.ofList cs, read.2)

def sign : List Char → List Char × List Char
  | [] => ([], [])
  | c :: s => if c = '-' then (['-'], s) else ([], c :: s)

def whole : List Char → Option (List Char × List Char)
  | [] => none
  | c :: s =>
    if c = '0' then some (['0'], s)
    else if c.isDigit then some (c :: s.takeWhile Char.isDigit, s.dropWhile Char.isDigit)
    else none

/-- A mark and the digits behind it, if there are any. -/
def marked (mark s : List Char) (none : List Char) : List Char × List Char :=
  if s.takeWhile Char.isDigit = [] then ([], none)
  else (mark ++ s.takeWhile Char.isDigit, s.dropWhile Char.isDigit)

def fraction : List Char → List Char × List Char
  | [] => ([], [])
  | c :: s => if c = '.' then marked ['.'] s (c :: s) else ([], c :: s)

def signed : List Char → List Char × List Char
  | [] => ([], [])
  | c :: s => if c = '+' ∨ c = '-' then ([c], s) else ([], c :: s)

def exponent : List Char → List Char × List Char
  | [] => ([], [])
  | c :: s =>
    if c = 'e' ∨ c = 'E' then marked (c :: (signed s).1) (signed s).2 (c :: s) else ([], c :: s)

/-- The value of a number's text, in its four parts. -/
def numberValue (num : Numerals) (minus digits fraction exponent : List Char) : Json :=
  if fraction = [] ∧ exponent = [] then
    .int (if minus = [] then (Nat.ofDigitChars 10 digits 0 : Int)
      else -(Nat.ofDigitChars 10 digits 0 : Int))
  else .float (num.value (minus ++ digits ++ fraction ++ exponent))

def number (num : Numerals) (s : List Char) : Option (Json × List Char) :=
  (whole (sign s).2).map fun read =>
    (numberValue num (sign s).1 read.1 (fraction read.2).1 (exponent (fraction read.2).2).1,
      (exponent (fraction read.2).2).2)

variable {α : Type}

/-- Elements up to the closing character, commas between them. -/
def elements (read : List Char → Option (α × List Char)) (close : Char) :
    Nat → List Char → Option (List α × List Char)
  | 0, _ => none
  | n + 1, s =>
    (read s).bind fun item =>
      match skip item.2 with
      | [] => none
      | c :: rest =>
        if c = ',' then
          (elements read close n (skip rest)).map fun more => (item.1 :: more.1, more.2)
        else if c = close then some ([item.1], rest)
        else none

/-- What stands behind an opening bracket. -/
def group (read : List Char → Option (α × List Char)) (close : Char) (n : Nat) (s : List Char) :
    Option (List α × List Char) :=
  match skip s with
  | [] => none
  | c :: rest => if c = close then some ([], rest) else elements read close n (c :: rest)

def field (read : List Char → Option (Json × List Char)) (n : Nat) :
    List Char → Option ((String × Json) × List Char)
  | [] => none
  | c :: s =>
    if c = '"' then
      (string n s).bind fun key =>
        match skip key.2 with
        | [] => none
        | d :: rest =>
          if d = ':' then (read (skip rest)).map fun value => ((key.1, value.1), value.2)
          else none
    else none

/-- A value at the beginning of a text; a key that comes again takes the later value. -/
def value (num : Numerals) : Nat → List Char → Option (Json × List Char)
  | 0, _ => none
  | _ + 1, [] => none
  | n + 1, c :: s =>
    if c = '"' then (string n s).map fun read => (.str read.1, read.2)
    else if c = '{' then
      (group (field (value num n) n) '}' n s).map fun read => (.obj (PyDict.update [] read.1), read.2)
    else if c = '[' then (group (value num n) ']' n s).map fun read => (.arr read.1, read.2)
    else (word c s).or (number num (c :: s))

/-- A whole text; `none` where it is no JSON. -/
def read (num : Numerals) (s : List Char) : Option Json :=
  (value num (s.length + 1) (skip s)).bind fun found => if skip found.2 = [] then some found.1 else none

theorem escaped_cons (c : Char) (s : List Char) : escaped (c :: s) =
    if c = 'u' then hex s else (letters.lookup c).map fun d => (d.toNat, s) := rfl

theorem unit_cons (c : Char) (s : List Char) : unit (c :: s) =
    if c = '\\' then escaped s else if c.toNat < 0x20 then none else some (c.toNat, s) := rfl

theorem units_cons (n : Nat) (c : Char) (s : List Char) : units (n + 1) (c :: s) =
    if c = '"' then some ([], s)
    else (unit (c :: s)).bind fun read => (units n read.2).map fun more => (read.1 :: more.1, more.2) :=
  rfl

theorem elements_succ (read : List Char → Option (α × List Char)) (close : Char) (n : Nat)
    (s : List Char) : elements read close (n + 1) s =
      (read s).bind fun item =>
        match skip item.2 with
        | [] => none
        | c :: rest =>
          if c = ',' then
            (elements read close n (skip rest)).map fun more => (item.1 :: more.1, more.2)
          else if c = close then some ([item.1], rest)
          else none := rfl

theorem field_cons (read : List Char → Option (Json × List Char)) (n : Nat) (c : Char)
    (s : List Char) : field read n (c :: s) =
      if c = '"' then
        (string n s).bind fun key =>
          match skip key.2 with
          | [] => none
          | d :: rest =>
            if d = ':' then (read (skip rest)).map fun value => ((key.1, value.1), value.2)
            else none
      else none := rfl

theorem value_cons (num : Numerals) (n : Nat) (c : Char) (s : List Char) : value num (n + 1) (c :: s) =
    if c = '"' then (string n s).map fun read => (.str read.1, read.2)
    else if c = '\x7b' then
      (group (field (value num n) n) '\x7d' n s).map fun read => (.obj (PyDict.update [] read.1), read.2)
    else if c = '[' then (group (value num n) ']' n s).map fun read => (.arr read.1, read.2)
    else (word c s).or (number num (c :: s)) := rfl

section Strings

theorem hex_control : ∀ n < 0x20, hexValue (Py.hexDigits 4 n) = some n := by decide

theorem hex_digits (n : Nat) (s : List Char) :
    hex (Py.hexDigits 4 n ++ s) = (hexValue (Py.hexDigits 4 n)).map fun n => (n, s) := rfl

/-- The characters with a letter of their own. -/
def lettered : List Char := ['"', '\\', '\n', '\r', '\t', '\x08', '\x0c']

theorem escape_plain {c : Char} (plain : c ∉ lettered) :
    escape c = if c.toNat < 0x20 then '\\' :: 'u' :: Py.hexDigits 4 c.toNat else [c] := by
  simp only [lettered, List.mem_cons, List.not_mem_nil, or_false, not_or] at plain
  obtain ⟨quote, backslash, line, turn, tab, back, feed⟩ := plain
  rw [escape, if_neg quote, if_neg backslash, if_neg line, if_neg turn, if_neg tab, if_neg back,
    if_neg feed]

/-- A character with a letter of its own by cases, then the control characters, then the others. -/
theorem escape_cases (c : Char) : c ∈ lettered ∨
    (c.toNat < 0x20 ∧ escape c = '\\' :: 'u' :: Py.hexDigits 4 c.toNat) ∨
    (0x20 ≤ c.toNat ∧ c ≠ '"' ∧ c ≠ '\\' ∧ escape c = [c]) := by
  by_cases plain : c ∈ lettered
  · exact .inl plain
  · have text := escape_plain plain
    split at text
    next control => exact .inr (.inl ⟨control, text⟩)
    next visible =>
      refine .inr (.inr ⟨not_lt.mp visible, ?_, ?_, text⟩)
      · rintro rfl
        exact plain (by decide)
      · rintro rfl
        exact plain (by decide)

theorem unit_escape (c : Char) (s : List Char) : unit (escape c ++ s) = some (c.toNat, s) := by
  rcases escape_cases c with special | ⟨control, text⟩ | ⟨visible, -, backslash, text⟩
  · simp only [lettered, List.mem_cons, List.not_mem_nil, or_false] at special
    rcases special with rfl | rfl | rfl | rfl | rfl | rfl | rfl <;> rfl
  · rw [text]
    change hex (Py.hexDigits 4 c.toNat ++ s) = _
    rw [hex_digits, hex_control _ control]
    rfl
  · rw [text, List.singleton_append, unit_cons, if_neg backslash, if_neg (not_lt.mpr visible)]

theorem escape_cons (c : Char) : ∃ d t, escape c = d :: t ∧ d ≠ '"' := by
  rcases escape_cases c with special | ⟨-, text⟩ | ⟨-, quote, -, text⟩
  · simp only [lettered, List.mem_cons, List.not_mem_nil, or_false] at special
    rcases special with rfl | rfl | rfl | rfl | rfl | rfl | rfl <;> exact ⟨'\\', _, rfl, by decide⟩
  · exact ⟨'\\', _, text, by decide⟩
  · exact ⟨c, [], text, quote⟩

theorem units_escape (c : Char) (n : Nat) (s : List Char) :
    units (n + 1) (escape c ++ s) = (units n s).map fun more => (c.toNat :: more.1, more.2) := by
  obtain ⟨d, t, text, quote⟩ := escape_cons c
  have first := unit_escape c s
  rw [text, List.cons_append] at first ⊢
  rw [units_cons, if_neg quote, first]
  rfl

theorem units_text (cs : List Char) (n : Nat) (room : cs.length < n) (s : List Char) :
    units n (cs.flatMap escape ++ '"' :: s) = some (cs.map Char.toNat, s) := by
  induction cs generalizing n with
  | nil =>
    obtain ⟨n, rfl⟩ := Nat.exists_eq_succ_of_ne_zero (Nat.ne_of_gt room)
    rfl
  | cons c cs ih =>
    obtain ⟨n, rfl⟩ := Nat.exists_eq_succ_of_ne_zero (Nat.ne_zero_of_lt room)
    rw [List.flatMap_cons, List.append_assoc, units_escape, ih n (by simpa using room)]
    rfl

/-- No character is half a pair of surrogates. -/
theorem no_surrogate (c : Char) : isHigh c.toNat = false ∧ isLow c.toNat = false := by
  have valid := c.valid
  simp only [UInt32.isValidChar, Nat.isValidChar] at valid
  have number : c.toNat = c.val.toNat := rfl
  simp only [isHigh, isLow, Bool.and_eq_false_iff, decide_eq_false_iff_not]
  omega

theorem characters_toNat (cs : List Char) : characters (cs.map Char.toNat) = some cs := by
  induction cs with
  | nil => rfl
  | cons c cs ih =>
    rw [List.map_cons, characters.eq_def]
    simp [no_surrogate, ih]

theorem string_text (s : String) (n : Nat) (room : s.toList.length < n) (rest : List Char) :
    string n (s.toList.flatMap escape ++ '"' :: rest) = some (s, rest) := by
  rw [string, units_text _ _ room]
  simp [characters_toNat, String.ofList_toList]

end Strings

section Numbers

def Digits (ds : List Char) : Prop := ∀ d ∈ ds, d.isDigit = true

def IsWhole (w : List Char) : Prop := w = ['0'] ∨ ∃ c ds, w = c :: ds ∧ c ≠ '0' ∧ Digits (c :: ds)

def IsFraction (f : List Char) : Prop := f = [] ∨ ∃ ds, f = '.' :: ds ∧ ds ≠ [] ∧ Digits ds

def IsExponent (e : List Char) : Prop :=
  e = [] ∨ ∃ c mark ds, e = c :: (mark ++ ds) ∧ (c = 'e' ∨ c = 'E') ∧
    (mark = [] ∨ mark = ['+'] ∨ mark = ['-']) ∧ ds ≠ [] ∧ Digits ds

/-- The text of a number, and the number. -/
inductive NumberText (num : Numerals) : List Char → Json → Prop where
  | intro {minus digits fraction exponent : List Char} (sign : minus = [] ∨ minus = ['-'])
      (whole : IsWhole digits) (isFraction : IsFraction fraction) (isExponent : IsExponent exponent) :
      NumberText num (minus ++ digits ++ fraction ++ exponent)
        (numberValue num minus digits fraction exponent)

/-- What can stand behind a number. -/
def Ends (s : List Char) : Prop :=
  ∀ c ∈ s.head?, c.isDigit = false ∧ c ≠ '.' ∧ c ≠ 'e' ∧ c ≠ 'E'

variable {num : Numerals} {w f e ds rest s t : List Char} {j : Json}

theorem ends_nil : Ends [] := fun _ member => nomatch member

theorem ends_cons {c : Char} (ends : c.isDigit = false ∧ c ≠ '.' ∧ c ≠ 'e' ∧ c ≠ 'E')
    (s : List Char) : Ends (c :: s) := fun _ member => Option.some.inj member ▸ ends

theorem digits_append (digits : Digits ds) (stop : ∀ c ∈ s.head?, c.isDigit = false) :
    (ds ++ s).takeWhile Char.isDigit = ds ∧ (ds ++ s).dropWhile Char.isDigit = s := by
  rw [List.takeWhile_append_of_pos digits, List.dropWhile_append_of_pos digits]
  cases s with
  | nil => simp
  | cons c s => simp [stop c rfl]

theorem marked_append (mark other : List Char) (digits : Digits ds) (some_ : ds ≠ [])
    (stop : ∀ c ∈ s.head?, c.isDigit = false) : marked mark (ds ++ s) other = (mark ++ ds, s) := by
  obtain ⟨taken, left⟩ := digits_append digits stop
  rw [marked, taken, left, if_neg some_]

theorem whole_append (isWhole : IsWhole w) (stop : ∀ c ∈ s.head?, c.isDigit = false) :
    whole (w ++ s) = some (w, s) := by
  rcases isWhole with rfl | ⟨c, ds, rfl, nonzero, digits⟩
  · rfl
  · obtain ⟨taken, left⟩ := digits_append (List.forall_mem_cons.mp digits).2 stop
    rw [List.cons_append, whole, if_neg nonzero, if_pos (digits c List.mem_cons_self), taken, left]

theorem fraction_append (isFraction : IsFraction f) (stop : ∀ c ∈ s.head?, c.isDigit = false ∧ c ≠ '.') :
    fraction (f ++ s) = (f, s) := by
  rcases isFraction with rfl | ⟨ds, rfl, some_, digits⟩
  · cases s with
    | nil => rfl
    | cons c s => exact if_neg (stop c rfl).2
  · exact marked_append ['.'] _ digits some_ fun c member => (stop c member).1

theorem signed_append {mark : List Char} (marks : mark = [] ∨ mark = ['+'] ∨ mark = ['-'])
    (digit : ∃ c t, s = c :: t ∧ c.isDigit = true) : signed (mark ++ s) = (mark, s) := by
  rcases marks with rfl | rfl | rfl
  · obtain ⟨c, t, rfl, digit⟩ := digit
    refine if_neg ?_
    rintro (rfl | rfl) <;> exact absurd digit (by decide)
  · rfl
  · rfl

theorem exponent_append (isExponent : IsExponent e) (ends : Ends s) : exponent (e ++ s) = (e, s) := by
  have stop : ∀ c ∈ s.head?, c.isDigit = false := fun c member => (ends c member).1
  rcases isExponent with rfl | ⟨c, mark, ds, rfl, letter, marks, some_, digits⟩
  · cases s with
    | nil => rfl
    | cons c s => exact if_neg fun letter => letter.elim (ends c rfl).2.2.1 (ends c rfl).2.2.2
  · have digit : ∃ c t, ds ++ s = c :: t ∧ c.isDigit = true := by
      cases ds with
      | nil => contradiction
      | cons d ds => exact ⟨d, ds ++ s, rfl, digits d List.mem_cons_self⟩
    rw [List.cons_append, List.append_assoc, exponent, if_pos letter, signed_append marks digit,
      marked_append _ _ digits some_ stop, List.cons_append]

theorem whole_head (isWhole : IsWhole w) : ∃ c t, w = c :: t ∧ c.isDigit = true := by
  rcases isWhole with rfl | ⟨c, ds, rfl, -, digits⟩
  · exact ⟨'0', [], rfl, rfl⟩
  · exact ⟨c, ds, rfl, digits c List.mem_cons_self⟩

theorem sign_append (signs : w = [] ∨ w = ['-']) (digit : ∃ c t, s = c :: t ∧ c.isDigit = true) :
    sign (w ++ s) = (w, s) := by
  rcases signs with rfl | rfl
  · obtain ⟨c, t, rfl, digit⟩ := digit
    refine if_neg ?_
    rintro rfl
    exact absurd digit (by decide)
  · rfl

/-- The text of a number is read up to its end. -/
theorem number_text (text : NumberText num w j) (ends : Ends rest) :
    number num (w ++ rest) = some (j, rest) := by
  obtain ⟨signs, isWhole, isFraction, isExponent⟩ := text
  rename_i minus digits f e
  have behind : ∀ c ∈ (e ++ rest).head?, c.isDigit = false ∧ c ≠ '.' := by
    rcases isExponent with rfl | ⟨c, mark, ds, rfl, letter, -⟩
    · exact fun c member => ⟨(ends c member).1, (ends c member).2.1⟩
    · rintro _ ⟨⟩
      rcases letter with rfl | rfl <;> decide
  have further : ∀ c ∈ (f ++ (e ++ rest)).head?, c.isDigit = false := by
    rcases isFraction with rfl | ⟨ds, rfl, -⟩
    · exact fun c member => (behind c member).1
    · rintro _ ⟨⟩
      rfl
  obtain ⟨c, t, head, digit⟩ := whole_head isWhole
  have signed : sign (minus ++ (digits ++ (f ++ (e ++ rest)))) = (minus, digits ++ (f ++ (e ++ rest))) :=
    sign_append signs ⟨c, t ++ (f ++ (e ++ rest)), by rw [head, List.cons_append], digit⟩
  simp only [List.append_assoc]
  rw [number, signed, whole_append isWhole further]
  simp only [Option.map_some, fraction_append isFraction behind, exponent_append isExponent ends]

theorem marked_sound (mark other : List Char) :
    marked mark s other = ([], other) ∨ ∃ ds, ds ≠ [] ∧ Digits ds ∧
      marked mark s other = (mark ++ ds, s.dropWhile Char.isDigit) ∧
      s = ds ++ s.dropWhile Char.isDigit := by
  by_cases none : s.takeWhile Char.isDigit = []
  · exact .inl (if_pos none)
  · exact .inr ⟨_, none, fun d => List.mem_takeWhile_imp, if_neg none,
      List.takeWhile_append_dropWhile.symm⟩

theorem fraction_sound (s : List Char) :
    IsFraction (fraction s).1 ∧ s = (fraction s).1 ++ (fraction s).2 := by
  cases s with
  | nil => exact ⟨.inl rfl, rfl⟩
  | cons c s =>
    by_cases point : c = '.'
    · have read : fraction (c :: s) = marked ['.'] s (c :: s) := if_pos point
      rcases marked_sound (s := s) ['.'] (c :: s) with none | ⟨ds, some_, digits, eq, parts⟩
      · rw [read, none]
        exact ⟨.inl rfl, rfl⟩
      · rw [read, eq]
        exact ⟨.inr ⟨ds, rfl, some_, digits⟩, congrArg₂ List.cons point parts⟩
    · rw [show fraction (c :: s) = ([], c :: s) from if_neg point]
      exact ⟨.inl rfl, rfl⟩

theorem signed_sound (s : List Char) :
    ((signed s).1 = [] ∨ (signed s).1 = ['+'] ∨ (signed s).1 = ['-']) ∧
      s = (signed s).1 ++ (signed s).2 := by
  cases s with
  | nil => exact ⟨.inl rfl, rfl⟩
  | cons c s =>
    by_cases mark : c = '+' ∨ c = '-'
    · rw [show signed (c :: s) = ([c], s) from if_pos mark]
      exact ⟨.inr (mark.imp (congrArg fun c => [c]) (congrArg fun c => [c])), rfl⟩
    · rw [show signed (c :: s) = ([], c :: s) from if_neg mark]
      exact ⟨.inl rfl, rfl⟩

theorem exponent_sound (s : List Char) :
    IsExponent (exponent s).1 ∧ s = (exponent s).1 ++ (exponent s).2 := by
  cases s with
  | nil => exact ⟨.inl rfl, rfl⟩
  | cons c s =>
    by_cases letter : c = 'e' ∨ c = 'E'
    · have read : exponent (c :: s) = marked (c :: (signed s).1) (signed s).2 (c :: s) := if_pos letter
      obtain ⟨marks, front⟩ := signed_sound s
      rcases marked_sound (s := (signed s).2) (c :: (signed s).1) (c :: s) with
        none | ⟨ds, some_, digits, eq, parts⟩
      · rw [read, none]
        exact ⟨.inl rfl, rfl⟩
      · rw [read, eq]
        refine ⟨.inr ⟨c, _, ds, rfl, letter, marks, some_, digits⟩, ?_⟩
        rw [List.cons_append, List.cons_append, List.append_assoc, ← parts, ← front]
    · rw [show exponent (c :: s) = ([], c :: s) from if_neg letter]
      exact ⟨.inl rfl, rfl⟩

theorem whole_sound (found : whole s = some (w, t)) : IsWhole w ∧ s = w ++ t := by
  cases s with
  | nil => contradiction
  | cons c s =>
    by_cases zero : c = '0'
    · rw [show whole (c :: s) = some (['0'], s) from if_pos zero] at found
      obtain ⟨rfl, rfl⟩ := Prod.mk.inj (Option.some.inj found)
      exact ⟨.inl rfl, congrArg (· :: s) zero⟩
    · rw [whole, if_neg zero] at found
      obtain ⟨digit, read⟩ := Option.ite_none_right_eq_some.mp found
      obtain ⟨rfl, rfl⟩ := Prod.mk.inj (Option.some.inj read)
      refine ⟨.inr ⟨c, _, rfl, zero, List.forall_mem_cons.mpr ⟨digit, fun d => List.mem_takeWhile_imp⟩⟩, ?_⟩
      rw [List.cons_append, List.takeWhile_append_dropWhile]

theorem sign_sound (s : List Char) :
    ((sign s).1 = [] ∨ (sign s).1 = ['-']) ∧ s = (sign s).1 ++ (sign s).2 := by
  cases s with
  | nil => exact ⟨.inl rfl, rfl⟩
  | cons c s =>
    by_cases minus : c = '-'
    · rw [show sign (c :: s) = (['-'], s) from if_pos minus]
      exact ⟨.inr rfl, congrArg (· :: s) minus⟩
    · rw [show sign (c :: s) = ([], c :: s) from if_neg minus]
      exact ⟨.inl rfl, rfl⟩

/-- A number that is read stands at the beginning of the text. -/
theorem number_sound (found : number num s = some (j, rest)) :
    ∃ w, NumberText num w j ∧ s = w ++ rest := by
  obtain ⟨⟨digits, behind⟩, read, same⟩ := Option.map_eq_some_iff.mp found
  obtain ⟨rfl, rfl⟩ := Prod.mk.inj same
  obtain ⟨isWhole, parts⟩ := whole_sound read
  obtain ⟨signs, first⟩ := sign_sound s
  obtain ⟨isFraction, second⟩ := fraction_sound behind
  obtain ⟨isExponent, third⟩ := exponent_sound (fraction behind).2
  refine ⟨_, .intro signs isWhole isFraction isExponent, ?_⟩
  simp only [List.append_assoc]
  rw [← third, ← second, ← parts, ← first]

/-- The first character of a number, and what is no word. -/
theorem numberText_head (text : NumberText num w j) :
    ∃ c t, w = c :: t ∧ (c.isDigit = true ∨ c = '-' ∧ ∃ d u, t = d :: u ∧ d.isDigit = true) := by
  obtain ⟨signs, isWhole, -, -⟩ := text
  obtain ⟨c, t, rfl, digit⟩ := whole_head isWhole
  rcases signs with rfl | rfl
  · exact ⟨c, _, rfl, .inl digit⟩
  · exact ⟨'-', _, rfl, .inr ⟨rfl, c, _, rfl, digit⟩⟩

theorem toDigits_whole (n : Nat) : IsWhole (Nat.toDigits 10 n) := by
  induction n using Nat.strong_induction_on with
  | _ n ih =>
    by_cases small : n < 10
    · rw [Nat.toDigits_of_lt_base small]
      by_cases zero : n = 0
      · exact .inl (by rw [zero]; rfl)
      · refine .inr ⟨_, [], rfl, by simpa using zero, fun d member => ?_⟩
        obtain rfl := List.mem_singleton.mp member
        rw [Nat.isDigit_digitChar]
        exact decide_eq_true small
    · have last : (Nat.digitChar (n % 10)).isDigit = true := by
        rw [Nat.isDigit_digitChar]
        exact decide_eq_true (Nat.mod_lt n (by decide))
      rw [Nat.toDigits_of_base_le (by decide) (not_lt.mp small)]
      rcases ih (n / 10) (by omega) with zero | ⟨c, ds, text, nonzero, digits⟩
      · have value := congrArg (Nat.ofDigitChars 10 · 0) zero
        simp only [Nat.ofDigitChars_ten_toDigits] at value
        exact absurd value (by simp [Nat.ofDigitChars]; omega)
      · refine .inr ⟨c, ds ++ [Nat.digitChar (n % 10)], by rw [text]; rfl, nonzero, ?_⟩
        rw [← List.cons_append]
        exact fun d member => (List.mem_append.mp member).elim (digits d) fun member =>
          List.mem_singleton.mp member ▸ last

theorem intText_number (num : Numerals) (n : Int) : NumberText num (intText n) (.int n) := by
  cases n with
  | ofNat n =>
    have text : NumberText num _ _ := .intro (.inl rfl) (toDigits_whole n) (.inl rfl) (.inl rfl)
    simpa [numberValue, intText] using text
  | negSucc n =>
    have text : NumberText num _ _ := .intro (.inr rfl) (toDigits_whole (n + 1)) (.inl rfl) (.inl rfl)
    simpa [numberValue, intText, Int.negSucc_eq] using text

end Numbers

section Values

/-- What can stand behind a value inside of brackets. -/
def Closed (s : List Char) : Prop := Ends s ∧ s ≠ []

mutual

/-- The keys of an object are distinct, and the numbers are written as numbers that are read
back. -/
def Writable (num : Numerals) : Json → Prop
  | .float q => NumberText num (num.text q) (.float q)
  | .arr items => WritableItems num items
  | .obj fields => (fields.map Prod.fst).Nodup ∧ WritableFields num fields
  | _ => True

def WritableItems (num : Numerals) : List Json → Prop
  | [] => True
  | item :: rest => Writable num item ∧ WritableItems num rest

def WritableFields (num : Numerals) : List (String × Json) → Prop
  | [] => True
  | field :: rest => Writable num field.2 ∧ WritableFields num rest

end

variable {num : Numerals} {read read' : List Char → Option (α × List Char)} {close : Char}
  {text : α → List Char} {xs : List α} {x : α} {n m : Nat} {rest s t w : List Char} {j : Json}

theorem writable_item {items : List Json} (writable : WritableItems num items) {item : Json}
    (member : item ∈ items) : Writable num item := by
  induction items with
  | nil => contradiction
  | cons first more ih =>
    rcases List.mem_cons.mp member with rfl | later
    · exact writable.1
    · exact ih writable.2 later

theorem writable_field {fields : List (String × Json)} (writable : WritableFields num fields)
    {field : String × Json} (member : field ∈ fields) : Writable num field.2 := by
  induction fields with
  | nil => contradiction
  | cons first more ih =>
    rcases List.mem_cons.mp member with rfl | later
    · exact writable.1
    · exact ih writable.2 later

def fieldText (num : Numerals) (field : String × Json) : List Char :=
  quoted field.1 ++ ':' :: ' ' :: write num field.2

theorem itemTexts_eq (items : List Json) : itemTexts num items = items.map (write num) := by
  induction items with
  | nil => rfl
  | cons item rest ih => exact congrArg (write num item :: ·) ih

theorem fieldTexts_eq (fields : List (String × Json)) :
    fieldTexts num fields = fields.map (fieldText num) := by
  induction fields with
  | nil => rfl
  | cons field rest ih => exact congrArg (fieldText num field :: ·) ih

theorem joined_cons_cons (a b : List Char) (texts : List (List Char)) :
    joined (a :: b :: texts) = a ++ ',' :: ' ' :: joined (b :: texts) := by
  rw [joined, List.intercalate_cons_cons, List.append_assoc]
  rfl

theorem joined_singleton (a : List Char) : joined [a] = a := by simp [joined]

theorem skip_cons {c : Char} (solid : isBlank c = false) (s : List Char) : skip (c :: s) = c :: s := by
  rw [skip, List.dropWhile_cons_of_neg (by simp [solid])]

/-- The text of an element begins so that it is seen as one. -/
def Begins (close : Char) (text : List Char) : Prop :=
  ∃ c t, text = c :: t ∧ isBlank c = false ∧ c ≠ close

theorem Begins.skip (begins : Begins close w) (s : List Char) : skip (w ++ s) = w ++ s := by
  obtain ⟨c, t, rfl, solid, -⟩ := begins
  exact skip_cons solid _

/-- Elements that can be read one by one are read up to the closing character. -/
theorem elements_joined (other : close ≠ ',') (solid : isBlank close = false) (ends : Ends [close])
    (begins : ∀ y ∈ x :: xs, Begins close (text y))
    (each : ∀ y ∈ x :: xs, ∀ rest, Ends rest → read (text y ++ rest) = some (y, rest))
    (room : xs.length < n) :
    elements read close n (joined ((x :: xs).map text) ++ close :: rest) = some (x :: xs, rest) := by
  induction xs generalizing x n with
  | nil =>
    obtain ⟨n, rfl⟩ := Nat.exists_eq_succ_of_ne_zero (Nat.ne_of_gt room)
    have ending : Ends (close :: rest) := fun c member => ends c member
    rw [List.map_singleton, joined_singleton, elements_succ, each x List.mem_cons_self _ ending]
    simp only [Option.bind_some, skip_cons solid, if_neg other, if_true]
  | cons y ys ih =>
    obtain ⟨n, rfl⟩ := Nat.exists_eq_succ_of_ne_zero (Nat.ne_zero_of_lt room)
    have behind := ih (x := y) (n := n) (fun z member => begins z (List.mem_cons_of_mem _ member))
      (fun z member => each z (List.mem_cons_of_mem _ member)) (by simpa using room)
    have comma : Ends (',' :: ' ' :: (joined ((y :: ys).map text) ++ close :: rest)) :=
      ends_cons (by decide) _
    have blank (s : List Char) : skip (' ' :: s) = skip s := rfl
    have start : ∃ more, joined ((y :: ys).map text) = text y ++ more := by
      cases ys with
      | nil => exact ⟨[], by simp [joined_singleton]⟩
      | cons z zs => exact ⟨_, by rw [List.map_cons, List.map_cons, joined_cons_cons]⟩
    obtain ⟨more, start⟩ := start
    rw [List.map_cons, List.map_cons, joined_cons_cons, ← List.map_cons, List.append_assoc,
      List.cons_append, List.cons_append, elements_succ, each x List.mem_cons_self _ comma]
    have solid : skip (',' :: ' ' :: (joined ((y :: ys).map text) ++ close :: rest)) =
        ',' :: ' ' :: (joined ((y :: ys).map text) ++ close :: rest) := skip_cons rfl _
    simp only [Option.bind_some, solid, if_true, blank]
    rw [start, List.append_assoc, (begins y (by simp)).skip, ← List.append_assoc, ← start, behind]
    rfl

theorem group_joined (other : close ≠ ',') (solid : isBlank close = false) (ends : Ends [close])
    (begins : ∀ y ∈ xs, Begins close (text y))
    (each : ∀ y ∈ xs, ∀ rest, Ends rest → read (text y ++ rest) = some (y, rest))
    (room : xs.length ≤ n) :
    group read close n (joined (xs.map text) ++ close :: rest) = some (xs, rest) := by
  cases xs with
  | nil =>
    rw [group, show joined (List.map text []) ++ close :: rest = close :: rest from rfl,
      skip_cons solid]
    exact if_pos rfl
  | cons x xs =>
    have all : elements read close n (joined ((x :: xs).map text) ++ close :: rest) = _ :=
      elements_joined other solid ends begins each room
    obtain ⟨c, t, first, open_, opening⟩ := begins x List.mem_cons_self
    have start : ∃ more, joined ((x :: xs).map text) ++ close :: rest = c :: more := by
      cases xs with
      | nil => exact ⟨_, by rw [List.map_singleton, joined_singleton, first]; rfl⟩
      | cons y ys => exact ⟨_, by rw [List.map_cons, List.map_cons, joined_cons_cons, first]; rfl⟩
    obtain ⟨more, start⟩ := start
    rw [start] at all ⊢
    rw [group, skip_cons open_]
    exact (if_neg opening).trans all

/-- A value begins as one. -/
theorem write_begins (writable : Writable num j) : Begins ']' (write num j) := by
  have digit {c : Char} (digit : c.isDigit = true) : isBlank c = false ∧ c ≠ ']' := by
    constructor
    · by_contra blank
      simp only [isBlank, Bool.not_eq_false, Bool.or_eq_true, decide_eq_true_eq] at blank
      rcases blank with ((rfl | rfl) | rfl) | rfl <;> exact absurd digit (by decide)
    · rintro rfl
      exact absurd digit (by decide)
  have number {w : List Char} {k : Json} (text : NumberText num w k) : Begins ']' w := by
    obtain ⟨c, t, rfl, first | ⟨rfl, -⟩⟩ := numberText_head text
    · exact ⟨c, t, rfl, digit first⟩
    · exact ⟨'-', t, rfl, by decide⟩
  cases j with
  | null => exact ⟨'n', _, rfl, by decide⟩
  | bool b => cases b <;> exact ⟨_, _, rfl, by decide⟩
  | int n => exact number (intText_number num n)
  | float q => exact number writable
  | nonFinite => exact ⟨'N', _, rfl, by decide⟩
  | str s => exact ⟨'"', _, rfl, by decide⟩
  | arr items => exact ⟨'[', _, rfl, by decide⟩
  | obj fields => exact ⟨'{', _, rfl, by decide⟩

theorem length_joined (texts : List (List Char)) : texts.length ≤ (joined texts).length + 1 := by
  induction texts with
  | nil => exact Nat.zero_le _
  | cons a texts ih =>
    cases texts with
    | nil => simp
    | cons b texts =>
      rw [joined_cons_cons]
      simp only [List.length_cons, List.length_append] at ih ⊢
      omega

theorem length_member {texts : List (List Char)} (member : w ∈ texts) :
    w.length ≤ (joined texts).length := by
  induction texts with
  | nil => contradiction
  | cons a texts ih =>
    cases texts with
    | nil =>
      obtain rfl := List.mem_singleton.mp member
      rw [joined_singleton]
    | cons b texts =>
      rw [joined_cons_cons]
      simp only [List.length_cons, List.length_append]
      rcases List.mem_cons.mp member with rfl | later
      · omega
      · have := ih later
        omega

theorem length_escaped (cs : List Char) : cs.length ≤ (cs.flatMap escape).length := by
  induction cs with
  | nil => exact Nat.le_refl 0
  | cons c cs ih =>
    obtain ⟨d, t, text, -⟩ := escape_cons c
    rw [List.flatMap_cons, text]
    simp only [List.length_cons, List.length_append]
    omega

theorem set_fresh {V : Type} (d : PyDict String V) {k : String} (v : V) (fresh : k ∉ d.map Prod.fst) :
    d.set k v = d ++ [(k, v)] := by
  induction d with
  | nil => rfl
  | cons item rest ih =>
    obtain ⟨other, later⟩ := not_or.mp fun member => fresh (List.mem_cons.mpr member)
    unfold PyDict.set
    rw [if_neg (Ne.symm other), ih later, List.cons_append]

/-- Items with distinct keys come into an empty dictionary as they are. -/
theorem update_distinct {V : Type} (d items : PyDict String V)
    (distinct : ((d ++ items).map Prod.fst).Nodup) : PyDict.update d items = d ++ items := by
  induction items generalizing d with
  | nil => exact (List.append_nil d).symm
  | cons item rest ih =>
    have fresh : item.1 ∉ d.map Prod.fst := fun member =>
      (List.nodup_append.mp (List.map_append ▸ distinct)).2.2 _ member _ (by simp) rfl
    have eq := set_fresh d item.2 fresh
    have again : ((d ++ [(item.1, item.2)]) ++ rest) = d ++ item :: rest := by simp
    calc PyDict.update d (item :: rest) = PyDict.update (d.set item.1 item.2) rest := rfl
      _ = PyDict.update (d ++ [(item.1, item.2)]) rest := by rw [eq]
      _ = d ++ item :: rest := by rw [ih _ (by rwa [again]), again]

theorem field_text {item : List Char → Option (Json × List Char)} (n : Nat) {field : String × Json}
    (rest : List Char) (begins : Begins ']' (write num field.2)) (room : field.1.toList.length < n)
    (each : item (write num field.2 ++ rest) = some (field.2, rest)) :
    JsonText.field item n (fieldText num field ++ rest) = some (field, rest) := by
  have text : fieldText num field ++ rest = '"' :: (field.1.toList.flatMap escape ++
      '"' :: ':' :: ' ' :: (write num field.2 ++ rest)) := by
    simp [fieldText, quoted]
  have blank : skip (' ' :: (write num field.2 ++ rest)) = write num field.2 ++ rest := begins.skip rest
  have colon : skip (':' :: ' ' :: (write num field.2 ++ rest)) =
      ':' :: ' ' :: (write num field.2 ++ rest) := skip_cons rfl _
  rw [text, field_cons, if_pos rfl, string_text _ _ room]
  simp only [Option.bind_some, colon, if_true, blank, each, Option.map_some]

theorem word_number (text : NumberText num w j) (rest : List Char) :
    ∃ c t, w ++ rest = c :: t ∧ c ≠ '"' ∧ c ≠ '\x7b' ∧ c ≠ '[' ∧ word c t = none := by
  obtain ⟨c, t, rfl, digit | ⟨rfl, d, u, rfl, digit⟩⟩ := numberText_head text
  · refine ⟨c, t ++ rest, rfl, ?_, ?_, ?_, ?_⟩
    · rintro rfl
      exact absurd digit (by decide)
    · rintro rfl
      exact absurd digit (by decide)
    · rintro rfl
      exact absurd digit (by decide)
    · have unknown : words.lookup c = none := by
        rw [List.lookup_eq_none_iff]
        rintro ⟨d, more⟩ member
        rw [bne_iff_ne]
        rintro rfl
        simp only [words, List.mem_cons, List.not_mem_nil, or_false, Prod.mk.injEq] at member
        rcases member with ⟨rfl, -⟩ | ⟨rfl, -⟩ | ⟨rfl, -⟩ | ⟨rfl, -⟩ | ⟨rfl, -⟩ | ⟨rfl, -⟩ <;>
          exact absurd digit (by decide)
      rw [word, unknown]
      rfl
  · refine ⟨'-', d :: u ++ rest, rfl, by decide, by decide, by decide, ?_⟩
    have other : 'I' ≠ d := by
      rintro rfl
      exact absurd digit (by decide)
    change (after ('I' :: _) (d :: (u ++ rest))).map _ = none
    rw [after, if_neg other]
    rfl

theorem value_number (text : NumberText num w j) (ends : Ends rest) :
    value num (n + 1) (w ++ rest) = some (j, rest) := by
  obtain ⟨c, t, head, quote, brace, bracket, word⟩ := word_number text rest
  have found := number_text text ends
  rw [head] at found ⊢
  rw [value_cons, if_neg quote, if_neg brace, if_neg bracket, word, Option.none_or, found]

/-- What is written is read back, whatever can follow it; the induction is on how much may be
read. -/
theorem value_write (j : Json) (n : Nat) (writable : Writable num j) (room : (write num j).length < n)
    (ends : Ends rest) : value num n (write num j ++ rest) = some (j, rest) := by
  induction n generalizing j rest with
  | zero => exact absurd room (Nat.not_lt_zero _)
  | succ n ih =>
    cases j with
    | null => rfl
    | bool b => cases b <;> rfl
    | int k => exact value_number (intText_number num k) ends
    | float q => exact value_number writable ends
    | nonFinite => rfl
    | str s =>
      have size := length_escaped s.toList
      simp only [write, quoted, List.length_cons, List.length_append] at room
      have read := string_text s n (by omega) rest
      have text : write num (.str s) ++ rest = '"' :: (s.toList.flatMap escape ++ '"' :: rest) := by
        simp [write, quoted]
      rw [text, value_cons, if_pos rfl, read]
      rfl
    | arr items =>
      have inner : write num (.arr items) = '[' :: (joined (items.map (write num)) ++ [']']) := by
        rw [write, itemTexts_eq]
      rw [inner] at room ⊢
      simp only [List.length_cons, List.length_append, List.length_nil] at room
      have count := length_joined (items.map (write num))
      rw [List.length_map] at count
      have read : group (value num n) ']' n (joined (items.map (write num)) ++ ']' :: rest) =
          some (items, rest) := group_joined (by decide) rfl (ends_cons (by decide) _)
        (fun item member => write_begins (writable_item writable member))
        (fun item member rest ends => ih item (writable_item writable member)
          (by have := length_member (List.mem_map_of_mem (f := write num) member); omega) ends)
        (by omega)
      have text : '[' :: (joined (items.map (write num)) ++ [']']) ++ rest =
          '[' :: (joined (items.map (write num)) ++ ']' :: rest) := by simp
      rw [text, value_cons, if_neg (by decide), if_neg (by decide), if_pos rfl, read]
      rfl
    | obj fields =>
      have inner : write num (.obj fields) =
          '\x7b' :: (joined (fields.map (fieldText num)) ++ ['\x7d']) := by
        rw [write, fieldTexts_eq]
      rw [inner] at room ⊢
      simp only [List.length_cons, List.length_append, List.length_nil] at room
      have count := length_joined (fields.map (fieldText num))
      rw [List.length_map] at count
      have part (field : String × Json) (member : field ∈ fields) :
          field.1.toList.length + (write num field.2).length < n := by
        have size := length_escaped field.1.toList
        have whole := length_member (List.mem_map_of_mem (f := fieldText num) member)
        simp only [fieldText, quoted, List.length_cons, List.length_append] at whole
        omega
      have read : group (JsonText.field (value num n) n) '\x7d' n
          (joined (fields.map (fieldText num)) ++ '\x7d' :: rest) = some (fields, rest) :=
        group_joined (by decide) rfl (ends_cons (by decide) _)
        (fun field _ => ⟨'"', _, rfl, by decide⟩)
        (fun field member rest ends =>
          have own := writable_field writable.2 member
          field_text n rest (write_begins own) (by have := part field member; omega)
            (ih field.2 own (by have := part field member; omega) ends))
        (by omega)
      have text : '\x7b' :: (joined (fields.map (fieldText num)) ++ ['\x7d']) ++ rest =
          '\x7b' :: (joined (fields.map (fieldText num)) ++ '\x7d' :: rest) := by simp
      rw [text, value_cons, if_neg (by decide), if_pos rfl, read]
      exact congrArg (fun fields => some (Json.obj fields, rest)) (update_distinct [] fields writable.1)

/-- **Round trip.** -/
theorem read_write (writable : Writable num j) : JsonText.read num (write num j) = some j := by
  have found : value num _ (write num j ++ []) = _ :=
    value_write j ((write num j).length + 1) writable (Nat.lt_succ_self _) ends_nil
  rw [List.append_nil] at found
  have start : skip (write num j) = write num j := by
    have := (write_begins writable).skip []
    rwa [List.append_nil] at this
  rw [JsonText.read, start, found]
  rfl

end Values

section Prefixes

variable {num : Numerals} {item item' : List Char → Option (α × List Char)} {close : Char}
  {xs : List α} {n m : Nat} {rest s t w p q : List Char} {j : Json}

theorem after_append (found : after w s = some rest) (t : List Char) :
    after w (s ++ t) = some (rest ++ t) := by
  induction w generalizing s with
  | nil =>
    obtain rfl := Option.some.inj found
    rfl
  | cons c w ih =>
    cases s with
    | nil => contradiction
    | cons d s =>
      obtain ⟨same, later⟩ := Option.ite_none_right_eq_some.mp found
      exact (if_pos same).trans (ih later)

theorem word_append {c : Char} (found : word c s = some (j, rest)) (t : List Char) :
    word c (s ++ t) = some (j, rest ++ t) := by
  obtain ⟨entry, known, read⟩ := Option.bind_eq_some_iff.mp found
  obtain ⟨left, follows, same⟩ := Option.map_eq_some_iff.mp read
  obtain ⟨rfl, rfl⟩ := Prod.mk.inj same
  rw [word, known, Option.bind_some, after_append follows]
  rfl

theorem unit_append {u : Nat} (found : unit s = some (u, rest)) (t : List Char) :
    unit (s ++ t) = some (u, rest ++ t) := by
  cases s with
  | nil => contradiction
  | cons c s =>
    rw [List.cons_append, unit_cons]
    rw [unit_cons] at found
    by_cases backslash : c = '\\'
    · rw [if_pos backslash] at found ⊢
      cases s with
      | nil => contradiction
      | cons d s =>
        rw [List.cons_append, escaped_cons]
        rw [escaped_cons] at found
        by_cases number : d = 'u'
        · rw [if_pos number] at found ⊢
          rcases s with _ | ⟨a, _ | ⟨b, _ | ⟨c, _ | ⟨d, s⟩⟩⟩⟩
          · contradiction
          · contradiction
          · contradiction
          · contradiction
          · obtain ⟨n, digits, same⟩ := Option.map_eq_some_iff.mp found
            obtain ⟨rfl, rfl⟩ := Prod.mk.inj same
            exact Option.map_eq_some_iff.mpr ⟨n, digits, rfl⟩
        · rw [if_neg number] at found ⊢
          obtain ⟨d, letter, same⟩ := Option.map_eq_some_iff.mp found
          obtain ⟨rfl, rfl⟩ := Prod.mk.inj same
          rw [letter]
          rfl
    · rw [if_neg backslash] at found ⊢
      obtain ⟨visible, same⟩ := Option.ite_none_left_eq_some.mp found
      obtain ⟨rfl, rfl⟩ := Prod.mk.inj (Option.some.inj same)
      exact if_neg visible

theorem units_append {us : List Nat} (found : units n s = some (us, rest)) (more : n ≤ m)
    (t : List Char) : units m (s ++ t) = some (us, rest ++ t) := by
  induction n generalizing s m us with
  | zero => contradiction
  | succ n ih =>
    obtain ⟨m, rfl⟩ := Nat.exists_eq_succ_of_ne_zero (Nat.ne_zero_of_lt more)
    cases s with
    | nil => contradiction
    | cons c s =>
      rw [List.cons_append, units_cons]
      rw [units_cons] at found
      by_cases quote : c = '"'
      · rw [if_pos quote] at found ⊢
        obtain ⟨rfl, rfl⟩ := Prod.mk.inj (Option.some.inj found)
        rfl
      · rw [if_neg quote] at found ⊢
        obtain ⟨⟨u, left⟩, first, found⟩ := Option.bind_eq_some_iff.mp found
        obtain ⟨⟨vs, left'⟩, later, same⟩ := Option.map_eq_some_iff.mp found
        obtain ⟨rfl, rfl⟩ := Prod.mk.inj same
        rw [← List.cons_append, unit_append first, Option.bind_some,
          ih later (Nat.le_of_succ_le_succ more)]
        rfl

theorem string_append {key : String} (found : string n s = some (key, rest)) (more : n ≤ m)
    (t : List Char) : string m (s ++ t) = some (key, rest ++ t) := by
  obtain ⟨⟨us, left⟩, units, found⟩ := Option.bind_eq_some_iff.mp found
  obtain ⟨cs, characters, same⟩ := Option.map_eq_some_iff.mp found
  obtain ⟨rfl, rfl⟩ := Prod.mk.inj same
  rw [string, units_append units more, Option.bind_some, characters]
  rfl

theorem skip_append {c : Char} (found : skip s = c :: rest) (t : List Char) :
    skip (s ++ t) = c :: (rest ++ t) := by
  induction s with
  | nil => contradiction
  | cons d s ih =>
    unfold skip at found ih ⊢
    rw [List.cons_append]
    rw [List.dropWhile_cons] at found ⊢
    split at found
    next blank => exact (if_pos blank).trans (ih found)
    next solid =>
      obtain ⟨rfl, rfl⟩ := List.cons.inj found
      exact if_neg solid

/-- Before a bracket or a comma a value is over. -/
theorem closed_of_skip {c : Char} (found : skip s = c :: rest)
    (ends : c.isDigit = false ∧ c ≠ '.' ∧ c ≠ 'e' ∧ c ≠ 'E') : Closed s := by
  cases s with
  | nil => contradiction
  | cons d s =>
    refine ⟨ends_cons ?_ s, List.cons_ne_nil _ _⟩
    unfold skip at found
    rw [List.dropWhile_cons] at found
    split at found
    next blank =>
      simp only [isBlank, Bool.or_eq_true, decide_eq_true_eq] at blank
      rcases blank with ((rfl | rfl) | rfl) | rfl <;> decide
    next => exact (List.cons.inj found).1 ▸ ends

/-- What a reader takes it takes as well when more text follows. -/
def Extends (item item' : List Char → Option (α × List Char)) (t : List Char) : Prop :=
  ∀ s x rest, item s = some (x, rest) → Closed rest → item' (s ++ t) = some (x, rest ++ t)

theorem elements_append (extends_ : Extends item item' t) (nothing : item [] = none)
    (ends : close.isDigit = false ∧ close ≠ '.' ∧ close ≠ 'e' ∧ close ≠ 'E')
    (found : elements item close n s = some (xs, rest)) (more : n ≤ m) :
    elements item' close m (s ++ t) = some (xs, rest ++ t) := by
  induction n generalizing s m xs with
  | zero => contradiction
  | succ n ih =>
    obtain ⟨m, rfl⟩ := Nat.exists_eq_succ_of_ne_zero (Nat.ne_zero_of_lt more)
    rw [elements_succ] at found ⊢
    obtain ⟨⟨x, left⟩, first, found⟩ := Option.bind_eq_some_iff.mp found
    cases behind : skip left with
    | nil =>
      simp only [behind] at found
      contradiction
    | cons c left' =>
      simp only [behind] at found
      by_cases comma : c = ','
      · rw [if_pos comma] at found
        obtain ⟨⟨ys, left''⟩, later, same⟩ := Option.map_eq_some_iff.mp found
        obtain ⟨rfl, rfl⟩ := Prod.mk.inj same
        have closed : Closed left := closed_of_skip behind (comma ▸ by decide)
        have next : skip (left' ++ t) = skip left' ++ t := by
          cases inner : skip left' with
          | nil =>
            rw [inner] at later
            cases n with
            | zero => contradiction
            | succ n =>
              rw [elements_succ, nothing] at later
              contradiction
          | cons d u => exact skip_append inner t
        rw [extends_ s x left first closed, Option.bind_some]
        simp only [skip_append behind, if_pos comma]
        rw [next, ih later (Nat.le_of_succ_le_succ more)]
        rfl
      · rw [if_neg comma] at found
        obtain ⟨closing, same⟩ := Option.ite_none_right_eq_some.mp found
        obtain ⟨rfl, rfl⟩ := Prod.mk.inj (Option.some.inj same)
        have closed : Closed left := closed_of_skip behind (closing ▸ ends)
        rw [extends_ s x left first closed, Option.bind_some]
        simp only [skip_append behind, if_neg comma, if_pos closing]

theorem group_append (extends_ : Extends item item' t) (nothing : item [] = none)
    (ends : close.isDigit = false ∧ close ≠ '.' ∧ close ≠ 'e' ∧ close ≠ 'E')
    (found : group item close n s = some (xs, rest)) (more : n ≤ m) :
    group item' close m (s ++ t) = some (xs, rest ++ t) := by
  unfold group at found ⊢
  cases behind : skip s with
  | nil =>
    simp only [behind] at found
    contradiction
  | cons c left =>
    simp only [behind] at found
    simp only [skip_append behind]
    by_cases closing : c = close
    · rw [if_pos closing] at found ⊢
      obtain ⟨rfl, rfl⟩ := Prod.mk.inj (Option.some.inj found)
      rfl
    · rw [if_neg closing] at found ⊢
      exact elements_append extends_ nothing ends found more

theorem field_append {item item' : List Char → Option (Json × List Char)}
    (extends_ : Extends item item' t) (nothing : item [] = none) (more : n ≤ m) :
    Extends (field item n) (field item' m) t := by
  rintro (_ | ⟨c, s⟩) x rest found closed
  · contradiction
  · rw [List.cons_append, field_cons]
    rw [field_cons] at found
    obtain ⟨quote, found⟩ := Option.ite_none_right_eq_some.mp found
    rw [if_pos quote]
    obtain ⟨⟨key, left⟩, name, found⟩ := Option.bind_eq_some_iff.mp found
    rw [string_append name more, Option.bind_some]
    cases behind : skip left with
    | nil =>
      simp only [behind] at found
      contradiction
    | cons d left' =>
      simp only [behind] at found
      obtain ⟨colon, found⟩ := Option.ite_none_right_eq_some.mp found
      obtain ⟨⟨v, left''⟩, value, same⟩ := Option.map_eq_some_iff.mp found
      obtain ⟨rfl, rfl⟩ := Prod.mk.inj same
      have next : skip (left' ++ t) = skip left' ++ t := by
        cases inner : skip left' with
        | nil =>
          rw [inner, nothing] at value
          contradiction
        | cons d u => exact skip_append inner t
      simp only [skip_append behind, if_pos colon, next, extends_ _ _ _ value closed]
      rfl

theorem value_nil (num : Numerals) (n : Nat) : value num n [] = none := by cases n <;> rfl

/-- A value that is read is read as well with more text behind what follows it; where nothing
follows, the value must have brackets or quotes of its own. -/
theorem value_append (found : value num n s = some (j, rest)) (more : n ≤ m)
    (done : Closed rest ∨ ∃ c u, s = c :: u ∧ (c = '"' ∨ c = '\x7b' ∨ c = '[')) (t : List Char) :
    value num m (s ++ t) = some (j, rest ++ t) := by
  induction n generalizing m s j rest with
  | zero => contradiction
  | succ n ih =>
    obtain ⟨m, rfl⟩ := Nat.exists_eq_succ_of_ne_zero (Nat.ne_zero_of_lt more)
    have less := Nat.le_of_succ_le_succ more
    have each : Extends (value num n) (value num m) t := fun s x rest found closed =>
      ih found less (.inl closed)
    cases s with
    | nil => contradiction
    | cons c s =>
      rw [List.cons_append, value_cons]
      rw [value_cons] at found
      by_cases quote : c = '"'
      · rw [if_pos quote] at found ⊢
        obtain ⟨⟨key, left⟩, read, same⟩ := Option.map_eq_some_iff.mp found
        obtain ⟨rfl, rfl⟩ := Prod.mk.inj same
        rw [string_append read less]
        rfl
      rw [if_neg quote] at found ⊢
      by_cases brace : c = '\x7b'
      · rw [if_pos brace] at found ⊢
        obtain ⟨⟨fields, left⟩, read, same⟩ := Option.map_eq_some_iff.mp found
        obtain ⟨rfl, rfl⟩ := Prod.mk.inj same
        rw [group_append (field_append each (value_nil num n) less) rfl (by decide) read less]
        rfl
      rw [if_neg brace] at found ⊢
      by_cases bracket : c = '['
      · rw [if_pos bracket] at found ⊢
        obtain ⟨⟨items, left⟩, read, same⟩ := Option.map_eq_some_iff.mp found
        obtain ⟨rfl, rfl⟩ := Prod.mk.inj same
        rw [group_append each (value_nil num n) (by decide) read less]
        rfl
      rw [if_neg bracket] at found ⊢
      rcases Option.or_eq_some_iff.mp found with known | ⟨-, digits⟩
      · rw [word_append known]
        rfl
      · obtain ⟨w, text, parts⟩ := number_sound digits
        obtain ⟨closed, some_⟩ | ⟨d, u, same, opening⟩ := done
        · have ends : Ends (rest ++ t) := by
            cases rest with
            | nil => exact absurd rfl some_
            | cons d u => exact ends_cons (closed d rfl) _
          have all := number_text text ends
          obtain ⟨d, u, head, -, -, -, unknown⟩ := word_number text (rest ++ t)
          rw [← List.append_assoc, ← parts, List.cons_append] at all head
          obtain ⟨rfl, rfl⟩ := List.cons.inj head
          rw [unknown, Option.none_or, all]
        · obtain ⟨rfl, rfl⟩ := List.cons.inj same
          exact absurd opening (by simp [quote, brace, bracket])

/-- **No part of an object's text from its beginning on is a text.** -/
theorem read_part {fields : List (String × Json)} (writable : Writable num (.obj fields))
    (whole : write num (.obj fields) = p ++ q) (cut : q ≠ []) : read num p = none := by
  by_contra some_
  obtain ⟨j, found⟩ := Option.ne_none_iff_exists'.mp some_
  have start : ∃ u, p = '\x7b' :: u := by
    cases p with
    | nil => contradiction
    | cons c u => exact ⟨u, by rw [(List.cons.inj whole).1]⟩
  obtain ⟨u, rfl⟩ := start
  obtain ⟨⟨k, rest⟩, value, -⟩ := Option.bind_eq_some_iff.mp found
  have whole' : JsonText.value num _ (write num (.obj fields) ++ []) = _ :=
    value_write _ ((write num (.obj fields)).length + 1) writable (Nat.lt_succ_self _) ends_nil
  have room : ('\x7b' :: u).length + 1 ≤ (write num (.obj fields)).length + 1 := by
    rw [whole]
    simp
  have longer := value_append value room (.inr ⟨'\x7b', u, rfl, .inr (.inl rfl)⟩) q
  rw [show skip ('\x7b' :: u) = '\x7b' :: u from rfl, ← whole] at longer
  rw [List.append_nil, longer] at whole'
  exact cut (List.append_eq_nil_iff.mp (Prod.mk.inj (Option.some.inj whole')).2).2

end Prefixes

/-- Numbers with one digit behind the point. -/
def tenths : Numerals where
  text q := Nat.toDigits 10 (q.num.toNat / q.den) ++ ['.', Nat.digitChar (q.num.toNat * 10 / q.den % 10)]
  value s := (Nat.ofDigitChars 10 (s.filter (· ≠ '.')) 0 : Rat) / 10

theorem tenths_text : NumberText tenths (tenths.text (3 / 2)) (.float (3 / 2)) := by
  have shape : NumberText tenths ([] ++ ['1'] ++ ['.', '5'] ++ []) _ := .intro (.inl rfl)
    (.inr ⟨'1', [], rfl, by decide, by simp [Digits]⟩)
    (.inr ⟨['5'], rfl, by decide, by simp [Digits]⟩) (.inl rfl)
  have value : tenths.value ['1', '.', '5'] = 3 / 2 := by decide +kernel
  have text : tenths.text (3 / 2) = ['1', '.', '5'] := by decide +kernel
  rw [numberValue, if_neg (by decide)] at shape
  rw [text]
  exact value ▸ shape

end Lib.JsonText

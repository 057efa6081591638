import Mathlib.Data.List.Forall2
import Nl2SqlAgent.Lib.PyWords

/-! A lexer of SQL texts: words, symbols, string literals and quoted identifiers, line
comments and block comments. -/
namespace Lib.Sql

open Lib.Py

/-- ASCII punctuation. -/
def isMark (c : Char) : Bool := decide (c.val < 128) && !isSpace c && !c.isAlphanum && c != '_'

/-- What keywords, identifiers and numbers are made of. -/
def isLetter (c : Char) : Bool := !isSpace c && !isMark c

inductive Quote where
  | single | double | back
deriving DecidableEq, Repr

def Quote.char : Quote → Char
  | .single => '\''
  | .double => '"'
  | .back => '`'

def Quote.of (c : Char) : Option Quote :=
  if c = '\'' then some .single else if c = '"' then some .double
  else if c = '`' then some .back else none

/-- A literal or quoted identifier has its text with each doubled quote once. It may be left
open at the end. -/
inductive Token where
  | word (text : List Char)
  | symbol (c : Char)
  | quoted (quote : Quote) (text : List Char) (closed : Bool)
deriving DecidableEq, Repr

/-- Where the lexer stands: what it has read of a token, or the comment it is in. -/
inductive Mode where
  | code
  | word (text : List Char)
  | dash
  | slash
  | quoted (quote : Quote) (text : List Char)
  | closing (quote : Quote) (text : List Char)
  | line
  | block
  | star
deriving DecidableEq, Repr

/-- What is left to emit when the token ends here. -/
def finish : Mode → List Token
  | .word text => [.word text]
  | .dash => [.symbol '-']
  | .slash => [.symbol '/']
  | .quoted quote text => [.quoted quote text false]
  | .closing quote text => [.quoted quote text true]
  | .code | .line | .block | .star => []

/-- A character outside of literals and comments that begins something new. -/
def enter (c : Char) : Mode × List Token :=
  if isSpace c = true then (.code, [])
  else if isLetter c = true then (.word [c], [])
  else match Quote.of c with
    | some quote => (.quoted quote [], [])
    | none => if c = '-' then (.dash, []) else if c = '/' then (.slash, []) else (.code, [.symbol c])

def leave (m : Mode) (c : Char) : Mode × List Token := ((enter c).1, finish m ++ (enter c).2)

def step (m : Mode) (c : Char) : Mode × List Token :=
  match m with
  | .code => leave m c
  | .word text => if isLetter c = true then (.word (text ++ [c]), []) else leave m c
  | .dash => if c = '-' then (.line, []) else leave m c
  | .slash => if c = '*' then (.block, []) else leave m c
  | .quoted quote text =>
    if c = quote.char then (.closing quote text, []) else (.quoted quote (text ++ [c]), [])
  | .closing quote text => if c = quote.char then (.quoted quote (text ++ [c]), []) else leave m c
  | .line => if c = '\n' then (.code, []) else (.line, [])
  | .block => if c = '*' then (.star, []) else (.block, [])
  | .star => if c = '/' then (.code, []) else if c = '*' then (.star, []) else (.block, [])

def feed (m : Mode) : List Char → Mode × List Token
  | [] => (m, [])
  | c :: cs => ((feed (step m c).1 cs).1, (step m c).2 ++ (feed (step m c).1 cs).2)

/-- The tokens of a text that is read on from `m`. -/
def lexFrom (m : Mode) (s : List Char) : List Token := (feed m s).2 ++ finish (feed m s).1

def lex (s : String) : List Token := lexFrom .code s.toList

/-- Where a gap of white space leaves the lexer: a line comment may end in it or not. -/
def gaps : Mode → List Mode
  | .line => [.line, .code]
  | .block | .star => [.block]
  | _ => [.code]

/-- No words emit a token, however the white space between them is chosen. -/
def silent (m : Mode) : List (List Char) → Bool
  | [] => true
  | w :: ws =>
    decide ((feed m w).2 = []) && decide (finish (feed m w).1 = []) &&
      (gaps (feed m w).1).all fun k => silent k ws

/-- No word ends inside quotes, and behind one that ends inside a line comment the text is
silent. -/
def spaced (m : Mode) : List (List Char) → Bool
  | [] => true
  | w :: ws =>
    match (feed m w).1 with
    | .quoted _ _ => false
    | .line => (gaps .line).all fun k => silent k ws
    | n => (gaps n).all fun k => spaced k ws

/-- The tokens of words with a gap behind each. -/
def lexWords (m : Mode) : List (List Char) → List Token
  | [] => finish m
  | w :: ws => (feed m w).2 ++ finish (feed m w).1 ++ lexWords ((gaps (feed m w).1).headD .code) ws

section

variable {m n k : Mode} {c : Char} {s w : List Char} {ws : List (List Char)} {q : Quote}

theorem feed_append (m : Mode) (xs ys : List Char) : feed m (xs ++ ys) =
    ((feed (feed m xs).1 ys).1, (feed m xs).2 ++ (feed (feed m xs).1 ys).2) := by
  induction xs generalizing m with
  | nil => rfl
  | cons c cs ih => simp [feed, ih]

theorem lexFrom_append (m : Mode) (xs ys : List Char) :
    lexFrom m (xs ++ ys) = (feed m xs).2 ++ lexFrom (feed m xs).1 ys := by
  simp [lexFrom, feed_append]

theorem lexFrom_cons (m : Mode) (c : Char) (s : List Char) :
    lexFrom m (c :: s) = (step m c).2 ++ lexFrom (step m c).1 s := by
  simp [lexFrom, feed]

theorem Quote.char_solid (q : Quote) : isSpace q.char = false := by cases q <;> decide

theorem step_blank (blank : isSpace c = true) (m : Mode) :
    (∃ q t, m = .quoted q t) ∨ ∃ k ∈ gaps m, step m c = (k, finish m) := by
  have entered : enter c = (.code, []) := by simp [enter, blank]
  have left (m : Mode) : leave m c = (.code, finish m) := by simp [leave, entered]
  have noLetter : isLetter c = false := by simp [isLetter, blank]
  have other (d : Char) (solid : isSpace d = false) : c ≠ d := by
    rintro rfl
    rw [solid] at blank
    contradiction
  cases m with
  | code => exact .inr ⟨_, List.mem_singleton_self _, left _⟩
  | word text => exact .inr ⟨.code, List.mem_singleton_self _, by simp [step, noLetter, left]⟩
  | dash => exact .inr ⟨.code, List.mem_singleton_self _, by simp [step, other '-' (by decide), left]⟩
  | slash => exact .inr ⟨.code, List.mem_singleton_self _, by simp [step, other '*' (by decide), left]⟩
  | quoted q t => exact .inl ⟨q, t, rfl⟩
  | closing q t =>
    exact .inr ⟨.code, List.mem_singleton_self _, by simp [step, other q.char q.char_solid, left]⟩
  | line =>
    by_cases newline : c = '\n'
    · exact .inr ⟨.code, by simp [gaps], by simp [step, newline, finish]⟩
    · exact .inr ⟨.line, by simp [gaps], by simp [step, newline, finish]⟩
  | block => exact .inr ⟨.block, List.mem_singleton_self _, by simp [step, other '*' (by decide), finish]⟩
  | star =>
    refine .inr ⟨.block, List.mem_singleton_self _, ?_⟩
    simp [step, other '*' (by decide), other '/' (by decide), finish]

theorem mem_gaps (gap : k ∈ gaps n) : k = .code ∨ k = .line ∨ k = .block := by
  cases n <;> grind [gaps]

theorem head_gaps (m : Mode) : (gaps m).headD .code ∈ gaps m := by
  cases m <;> simp [gaps]

theorem gaps_again (gap : k ∈ gaps n) : ∀ k' ∈ gaps k, k' ∈ gaps n := by
  cases n <;> grind [gaps]

theorem finish_gap (gap : k ∈ gaps n) : finish k = [] := by
  rcases mem_gaps gap with rfl | rfl | rfl <;> rfl

/-- More white space leaves the lexer where white space can leave it. -/
theorem step_again (blank : isSpace c = true) (gap : k ∈ gaps n) : ∃ k' ∈ gaps n, step k c = (k', []) := by
  rcases step_blank blank k with ⟨q, t, rfl⟩ | ⟨k', again, stepped⟩
  · rcases mem_gaps gap with equal | equal | equal <;> cases equal
  · exact ⟨k', gaps_again gap k' again, stepped.trans (by rw [finish_gap gap])⟩

theorem silent_cons : silent m (w :: ws) = true ↔ (feed m w).2 = [] ∧ finish (feed m w).1 = [] ∧
    ∀ k ∈ gaps (feed m w).1, silent k ws = true := by
  simp [silent, and_assoc]

/-- Silent words emit nothing in any text that has them. -/
theorem lexFrom_silent (spread : Spread ws s) (quiet : ∀ k ∈ gaps n, silent k ws = true) :
    ∀ k ∈ gaps n, lexFrom k s = [] := by
  induction spread generalizing n with
  | nil => exact fun k gap => finish_gap gap
  | space blank _ ih =>
    intro k gap
    obtain ⟨k', gap', stepped⟩ := step_again blank gap
    rw [lexFrom_cons, stepped]
    exact ih quiet k' gap'
  | last _ =>
    intro k gap
    obtain ⟨none, ended, -⟩ := silent_cons.mp (quiet k gap)
    rw [lexFrom, none, ended, List.append_nil]
  | @word w _ c blank _ _ _ ih =>
    intro k gap
    obtain ⟨none, ended, rest⟩ := silent_cons.mp (quiet k gap)
    rw [lexFrom_append, none, List.nil_append, lexFrom_cons]
    rcases step_blank blank (feed k w).1 with ⟨q, t, inside⟩ | ⟨k', gap', stepped⟩
    · rw [inside] at ended
      cases ended
    · rw [stepped, ended]
      exact ih rest k' gap'

theorem lexWords_silent (quiet : silent m ws = true) (resting : finish m = []) : lexWords m ws = [] := by
  induction ws generalizing m with
  | nil => exact resting
  | cons w rest ih =>
    obtain ⟨none, ended, later⟩ := silent_cons.mp quiet
    rw [lexWords, none, ended]
    exact ih (later _ (head_gaps _)) (finish_gap (head_gaps _))

theorem spaced_cons (w : List Char) (ws : List (List Char)) : spaced m (w :: ws) = true ↔
    (∀ q t, (feed m w).1 ≠ .quoted q t) ∧
      ((feed m w).1 = .line → ∀ k ∈ gaps .line, silent k ws = true) ∧
      ((feed m w).1 ≠ .line → ∀ k ∈ gaps (feed m w).1, spaced k ws = true) := by
  rw [spaced]
  cases (feed m w).1 <;> simp

/-- The tokens of spaced words are the same in every text that has them. -/
theorem lexFrom_spaced (spread : Spread ws s) (still : m = .code ∨ m = .block)
    (plain : spaced m ws = true) : lexFrom m s = lexWords m ws := by
  induction spread generalizing m with
  | nil => rfl
  | @space c blank _ _ _ ih =>
    have gap : m ∈ gaps m := by rcases still with rfl | rfl <;> exact List.mem_singleton_self _
    obtain ⟨k, again, stepped⟩ := step_again blank gap
    obtain rfl : k = m := by
      rcases still with rfl | rfl <;> exact List.mem_singleton.mp again
    rw [lexFrom_cons, stepped, List.nil_append, ih still plain]
  | @last w _ =>
    rw [lexFrom, lexWords, lexWords, finish_gap (head_gaps _), List.append_nil]
  | @word w _ c blank ws _ rest ih =>
    obtain ⟨unquoted, commented, other⟩ := (spaced_cons w ws).mp plain
    rw [lexFrom_append, lexFrom_cons, lexWords, List.append_assoc]
    rcases step_blank blank (feed m w).1 with ⟨q, t, inside⟩ | ⟨k, gap, stepped⟩
    · exact absurd inside (unquoted q t)
    rw [stepped]
    by_cases comment : (feed m w).1 = .line
    · have quiet := commented comment
      rw [comment] at gap ⊢
      rw [lexFrom_silent rest quiet k gap]
      exact congrArg _ (congrArg _ (lexWords_silent (quiet .line (by simp [gaps])) rfl).symm)
    · have stays : k = (gaps (feed m w).1).headD .code ∧ (k = .code ∨ k = .block) := by
        cases shape : (feed m w).1 <;> simp_all [gaps]
      rw [ih stays.2 (other comment k gap), stays.1]

/-- What a quoted token goes on with does not depend on its text so far. -/
theorem lexFrom_quoted (q : Quote) (s : List Char) : ∃ r closed rest, ∀ t,
    lexFrom (.quoted q t) s = .quoted q (t ++ r) closed :: rest := by
  suffices both : (∃ r closed rest, ∀ t, lexFrom (.quoted q t) s = .quoted q (t ++ r) closed :: rest) ∧
      ∃ r closed rest, ∀ t, lexFrom (.closing q t) s = .quoted q (t ++ r) closed :: rest from both.1
  induction s with
  | nil => exact ⟨⟨[], false, [], by simp [lexFrom, feed, finish]⟩, [], true, [],
      by simp [lexFrom, feed, finish]⟩
  | cons c cs ih =>
    obtain ⟨⟨r, closed, rest, inside⟩, r', closed', rest', after⟩ := ih
    by_cases quote : c = q.char
    · refine ⟨⟨r', closed', rest', fun t => ?_⟩, c :: r, closed, rest, fun t => ?_⟩
      · simp [lexFrom_cons, step, quote, after]
      · simp [lexFrom_cons, step, quote, inside]
    · refine ⟨⟨c :: r, closed, rest, fun t => ?_⟩, [], true, (enter c).2 ++ lexFrom (enter c).1 cs, fun t => ?_⟩
      · simp [lexFrom_cons, step, quote, inside]
      · simp [lexFrom_cons, step, quote, leave, finish]

theorem exists_gap (gap : k ∈ gaps m) (unquoted : ∀ q t, m ≠ .quoted q t) :
    ∃ c, isSpace c = true ∧ step m c = (k, finish m) := by
  by_cases comment : m = .line
  · subst comment
    rcases List.mem_cons.mp gap with rfl | other
    · exact ⟨' ', by decide, rfl⟩
    · obtain rfl := List.mem_singleton.mp other
      exact ⟨'\n', by decide, rfl⟩
  · have blank : isSpace ' ' = true := by decide
    rcases step_blank blank m with ⟨q, t, inside⟩ | ⟨k', gap', stepped⟩
    · exact absurd inside (unquoted q t)
    · have only : k' = k := by cases m <;> simp_all [gaps]
      exact ⟨' ', blank, only ▸ stepped⟩

/-- Words that are not silent emit something in one of their texts. -/
theorem exists_loud (words : ∀ w ∈ ws, IsWord w) (loud : silent m ws = false) :
    ∃ s, Spread ws s ∧ lexFrom m s ≠ [] := by
  induction ws generalizing m with
  | nil => cases loud
  | cons w rest ih =>
    obtain ⟨word, tail⟩ := List.forall_mem_cons.mp words
    have plain : Spread (w :: rest) (w ++ ' ' :: joined rest) := .word word (by decide) (spread_joined tail)
    by_cases none : (feed m w).2 = []
    · by_cases ended : finish (feed m w).1 = []
      · have unquoted (q t) : (feed m w).1 ≠ .quoted q t := by
          intro inside
          rw [inside] at ended
          cases ended
        obtain ⟨k, gap, louder⟩ : ∃ k ∈ gaps (feed m w).1, silent k rest = false := by
          simpa [silent, none, ended] using loud
        obtain ⟨s, spread, emits⟩ := ih tail louder
        obtain ⟨c, blank, stepped⟩ := exists_gap gap unquoted
        exact ⟨w ++ c :: s, .word word blank spread, by simpa [lexFrom_append, lexFrom_cons, stepped] using
          fun _ _ => emits⟩
      · refine ⟨_, plain, ?_⟩
        rw [lexFrom_append, lexFrom_cons]
        rcases step_blank (by decide : isSpace ' ' = true) (feed m w).1 with ⟨q, t, inside⟩ | ⟨k, -, stepped⟩
        · obtain ⟨r, closed, later, shape⟩ := lexFrom_quoted q (' ' :: joined rest)
          rw [← lexFrom_cons, inside, shape]
          simp
        · simp [stepped, ended]
    · exact ⟨_, plain, by simp [lexFrom_append, none]⟩

theorem lexFrom_line (none : '\n' ∉ s) : lexFrom .line s = [] := by
  induction s with
  | nil => rfl
  | cons c cs ih =>
    obtain ⟨here, later⟩ := not_or.mp (mt List.mem_cons.mpr none)
    rw [lexFrom_cons, step, if_neg (Ne.symm here)]
    exact ih later

/-- Words whose texts all have the same tokens are spaced. -/
theorem spaced_of_stable {R : Token → Token → Prop}
    (exactly : ∀ q t k q' t' k', R (.quoted q t k) (.quoted q' t' k') → t = t')
    (words : ∀ w ∈ ws, IsWord w)
    (stable : ∀ s s', Spread ws s → Spread ws s' → List.Forall₂ R (lexFrom m s) (lexFrom m s')) :
    spaced m ws = true := by
  have blank : isSpace ' ' = true := by decide
  induction ws generalizing m with
  | nil => rfl
  | cons w rest ih =>
    obtain ⟨word, tail⟩ := List.forall_mem_cons.mp words
    -- behind the first word the texts must agree too
    have behind (c c' : Char) (s s' : List Char) (space : isSpace c = true) (space' : isSpace c' = true)
        (spread : Spread rest s) (spread' : Spread rest s') :
        List.Forall₂ R (lexFrom (feed m w).1 (c :: s)) (lexFrom (feed m w).1 (c' :: s')) := by
      have both := stable _ _ (.word word space spread) (.word word space' spread')
      rw [lexFrom_append, lexFrom_append] at both
      simpa using List.forall₂_drop (feed m w).2.length both
    have unquoted (q : Quote) (t : List Char) : (feed m w).1 ≠ .quoted q t := by
      intro inside
      have apart := behind ' ' ' ' _ _ blank blank (spread_joined tail) (.space blank (spread_joined tail))
      obtain ⟨r, closed, later, shape⟩ := lexFrom_quoted q (joined rest)
      have inner (t : List Char) (s : List Char) :
        lexFrom (.quoted q t) (' ' :: s) = lexFrom (.quoted q (t ++ [' '])) s := by
        rw [lexFrom_cons]
        cases q <;> rfl
      rw [inside, inner, inner, inner, shape, shape] at apart
      obtain ⟨first, -⟩ := List.forall₂_cons.mp apart
      have lengths := congrArg List.length (exactly _ _ _ _ _ _ first)
      simp at lengths
    refine (spaced_cons w rest).mpr ⟨unquoted, fun comment k gap => ?_, fun _ k gap => ?_⟩
    · by_contra loud
      obtain ⟨s, spread, emits⟩ := exists_loud tail (Bool.eq_false_iff.mpr loud)
      obtain ⟨c, space, stepped⟩ := exists_gap gap (by simp)
      have lengths := (behind c ' ' s _ space blank spread (spread_joined tail)).length_eq
      have comments : lexFrom .line (' ' :: joined rest) = [] := by
        apply lexFrom_line
        intro newline
        rcases List.mem_cons.mp newline with equal | inside
        · cases equal
        · exact newline_joined tail inside
      rw [comment, comments, lexFrom_cons, stepped] at lengths
      exact emits (List.length_eq_zero_iff.mp lengths)
    · obtain ⟨c, space, stepped⟩ := exists_gap gap unquoted
      apply ih tail
      intro s s' spread spread'
      have both := behind c c s s' space space spread spread'
      rw [lexFrom_cons, lexFrom_cons, stepped] at both
      simpa using List.forall₂_drop (finish (feed m w).1).length both

end

example : lex "SELECT x -- it's\nFROM \"a\"\"b\"" =
    [.word "SELECT".toList,.word ['x'],.word "FROM".toList,.quoted .double "a\"b".toList true] := by
  decide
example : lex "a/* 'b' */-'c'" = [.word ['a'],.symbol '-',.quoted .single ['c'] true] := by decide

end Lib.Sql

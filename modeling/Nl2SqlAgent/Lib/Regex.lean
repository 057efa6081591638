import Mathlib.Data.List.Infix
import Nl2SqlAgent.Lib.PyText

/-! Regular expressions as Python's `re` matches them: the matches at a position in the order in
which backtracking finds them, and the search for the first position that has one. Repetition is
of one class of characters. -/
namespace Lib.Regex

inductive Pattern where
  | empty
  | char (p : Char → Bool)
  | seq (first second : Pattern)
  | alt (first second : Pattern)
  | many (greedy : Bool) (p : Char → Bool)
  | group (inner : Pattern)

/-- What was matched, what the groups captured in it, and what follows. -/
structure Match where
  text : List Char
  groups : List (List Char)
  rest : List Char
  deriving DecidableEq, Repr

/-- The leading runs of a class with what follows, from the shortest. -/
def leads (p : Char → Bool) : List Char → List (List Char × List Char)
  | [] => [([], [])]
  | c :: s => ([], c :: s) ::
    if p c then (leads p s).map fun lead => (c :: lead.1, lead.2) else []

namespace Pattern

/-- The matches at the start of a text, the preferred ones first. -/
def run : Pattern → List Char → List Match
  | empty, s => [⟨[], [], s⟩]
  | char _, [] => []
  | char p, c :: s => if p c then [⟨[c], [], s⟩] else []
  | seq first second, s => (first.run s).flatMap fun m => (second.run m.rest).map fun n =>
      ⟨m.text ++ n.text, m.groups ++ n.groups, n.rest⟩
  | alt first second, s => first.run s ++ second.run s
  | many greedy p, s =>
    (if greedy then (leads p s).reverse else leads p s).map fun lead => ⟨lead.1, [], lead.2⟩
  | group inner, s => (inner.run s).map fun m => { m with groups := m.text :: m.groups }

theorem run_empty (s : List Char) : empty.run s = [⟨[], [], s⟩] := rfl

theorem run_char (p : Char → Bool) (c : Char) (s : List Char) :
    (char p).run (c :: s) = if p c then [⟨[c], [], s⟩] else [] := rfl

theorem run_seq (first second : Pattern) (s : List Char) :
    (seq first second).run s = (first.run s).flatMap fun m => (second.run m.rest).map fun n =>
      ⟨m.text ++ n.text, m.groups ++ n.groups, n.rest⟩ := rfl

theorem run_alt (first second : Pattern) (s : List Char) :
    (alt first second).run s = first.run s ++ second.run s := rfl

theorem run_many (greedy : Bool) (p : Char → Bool) (s : List Char) : (many greedy p).run s =
    (if greedy then (leads p s).reverse else leads p s).map fun lead => ⟨lead.1, [], lead.2⟩ := rfl

theorem run_group (inner : Pattern) (s : List Char) :
    (group inner).run s = (inner.run s).map fun m => { m with groups := m.text :: m.groups } := rfl

/-- `p+`. -/
def some_ (p : Char → Bool) : Pattern := seq (char p) (many true p)

/-- `p?`. -/
def optional (p : Char → Bool) : Pattern := alt (char p) empty

/-- The characters one after another, each as the test allows. -/
def chars (same : Char → Char → Bool) : List Char → Pattern
  | [] => empty
  | c :: s => seq (char (same c)) (chars same s)

/-- A text as it stands. -/
def lit (text : String) : Pattern := chars (· == ·) text.toList

end Pattern

/-- `re.search`: what stands before the match, and the match. -/
def search (r : Pattern) : List Char → Option (List Char × Match)
  | [] => (r.run []).head?.map fun m => ([], m)
  | c :: s =>
    match (r.run (c :: s)).head? with
    | some m => some ([], m)
    | none => (search r s).map fun found => (c :: found.1, found.2)

/-- `m.group(1)` of the search. -/
def searchGroup (r : Pattern) (s : String) : Option String :=
  (search r s.toList).bind fun found => found.2.groups.head?.map String.ofList

/-- The matches one behind the other, at places whose previous character is allowed; so many
characters are still inside the last one. -/
def scan (allowed : Option Char → Bool) (r : Pattern) : Option Char → ℕ → List Char → List Match
  | before, 0, [] => if allowed before then (r.run []).head?.toList else []
  | _, _ + 1, [] => []
  | before, 0, c :: s =>
    match if allowed before then (r.run (c :: s)).head? else none with
    | some m => m :: scan allowed r (some c) (m.text.length - 1) s
    | none => scan allowed r (some c) 0 s
  | _, skipped + 1, c :: s => scan allowed r (some c) skipped s

/-- `re.finditer`. -/
def finditer (r : Pattern) (s : List Char) : List Match := scan (fun _ => true) r none 0 s

/-- `re.sub` of a pattern that matches no empty text. -/
def substitute (r : Pattern) (replace : Match → List Char) : ℕ → List Char → List Char
  | _, [] => []
  | 0, c :: s =>
    match (r.run (c :: s)).head? with
    | some m => replace m ++ substitute r replace (m.text.length - 1) s
    | none => c :: substitute r replace 0 s
  | skipped + 1, _ :: s => substitute r replace skipped s

/-- `m.group(i + 1)`. -/
def Match.captured (m : Match) (i : ℕ) : String := .ofList (m.groups.getD i [])

/-- What a match leaves to what follows it. -/
def Match.left (m : Match) : List (List Char) × List Char := (m.groups, m.rest)

/-- The text from the first place on where what follows passes a test. -/
def fromFirst (p : List Char → Bool) : List Char → List Char
  | [] => []
  | c :: s => if p (c :: s) then c :: s else fromFirst p s

/-- What stands before that place. -/
def beforeFirst (p : List Char → Bool) : List Char → List Char
  | [] => []
  | c :: s => if p (c :: s) then [] else c :: beforeFirst p s

/-- The text begins with these characters, as the test allows. -/
def agrees (same : Char → Char → Bool) : List Char → List Char → Bool
  | [], _ => true
  | _ :: _, [] => false
  | w :: ws, c :: s => same w c && agrees same ws s

def Pattern.matches (r : Pattern) (s : List Char) : Bool := !(r.run s).isEmpty

section Places

variable {p q : List Char → Bool} {c : Char} {s t : List Char}

theorem fromFirst_cons (p : List Char → Bool) (c : Char) (s : List Char) :
    fromFirst p (c :: s) = if p (c :: s) then c :: s else fromFirst p s := rfl

theorem beforeFirst_cons (p : List Char → Bool) (c : Char) (s : List Char) :
    beforeFirst p (c :: s) = if p (c :: s) then [] else c :: beforeFirst p s := rfl

theorem before_append_from (p : List Char → Bool) (s : List Char) :
    beforeFirst p s ++ fromFirst p s = s := by
  induction s with
  | nil => rfl
  | cons c s ih =>
    rw [beforeFirst_cons, fromFirst_cons]
    split
    · rfl
    · rw [List.cons_append, ih]

theorem fromFirst_suffix (p : List Char → Bool) (s : List Char) : fromFirst p s <:+ s :=
  ⟨_, before_append_from p s⟩

theorem fromFirst_passes (there : fromFirst p s ≠ []) : p (fromFirst p s) = true := by
  induction s with
  | nil => exact absurd rfl there
  | cons c s ih =>
    rw [fromFirst_cons] at there ⊢
    split
    next here => exact here
    next later =>
      rw [if_neg later] at there
      exact ih there

theorem fromFirst_here (nonempty : s ≠ []) (here : p s = true) : fromFirst p s = s := by
  cases s with
  | nil => exact absurd rfl nonempty
  | cons c s => rw [fromFirst_cons, if_pos here]

theorem beforeFirst_here (here : p s = true) : beforeFirst p s = [] := by
  cases s with
  | nil => rfl
  | cons c s => rw [beforeFirst_cons, if_pos here]

theorem fromFirst_mono (suffix : t <:+ s) : fromFirst p t <:+ fromFirst p s := by
  induction s with
  | nil => rw [List.suffix_nil.mp suffix]
  | cons c s ih =>
    rcases List.suffix_cons_iff.mp suffix with rfl | later
    · exact List.suffix_refl _
    · rw [fromFirst_cons]
      split
      · exact ((fromFirst_suffix p t).trans later).trans (List.suffix_cons c s)
      · exact ih later

/-- What precedes a place is passed if the test fails along it. -/
theorem fromFirst_append {w : List Char} (free : ∀ v, v ≠ [] → v <:+ w → p (v ++ t) = false) :
    fromFirst p (w ++ t) = fromFirst p t ∧ beforeFirst p (w ++ t) = w ++ beforeFirst p t := by
  induction w with
  | nil => exact ⟨rfl, rfl⟩
  | cons c w ih =>
    have no : p (c :: (w ++ t)) = false := free (c :: w) (List.cons_ne_nil _ _) (List.suffix_refl _)
    obtain ⟨later, before⟩ := ih fun v nonempty inside => free v nonempty (inside.trans (List.suffix_cons c w))
    rw [List.cons_append, fromFirst_cons, beforeFirst_cons, if_neg (by simp [no]),
      if_neg (by simp [no]), later, before]
    exact ⟨rfl, rfl⟩

/-- The test fails at every place before the first one where it passes. -/
theorem beforeFirst_free {v : List Char} (nonempty : v ≠ []) (inside : v <:+ beforeFirst p s) :
    p (v ++ fromFirst p s) = false := by
  apply Bool.eq_false_iff.mpr
  intro here
  have parts := before_append_from p s
  obtain ⟨w, whole⟩ := inside
  have suffix : v ++ fromFirst p s <:+ s := ⟨w, by rw [← List.append_assoc, whole, parts]⟩
  have lengths := (fromFirst_mono (p := p) suffix).length_le
  have positive := List.length_pos_iff.mpr nonempty
  rw [fromFirst_here (by simp [nonempty]) here, List.length_append] at lengths
  omega

theorem fromFirst_eq_nil_iff : fromFirst p s = [] ↔ ∀ v, v ≠ [] → v <:+ s → p v = false := by
  constructor
  · intro nothing v nonempty inside
    apply Bool.eq_false_iff.mpr
    intro here
    have later := fromFirst_mono (p := p) inside
    rw [nothing, fromFirst_here nonempty here] at later
    exact nonempty (List.suffix_nil.mp later)
  · intro free
    by_contra there
    exact absurd (fromFirst_passes there) (by simp [free _ there (fromFirst_suffix p s)])

/-- A test that passes only where another does is first passed from there on. -/
theorem fromFirst_fromFirst (only : ∀ s, q s = true → p s = true) (s : List Char) :
    fromFirst q (fromFirst p s) = fromFirst q s := by
  induction s with
  | nil => rfl
  | cons c s ih =>
    rw [fromFirst_cons]
    split
    · rfl
    next later =>
      have no : q (c :: s) = false := Bool.eq_false_iff.mpr fun here => later (only _ here)
      rw [ih, fromFirst_cons, if_neg (by simp [no])]

end Places

section Runs

variable {r : Pattern} {s t : List Char}

theorem run_seq_assoc (a b c : Pattern) (s : List Char) :
    ((a.seq b).seq c).run s = (a.seq (b.seq c)).run s := by
  simp only [Pattern.run_seq, List.flatMap_assoc, List.flatMap_map, List.map_flatMap, List.map_map,
    Function.comp_def, List.append_assoc]

theorem run_seq_congr (a : Pattern) {b b' : Pattern} (same : ∀ t, b.run t = b'.run t) (s : List Char) :
    (a.seq b).run s = (a.seq b').run s := by
  simp only [Pattern.run_seq, same]

theorem run_alt_seq (a b c : Pattern) (s : List Char) :
    ((a.alt b).seq c).run s = (a.seq c).run s ++ (b.seq c).run s := by
  simp only [Pattern.run_seq, Pattern.run_alt, List.flatMap_append]

theorem run_seq_empty (r : Pattern) (s : List Char) : (r.seq .empty).run s = r.run s := by
  simp [Pattern.run_seq, Pattern.run_empty]

theorem run_empty_seq (r : Pattern) (s : List Char) : (Pattern.empty.seq r).run s = r.run s := by
  simp [Pattern.run_seq, Pattern.run_empty]

theorem run_chars (same : Char → Char → Bool) (w s : List Char) : (Pattern.chars same w).run s =
    if agrees same w s then [⟨s.take w.length, [], s.drop w.length⟩] else [] := by
  induction w generalizing s with
  | nil => rfl
  | cons d w ih =>
    cases s with
    | nil => rfl
    | cons c s =>
      by_cases here : same d c = true
      · by_cases later : agrees same w s = true <;>
          simp [Pattern.chars, Pattern.run_seq, Pattern.run_char, agrees, ih, here, later]
      · simp [Pattern.chars, Pattern.run_seq, Pattern.run_char, agrees, here]

theorem run_chars_seq (same : Char → Char → Bool) (w s : List Char) (r : Pattern) :
    ((Pattern.chars same w).seq r).run s =
      if agrees same w s then (r.run (s.drop w.length)).map fun n =>
        ⟨s.take w.length ++ n.text, n.groups, n.rest⟩
      else [] := by
  rw [Pattern.run_seq, run_chars]
  split <;> simp

/-- A lazy repetition of any character stops where what follows it first matches. -/
theorem head_lazy (build : List Char → Match → Match) (r : Pattern) (s : List Char) :
    ((leads (fun _ => true) s).flatMap fun lead => (r.run lead.2).map (build lead.1)).head? =
      (search r s).map fun found => build found.1 found.2 := by
  induction s generalizing build with
  | nil => simp [leads, search, Option.map_map, Function.comp_def]
  | cons c s ih =>
    rw [leads, if_pos rfl, List.flatMap_cons, List.head?_append, search, List.head?_map]
    cases (r.run (c :: s)).head? with
    | some m => rfl
    | none =>
      rw [List.flatMap_map]
      have later := ih fun before => build (c :: before)
      simpa only [Option.map_none, Option.none_or, Option.map_map, Function.comp_def] using later

theorem leads_longest (p : Char → Bool) (s : List Char) :
    ∃ others, (leads p s).reverse = (s.takeWhile p, s.dropWhile p) :: others := by
  induction s with
  | nil => exact ⟨[], rfl⟩
  | cons c s ih =>
    rw [leads]
    by_cases here : p c = true
    · obtain ⟨others, longest⟩ := ih
      rw [if_pos here, List.reverse_cons, ← List.map_reverse, longest, List.takeWhile_cons_of_pos here,
        List.dropWhile_cons_of_pos here]
      exact ⟨_, rfl⟩
    · rw [if_neg here, List.takeWhile_cons_of_neg here, List.dropWhile_cons_of_neg here]
      exact ⟨[], rfl⟩

theorem mem_leads {p : Char → Bool} {lead : List Char × List Char} (member : lead ∈ leads p s) :
    lead.1 ++ lead.2 = s ∧ ∀ c ∈ lead.1, p c = true := by
  induction s generalizing lead with
  | nil =>
    obtain rfl := List.mem_singleton.mp member
    exact ⟨rfl, nofun⟩
  | cons c s ih =>
    rw [leads] at member
    rcases List.mem_cons.mp member with rfl | longer
    · exact ⟨rfl, nofun⟩
    · split at longer
      next here =>
        obtain ⟨shorter, found, rfl⟩ := List.mem_map.mp longer
        obtain ⟨whole, all⟩ := ih found
        exact ⟨congrArg (c :: ·) whole, List.forall_mem_cons.mpr ⟨here, all⟩⟩
      · contradiction

/-- A greedy repetition takes all it can, if with less nothing matches that would not match then. -/
theorem head_greedy {p : Char → Bool}
    (fails : r.run (s.dropWhile p) = [] → ∀ lead ∈ leads p s, r.run lead.2 = []) :
    (((Pattern.many true p).seq r).run s).head? =
      (r.run (s.dropWhile p)).head?.map fun n => ⟨s.takeWhile p ++ n.text, n.groups, n.rest⟩ := by
  obtain ⟨others, longest⟩ := leads_longest p s
  have members : ∀ lead ∈ others, lead ∈ leads p s := fun lead member =>
    List.mem_reverse.mp (longest ▸ List.mem_cons_of_mem _ member)
  simp only [Pattern.run_seq, Pattern.run_many, if_true, List.flatMap_map, longest, List.flatMap_cons,
    List.head?_append, List.head?_map, List.nil_append]
  cases found : r.run (s.dropWhile p) with
  | cons n rest => rfl
  | nil =>
    have none : (others.flatMap fun lead => (r.run lead.2).map fun n =>
        (⟨lead.1 ++ n.text, n.groups, n.rest⟩ : Match)) = [] := by
      apply List.flatMap_eq_nil_iff.mpr
      intro lead member
      rw [fails found lead (members lead member)]
      rfl
    rw [none]
    rfl

theorem head_lazy_seq (r : Pattern) (s : List Char) :
    (((Pattern.many false fun _ => true).seq r).run s).head? =
      (search r s).map fun found => ⟨found.1 ++ found.2.text, found.2.groups, found.2.rest⟩ := by
  refine Eq.trans ?_ (head_lazy (fun before m => ⟨before ++ m.text, m.groups, m.rest⟩) r s)
  simp only [Pattern.run_seq, Pattern.run_many, Bool.false_eq_true, if_false, List.flatMap_map,
    List.nil_append]

/-- The same where what the repetition takes is captured. -/
theorem head_lazy_group (r : Pattern) (s : List Char) :
    (((Pattern.group (.many false fun _ => true)).seq r).run s).head? =
      (search r s).map fun found =>
        ⟨found.1 ++ found.2.text, found.1 :: found.2.groups, found.2.rest⟩ := by
  refine Eq.trans ?_ (head_lazy (fun before m => ⟨before ++ m.text, before :: m.groups, m.rest⟩) r s)
  simp only [Pattern.run_seq, Pattern.run_group, Pattern.run_many, Bool.false_eq_true, if_false,
    List.flatMap_map, List.map_map, Function.comp_def, List.cons_append, List.nil_append]

/-- Where the pattern begins with no character of the class, only the longest repetition is tried in
earnest. -/
theorem fails_shorter {p : Char → Bool} (skips : ∀ c s, p c = true → r.run (c :: s) = [])
    (fails : r.run (s.dropWhile p) = []) : ∀ lead ∈ leads p s, r.run lead.2 = [] := by
  intro lead member
  obtain ⟨whole, all⟩ := mem_leads member
  cases rest : lead.2 with
  | nil =>
    have done : s.dropWhile p = [] := by
      rw [← whole, rest, List.append_nil]
      exact List.dropWhile_eq_nil_iff.mpr all
    rwa [done] at fails
  | cons c t =>
    by_cases here : p c = true
    · exact skips c t here
    · have stop : s.dropWhile p = c :: t := by
        rw [← whole, rest, List.dropWhile_append_of_pos all, List.dropWhile_cons_of_neg here]
      rwa [stop] at fails

theorem head_some {p : Char → Bool} {c : Char}
    (fails : r.run (s.dropWhile p) = [] → ∀ lead ∈ leads p s, r.run lead.2 = []) :
    (((Pattern.some_ p).seq r).run (c :: s)).head? =
      if p c then (r.run (s.dropWhile p)).head?.map fun n =>
        ⟨c :: (s.takeWhile p ++ n.text), n.groups, n.rest⟩
      else none := by
  rw [Pattern.some_, run_seq_assoc, Pattern.run_seq, Pattern.run_char]
  split
  · rw [List.flatMap_singleton, List.head?_map, head_greedy fails, Option.map_map]
    rfl
  · rfl

/-- The same where what is taken is captured and anything may follow. -/
theorem head_group_some {p : Char → Bool} {c : Char} (always : r.run (s.dropWhile p) ≠ []) :
    (((Pattern.group (.some_ p)).seq r).run (c :: s)).head? =
      if p c then (r.run (s.dropWhile p)).head?.map fun n =>
        ⟨c :: (s.takeWhile p ++ n.text), (c :: s.takeWhile p) :: n.groups, n.rest⟩
      else none := by
  obtain ⟨others, longest⟩ := leads_longest p s
  simp only [Pattern.some_, Pattern.run_seq, Pattern.run_group, Pattern.run_char, Pattern.run_many, if_true]
  split
  · obtain ⟨n, more, found⟩ := List.exists_cons_of_ne_nil always
    simp only [List.flatMap_singleton, longest]
    simp [found]
  · rfl

theorem left_chars_seq (same : Char → Char → Bool) (w s : List Char) (r : Pattern) :
    (((Pattern.chars same w).seq r).run s).head?.map Match.left =
      if agrees same w s then (r.run (s.drop w.length)).head?.map Match.left else none := by
  rw [run_chars_seq]
  split
  · rw [List.head?_map, Option.map_map]
    rfl
  · rfl

theorem left_some_seq {p : Char → Bool} (skips : ∀ c s, p c = true → r.run (c :: s) = []) (s : List Char) :
    (((Pattern.some_ p).seq r).run s).head?.map Match.left =
      if s.head?.any p then (r.run (s.dropWhile p)).head?.map Match.left else none := by
  cases s with
  | nil => rfl
  | cons c s =>
    rw [head_some (fails_shorter skips)]
    by_cases here : p c = true
    · rw [if_pos here, Option.map_map, List.dropWhile_cons_of_pos here]
      simp only [List.head?_cons, Option.any_some, here, if_true]
      rfl
    · simp [here]

theorem run_text {m : Match} (member : m ∈ r.run s) : m.text ++ m.rest = s := by
  induction r generalizing s m with
  | empty =>
    obtain rfl := List.mem_singleton.mp member
    rfl
  | char p =>
    cases s with
    | nil => cases member
    | cons c s =>
      rw [Pattern.run_char] at member
      split at member
      · obtain rfl := List.mem_singleton.mp member
        rfl
      · cases member
  | seq first second ihFirst ihSecond =>
    obtain ⟨before, inFirst, inMap⟩ := List.mem_flatMap.mp member
    obtain ⟨after, inSecond, rfl⟩ := List.mem_map.mp inMap
    rw [List.append_assoc, ihSecond inSecond, ihFirst inFirst]
  | alt first second ihFirst ihSecond =>
    rcases List.mem_append.mp member with left | right
    · exact ihFirst left
    · exact ihSecond right
  | many greedy p =>
    obtain ⟨lead, inLeads, rfl⟩ := List.mem_map.mp member
    have found : lead ∈ leads p s := by
      split at inLeads
      · exact List.mem_reverse.mp inLeads
      · exact inLeads
    exact (mem_leads found).1
  | group inner ih =>
    obtain ⟨whole, inRun, rfl⟩ := List.mem_map.mp member
    exact ih (m := whole) inRun

theorem scan_skipped (r : Pattern) (before before' : Option Char) {k : ℕ} (inside : k ≤ s.length) :
    scan (fun _ => true) r before k s = scan (fun _ => true) r before' 0 (s.drop k) := by
  induction s generalizing before before' k with
  | nil =>
    obtain rfl := Nat.le_zero.mp inside
    rfl
  | cons c s ih =>
    cases k with
    | zero => rfl
    | succ k => exact ih (some c) before' (Nat.le_of_succ_le_succ inside)

theorem head_some_isSome (p : Char → Bool) (s : List Char) :
    ((Pattern.some_ p).run s).head?.isSome = s.head?.any p := by
  cases s with
  | nil => rfl
  | cons c s =>
    have always : Pattern.empty.run (s.dropWhile p) ≠ [] := List.cons_ne_nil _ _
    rw [← run_seq_empty, head_some fun nothing => absurd nothing always]
    by_cases here : p c = true <;> simp [here, Pattern.run_empty]

theorem agrees_exactly (w s : List Char) : agrees (· == ·) w s = w.isPrefixOf s := by
  induction w generalizing s with
  | nil => cases s <;> rfl
  | cons d w ih =>
    cases s with
    | nil => rfl
    | cons c s => rw [agrees, ih, List.isPrefixOf]

theorem matches_left (r : Pattern) (s : List Char) :
    r.matches s = ((r.run s).head?.map Match.left).isSome := by
  rw [Pattern.matches]
  cases r.run s <;> rfl

/-- A text whose first character is not of a class does not begin with one of the class. -/
theorem chars_skip {p : Char → Bool} (w : List Char) (solid : ∃ d ∈ w.head?, p d = false)
    (r : Pattern) (c : Char)
    (s : List Char) (here : p c = true) : ((Pattern.chars (· == ·) w).seq r).run (c :: s) = [] := by
  obtain ⟨d, head, solid⟩ := solid
  obtain ⟨rest, rfl⟩ := List.head?_eq_some_iff.mp head
  have differ : (d == c) = false := by
    rw [beq_eq_false_iff_ne]
    rintro rfl
    rw [here] at solid
    cases solid
  rw [run_chars_seq, agrees, differ]
  rfl

/-- The search for the next match goes on behind this one. -/
theorem finditer_found {m : Match} (found : (r.run s).head? = some m) (nonempty : m.text ≠ []) :
    finditer r s = m :: finditer r m.rest := by
  have whole := run_text (List.mem_of_mem_head? found)
  cases text : m.text with
  | nil => exact absurd text nonempty
  | cons c t =>
    rw [text, List.cons_append] at whole
    subst whole
    rw [finditer, scan, if_pos rfl, found]
    change m :: _ = _
    rw [scan_skipped r (some c) none (by simp [text]), text]
    simp [finditer]

theorem finditer_none {c : Char} (nothing : (r.run (c :: s)).head? = none) :
    finditer r (c :: s) = finditer r s := by
  rw [finditer, scan, if_pos rfl, nothing]
  exact scan_skipped r (some c) none (Nat.zero_le _)

theorem run_eq_nil_iff_head : r.run s = [] ↔ (r.run s).head? = none := List.head?_eq_none_iff.symm

/-- A search passes by characters at which the pattern never begins. -/
theorem search_skip {p : Char → Bool} (skips : ∀ c s, p c = true → r.run (c :: s) = []) {w : List Char}
    (all : ∀ c ∈ w, p c = true) (t : List Char) :
    search r (w ++ t) = (search r t).map fun found => (w ++ found.1, found.2) := by
  induction w with
  | nil => simp
  | cons c w ih =>
    obtain ⟨here, rest⟩ := List.forall_mem_cons.mp all
    rw [List.cons_append, search, skips c _ here, ih rest]
    simp [Option.map_map, Function.comp_def]

theorem search_suffix (there : search r (t ++ s) = none) : search r s = none := by
  induction t with
  | nil => exact there
  | cons c t ih =>
    rw [List.cons_append, search] at there
    split at there
    · cases there
    · exact ih (Option.map_eq_none_iff.mp there)

/-- Nothing is found behind fewer white space where nothing is found behind all of it. -/
theorem search_leads {p : Char → Bool} (skips : ∀ c s, p c = true → r.run (c :: s) = [])
    (fails : search r (s.dropWhile p) = none) : ∀ lead ∈ leads p s, search r lead.2 = none := by
  intro lead member
  have all : ∀ c ∈ s.takeWhile p, p c = true := fun c inside => List.mem_takeWhile_imp inside
  have whole := search_skip skips all (s.dropWhile p)
  rw [List.takeWhile_append_dropWhile, fails, ← (mem_leads member).1] at whole
  exact search_suffix whole

/-- Before anything, taken lazily, it does not matter how much a greedy repetition takes. -/
theorem head_greedy_lazy {p : Char → Bool} (skips : ∀ c s, p c = true → r.run (c :: s) = []) (s : List Char) :
    (((Pattern.many true p).seq ((Pattern.many false fun _ => true).seq r)).run s).head? =
      (((Pattern.many false fun _ => true).seq r).run s).head? := by
  have nothing (t : List Char) :
      ((Pattern.many false fun _ => true).seq r).run t = [] ↔ search r t = none := by
    rw [run_eq_nil_iff_head, head_lazy_seq, Option.map_eq_none_iff]
  have all : ∀ c ∈ s.takeWhile p, p c = true := fun c inside => List.mem_takeWhile_imp inside
  have whole := search_skip skips all (s.dropWhile p)
  rw [List.takeWhile_append_dropWhile] at whole
  rw [head_greedy fun none lead member =>
    (nothing _).mpr (search_leads skips ((nothing _).mp none) lead member), head_lazy_seq, head_lazy_seq, whole]
  simp [Option.map_map, Function.comp_def]

/-- One or more of a class, greedily, then anything, lazily. -/
theorem head_some_lazy {p : Char → Bool} (skips : ∀ c s, p c = true → r.run (c :: s) = []) (c : Char)
    (s : List Char) :
    (((Pattern.some_ p).seq ((Pattern.many false fun _ => true).seq r)).run (c :: s)).head? =
      if p c then (search r s).map fun found =>
        ⟨c :: (found.1 ++ found.2.text), found.2.groups, found.2.rest⟩
      else none := by
  rw [Pattern.some_, run_seq_assoc, Pattern.run_seq, Pattern.run_char]
  split
  · rw [List.flatMap_singleton, List.head?_map, head_greedy_lazy skips, head_lazy_seq]
    simp [Option.map_map, Function.comp_def]
  · rfl

end Runs

end Lib.Regex

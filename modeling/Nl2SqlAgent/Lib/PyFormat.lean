import Nl2SqlAgent.Lib.PyText
import Nl2SqlAgent.Lib.Raising

/-! `str.format`: the scanner of the format string and the replacement of its fields. The text is
built from left to right, so that the first field that cannot be replaced raises before anything
behind it is read. -/
namespace Lib.PyFormat

/-- What stands between the braces: `name`, `!conversion` and `:spec`. -/
structure Field where
  name : List Char
  conversion : Option Char := none
  spec : List Char := []
  deriving DecidableEq, Repr

inductive State where
  | text
  | name (read : List Char)
  /-- Between square brackets in a name. -/
  | index (read : List Char)
  /-- Behind the exclamation mark. -/
  | conversion (name : List Char)
  | converted (name : List Char) (conversion : Char)
  /-- In the specification, with the braces that are open. -/
  | spec (field : Field) (depth : ℕ)

/-- The formatted rest of a template; `render` replaces one field. -/
def run (render : Field → Raising (List Char)) : State → List Char → Raising (List Char)
  | .text, [] => .ok []
  | .text, '{' :: '{' :: s => (run render .text s).map ('{' :: ·)
  | .text, '}' :: '}' :: s => (run render .text s).map ('}' :: ·)
  | .text, c :: s =>
    if c = '}' then .error .valueError
    else if c = '{' then if s = [] then .error .valueError else run render (.name []) s
    else (run render .text s).map (c :: ·)
  | .name read, c :: s =>
    if c = '{' then .error .valueError
    else if c = '[' then run render (.index (read ++ [c])) s
    else if c = '}' then do
      let value ← render ⟨read, none, []⟩
      (run render .text s).map (value ++ ·)
    else if c = ':' then run render (.spec ⟨read, none, []⟩ 1) s
    else if c = '!' then run render (.conversion read) s
    else run render (.name (read ++ [c])) s
  | .index read, c :: s =>
    if c = ']' then run render (.name (read ++ [c])) s else run render (.index (read ++ [c])) s
  | .conversion name, c :: s => run render (.converted name c) s
  | .converted name conversion, c :: s =>
    if c = '}' then do
      let value ← render ⟨name, some conversion, []⟩
      (run render .text s).map (value ++ ·)
    else if c = ':' then run render (.spec ⟨name, some conversion, []⟩ 1) s
    else .error .valueError
  | .spec field depth, c :: s =>
    if c = '}' then
      if depth = 1 then do
        let value ← render field
        (run render .text s).map (value ++ ·)
      else run render (.spec { field with spec := field.spec ++ [c] } (depth - 1)) s
    else
      run render (.spec { field with spec := field.spec ++ [c] } (if c = '{' then depth + 1 else depth)) s
  -- the end of the template inside a field
  | _, [] => .error .valueError

def Field.first (field : Field) : List Char := field.name.takeWhile fun c => c ≠ '.' ∧ c ≠ '['

/-- A field by keyword arguments alone: a number asks for a positional argument, of which there is
none. What an attribute, an index, a conversion or a specification makes of the value is `apply`. -/
def replacement (arguments : List (String × String)) (apply : String → Field → Raising (List Char))
    (field : Field) : Raising (List Char) :=
  if field.first.all Char.isDigit then .error .indexError
  else match arguments.lookup (.ofList field.first) with
    | none => .error (.keyError (.ofList field.first))
    | some value => if field = ⟨field.first, none, []⟩ then .ok value.toList else apply value field

/-- `template.format(**arguments)`. -/
def format (apply : String → Field → Raising (List Char)) (template : String)
    (arguments : List (String × String)) : Raising String :=
  (run (replacement arguments apply) .text template.toList).map String.ofList

def Literal (w : List Char) : Prop := ∀ c ∈ w, c ≠ '{' ∧ c ≠ '}'

instance (w : List Char) : Decidable (Literal w) := List.decidableBAll _ w

/-- The characters that a string is written with; to decide on them is to decode nothing. -/
theorem literal_ofList {w : List Char} (literal : Literal w) : Literal (String.ofList w).toList := by
  rwa [String.toList_ofList]

theorem literal_append {a b : String} (first : Literal a.toList) (last : Literal b.toList) :
    Literal (a ++ b).toList := by
  rw [String.toList_append]
  exact fun c member => (List.mem_append.mp member).elim (first c) (last c)

/-- A name with nothing in it that ends or divides it. -/
def Plain (w : List Char) : Prop := ∀ c ∈ w, c ∉ ['{', '}', '[', ':', '!', '.']

instance (w : List Char) : Decidable (Plain w) := List.decidableBAll _ w

section

variable {render : Field → Raising (List Char)} {w s : List Char}

theorem run_name_cons (read : List Char) (c : Char) (s : List Char) : run render (.name read) (c :: s) =
    if c = '{' then .error .valueError
    else if c = '[' then run render (.index (read ++ [c])) s
    else if c = '}' then do
      let value ← render ⟨read, none, []⟩
      (run render .text s).map (value ++ ·)
    else if c = ':' then run render (.spec ⟨read, none, []⟩ 1) s
    else if c = '!' then run render (.conversion read) s
    else run render (.name (read ++ [c])) s := rfl

theorem run_spec_cons (field : Field) (depth : ℕ) (c : Char) (s : List Char) :
    run render (.spec field depth) (c :: s) =
      if c = '}' then
        if depth = 1 then do
          let value ← render field
          (run render .text s).map (value ++ ·)
        else run render (.spec { field with spec := field.spec ++ [c] } (depth - 1)) s
      else run render (.spec { field with spec := field.spec ++ [c] }
        (if c = '{' then depth + 1 else depth)) s := rfl

theorem run_literal (literal : Literal w) (s : List Char) :
    run render .text (w ++ s) = (run render .text s).map (w ++ ·) := by
  induction w with
  | nil => cases found : run render .text s <;> simp [found, Except.map]
  | cons c w ih =>
    obtain ⟨notOpen, notClose⟩ := literal c List.mem_cons_self
    rw [List.cons_append, run.eq_4 render c (w ++ s) (fun _ same _ => notOpen same)
      (fun _ same _ => notClose same), if_neg notClose, if_neg notOpen,
      ih fun d member => literal d (List.mem_cons_of_mem _ member)]
    cases run render .text s <;> rfl

theorem run_open {c : Char} (single : c ≠ '{') (s : List Char) :
    run render .text ('{' :: c :: s) = run render (.name []) (c :: s) := by
  rw [run.eq_4 render '{' (c :: s) (fun _ _ same => single (List.cons.inj same).1) (by simp)]
  simp

theorem run_name (plain : Plain w) (read s : List Char) :
    run render (.name read) (w ++ s) = run render (.name (read ++ w)) s := by
  induction w generalizing read with
  | nil => rw [List.nil_append, List.append_nil]
  | cons c w ih =>
    have here := plain c List.mem_cons_self
    simp only [List.mem_cons, List.not_mem_nil, or_false, not_or] at here
    obtain ⟨opens, closes, index, spec, conversion, -⟩ := here
    rw [List.cons_append, run_name_cons, if_neg opens, if_neg index, if_neg closes, if_neg spec,
      if_neg conversion, ih fun d member => plain d (List.mem_cons_of_mem _ member)]
    rw [List.append_assoc, List.singleton_append]

theorem run_spec (literal : Literal w) (field : Field) (s : List Char) :
    run render (.spec field 1) (w ++ '}' :: s) = (do
      let value ← render { field with spec := field.spec ++ w }
      (run render .text s).map (value ++ ·)) := by
  induction w generalizing field with
  | nil => rw [List.nil_append, List.append_nil, run_spec_cons, if_pos rfl, if_pos rfl]
  | cons c w ih =>
    obtain ⟨notOpen, notClose⟩ := literal c List.mem_cons_self
    rw [List.cons_append, run_spec_cons, if_neg notClose, if_neg notOpen,
      ih (fun d member => literal d (List.mem_cons_of_mem _ member))]
    simp only [List.append_assoc, List.singleton_append]

variable {c : Char}

theorem run_field (plain : Plain (c :: w)) (s : List Char) :
    run render .text ('{' :: c :: w ++ '}' :: s) = (do
      let value ← render ⟨c :: w, none, []⟩
      (run render .text s).map (value ++ ·)) := by
  have single : c ≠ '{' := fun same => plain c List.mem_cons_self (by simp [same])
  rw [List.cons_append, List.cons_append, run_open single, ← List.cons_append, run_name plain, run_name_cons,
    if_neg (by decide), if_neg (by decide), if_pos rfl, List.nil_append]

/-- `{name:spec}`, of which the name is looked up first. -/
theorem run_specified {spec : List Char} (plain : Plain (c :: w)) (literal : Literal spec) (s : List Char) :
    run render .text ('{' :: c :: w ++ ':' :: (spec ++ '}' :: s)) = (do
      let value ← render ⟨c :: w, none, spec⟩
      (run render .text s).map (value ++ ·)) := by
  have single : c ≠ '{' := fun same => plain c List.mem_cons_self (by simp [same])
  rw [List.cons_append, List.cons_append, run_open single, ← List.cons_append, run_name plain, run_name_cons,
    if_neg (by decide), if_neg (by decide), if_neg (by decide), if_pos rfl, run_spec literal,
    List.nil_append]
  rfl

end

section

variable {arguments : List (String × String)} {apply : String → Field → Raising (List Char)}
variable {name : List Char}

theorem first_plain (plain : Plain name) (conversion : Option Char) (spec : List Char) :
    Field.first ⟨name, conversion, spec⟩ = name := by
  refine List.takeWhile_eq_self_iff.mpr fun c member => ?_
  have here := plain c member
  simp only [List.mem_cons, List.not_mem_nil, or_false, not_or] at here
  simp [here]

theorem replacement_found (plain : Plain name) (named : name.all Char.isDigit = false) {value : String}
    (found : arguments.lookup (.ofList name) = some value) :
    replacement arguments apply ⟨name, none, []⟩ = .ok value.toList := by
  rw [replacement, first_plain plain, named]
  simp [found]

theorem replacement_missing (plain : Plain name) (named : name.all Char.isDigit = false)
    (missing : arguments.lookup (.ofList name) = none) (spec : List Char) :
    replacement arguments apply ⟨name, none, spec⟩ = .error (.keyError (.ofList name)) := by
  rw [replacement, first_plain plain, named]
  simp [missing]

end

example : format (fun _ _ => .error .valueError) "valid for \x7bdialect\x7d, \x7b\x7bnot\x7d\x7d here" [("dialect", "sqlite")] =
    .ok "valid for sqlite, \x7bnot\x7d here" := by decide +kernel

end Lib.PyFormat

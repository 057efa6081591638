import Nl2SqlAgent.AgentState

/-! `agent/nodes/generator.py`: the prompt of one generation and the node that
draws one candidate, or up to three with deduplication on a retry. -/
namespace Nl2SqlAgent

open Lib

/-- A reply of the LLM; a call that raises is a missing reply. -/
structure Reply where
  raw : String
  usage : TokenUsage
  deriving DecidableEq, Repr

namespace Generator

/-- `_normalize_sql` of the generator: white space and case. -/
def normalizeSql (env : Env) (sql : String) : String :=
  env.case.upper (Py.strip (Py.join " " (Py.words sql)))

def errorSection (lastError : String) : String := "## LAST_ERROR\n" ++ lastError

/-- The correction context, only when both texts are present. -/
def errorParts (s : AgentState) : List String :=
  match s.lastError, s.lastSql with
  | some lastError, some (some lastSql) =>
    if lastError ≠ "" ∧ lastSql ≠ "" then [errorSection lastError, "## LAST_SQL\n" ++ lastSql]
    else []
  | _, _ => []

/-- The sections that follow the correction context. -/
def contextParts (s : AgentState) : List String :=
  ["## SCHEMA\n" ++ s.schemaText.getD ""] ++
  (if Py.truthy s.fewshotText then ["## FEW-SHOT EXAMPLES\n" ++ s.fewshotText.getD ""] else []) ++
  (if Py.truthy s.sampleRowsText then ["## SAMPLE ROWS\n" ++ s.sampleRowsText.getD ""] else []) ++
  (if Py.truthy s.notesText then
    ["## RETRIEVED NOTES\nNotes are hints only. SCHEMA is the ground truth — if notes conflict " ++
      "with schema columns, types, or values, trust the schema.\n" ++ s.notesText.getD ""]
  else []) ++
  (if s.subQuestions.getD [] ≠ [] then
    ["## SUB_QUESTIONS (use CTE/WITH to implement each step)\n" ++
      Py.join "\n" (s.subQuestions.getD [])]
  else []) ++
  ["## USER QUESTION\n" ++ s.question]

/-- The sections of the human message of `_generate_one`, in order. -/
def promptParts (s : AgentState) : List String := errorParts s ++ contextParts s

def prompt (s : AgentState) : String := Py.join "\n\n" (promptParts s)

/-- What the drawing loop carries from one temperature to the next. -/
structure Drawn where
  candidates : List String
  raws : List String
  usage : TokenUsage
  deriving DecidableEq, Repr

def isDuplicate (env : Env) (candidates : List String) (sql : String) : Bool :=
  candidates.any fun c => normalizeSql env c == normalizeSql env sql

/-- The loop over the temperatures, by index. The first call's exception leaves the
node; a later one is skipped. A duplicate at the second temperature ends the loop. -/
def drawCandidates (env : Env) (reply : Nat → Option Reply) : List Nat → Drawn → Option Drawn
  | [], drawn => some drawn
  | i :: rest, drawn =>
    match reply i with
    | none => if i = 0 then none else drawCandidates env reply rest drawn
    | some r =>
      let sql := env.extractSql r.raw
      let counted : Drawn :=
        { drawn with raws := drawn.raws ++ [r.raw], usage := drawn.usage.add r.usage }
      if sql = "" then drawCandidates env reply rest counted
      else
        let isDup := isDuplicate env drawn.candidates sql
        let kept := if isDup then drawn.candidates else drawn.candidates ++ [sql]
        if 1 ≤ kept.length ∧ i = 1 ∧ isDup = true then some { counted with candidates := kept }
        else drawCandidates env reply rest { counted with candidates := kept }

def temperatures : List Nat := [0,1,2]

/-- `generator_node`; `reply i` is what the call at temperature index `i` returns. -/
def node (env : Env) (reply : Nat → Option Reply) (s : AgentState) : Option AgentState :=
  let usage := s.tokenUsage.getD .zero
  if s.retryCount.getD 0 > 0 then
    (drawCandidates env reply temperatures ⟨[], [], usage⟩).map fun drawn =>
      match drawn.candidates with
      | [] =>
        { s with
          sql := some ""
          rawResponse := some (Py.join "\n---\n" drawn.raws)
          tokenUsage := some drawn.usage
          candidateSqls := some []
          lastError := some "All generation attempts returned empty SQL."
          lastSql := some (some "") }
      | first :: _ =>
        { s with
          sql := some first
          rawResponse := some (Py.join "\n---\n" drawn.raws)
          tokenUsage := some drawn.usage
          candidateSqls := some drawn.candidates
          lastError := some ""
          lastSql := some (some "") }
  else
    (reply 0).map fun r =>
      { s with
        sql := some (env.extractSql r.raw)
        rawResponse := some r.raw
        tokenUsage := some (usage.add r.usage)
        candidateSqls := some []
        lastError := some ""
        lastSql := some (some "") }

/-- What a visit of the node does to the keys that other nodes read: a new `sql`,
the first of the candidates when there are any, and no correction left over. -/
structure Visited (s t : AgentState) : Prop where
  sql : ∃ sql, t.sql = some sql ∧ ∀ candidates, t.candidateSqls = some candidates →
    candidates = [] ∨ candidates.head? = some sql
  candidates : t.candidateSqls.isSome
  lastSql : t.lastSql = some (some "")
  frame : ∃ sql raw candidates usage lastError, t = { s with
    sql := some sql, rawResponse := raw, candidateSqls := some candidates, tokenUsage := usage,
    lastError := lastError, lastSql := some (some "") }

theorem node_visited (env : Env) (reply : Nat → Option Reply)
    (visit : node env reply s = some t) : Visited s t := by
  simp only [node] at visit
  split at visit
  · obtain ⟨drawn, -, rfl⟩ := Option.map_eq_some_iff.mp visit
    cases found : drawn.candidates with
    | nil => exact ⟨⟨"", rfl, by simp⟩, rfl, rfl, ⟨_, _, _, _, _, rfl⟩⟩
    | cons first rest => exact ⟨⟨first, rfl, by simp⟩, rfl, rfl, ⟨_, _, _, _, _, rfl⟩⟩
  · obtain ⟨r, -, rfl⟩ := Option.map_eq_some_iff.mp visit
    exact ⟨⟨_, rfl, by simp⟩, rfl, rfl, ⟨_, _, _, _, _, rfl⟩⟩

/-- Headings differ in their first letter: only a correction section has an `L`. -/
theorem contextParts_heading (s : AgentState) (part : String) (member : part ∈ contextParts s) :
    part.toList[3]? ≠ some 'L' := by
  have heading (title rest : String) (letter : Char) (other : letter ≠ 'L')
      (at_three : title.toList[3]? = some letter) : (title ++ rest).toList[3]? ≠ some 'L' := by
    obtain ⟨bound, _⟩ := List.getElem?_eq_some_iff.mp at_three
    rw [String.toList_append, List.getElem?_append_left bound, at_three]
    simpa using other
  simp only [contextParts, List.mem_append, List.mem_singleton] at member
  rcases member with ((((rfl | fewshot) | samples) | notes) | questions) | rfl
  · exact heading "## SCHEMA\n" _ 'S' (by decide) rfl
  · split at fewshot
    · rw [List.mem_singleton.mp fewshot]
      exact heading "## FEW-SHOT EXAMPLES\n" _ 'F' (by decide) rfl
    · simp at fewshot
  · split at samples
    · rw [List.mem_singleton.mp samples]
      exact heading "## SAMPLE ROWS\n" _ 'S' (by decide) rfl
    · simp at samples
  · split at notes
    · rw [List.mem_singleton.mp notes, String.append_assoc]
      exact heading "## RETRIEVED NOTES\nNotes are hints only. SCHEMA is the ground truth — if notes conflict " _
        'R' (by decide) rfl
    · simp at notes
  · split at questions
    · rw [List.mem_singleton.mp questions]
      exact heading "## SUB_QUESTIONS (use CTE/WITH to implement each step)\n" _ 'S' (by decide) rfl
    · simp at questions
  · exact heading "## USER QUESTION\n" _ 'U' (by decide) rfl

theorem errorSection_heading (text : String) : (errorSection text).toList[3]? = some 'L' := by
  rw [errorSection, String.toList_append]
  rfl

/-- The prompt carries a correction text exactly when the state holds that text and
a previous SQL, both non-empty. -/
theorem errorSection_in_prompt (s : AgentState) (text : String) :
    errorSection text ∈ promptParts s ↔
      s.lastError = some text ∧ text ≠ "" ∧ ∃ sql, s.lastSql = some (some sql) ∧ sql ≠ "" := by
  have outside : errorSection text ∉ contextParts s := fun member =>
    contextParts_heading s _ member (errorSection_heading text)
  have notSql (sql : String) : errorSection text ≠ "## LAST_SQL\n" ++ sql := by
    intro same
    have letters := congrArg (fun part : String => part.toList[8]?) same
    simp only [errorSection, String.toList_append] at letters
    exact absurd (Option.some.inj letters) (by decide)
  have injective (other : String) : errorSection text = errorSection other ↔ text = other :=
    String.append_right_inj _
  simp only [promptParts, List.mem_append, outside, or_false]
  unfold errorParts
  split
  next lastError lastSql holdsError holdsSql =>
    split
    next present =>
      simp only [List.mem_cons, injective, notSql, List.not_mem_nil, or_false]
      constructor
      · rintro rfl
        exact ⟨holdsError, present.1, lastSql, holdsSql, present.2⟩
      · rintro ⟨same, -⟩
        exact (Option.some.inj (holdsError.symm.trans same)).symm
    next missing =>
      simp only [List.not_mem_nil, false_iff]
      rintro ⟨same, nonempty, sql, stored, sqlNonempty⟩
      obtain rfl := Option.some.inj (holdsError.symm.trans same)
      obtain rfl := Option.some.inj (Option.some.inj (holdsSql.symm.trans stored))
      exact missing ⟨nonempty, sqlNonempty⟩
  next absent =>
    simp only [List.not_mem_nil, false_iff]
    rintro ⟨same, -, sql, stored, -⟩
    exact absent text sql same stored

end Generator
end Nl2SqlAgent

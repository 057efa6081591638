import Nl2SqlAgent.ExtractSql
import Nl2SqlAgent.Lib.Json
import Nl2SqlAgent.Lib.PyDict
import Nl2SqlAgent.Lib.PyFormat
import Nl2SqlAgent.SafetyRules

/-! `guard/review.py`: the check of the identifiers against the schema, the prompt of the reviewer,
and the merge of the check with the reviewer's reply. -/
namespace Nl2SqlAgent

open Lib

namespace ReviewMerge

open Regex
open ExtractSql (word lazily)
open Py (isSpace)
open Raising (count)

/-- What the functions take from the interpreter: the case mapping, `\w` and `isdigit`, the order in
which a set of texts is walked, `json.loads` (`none` where it raises a `JSONDecodeError`), and what
`format` makes of a field that asks for more than the value itself. -/
structure Interpreter where
  case : Py.Case
  isWord : Char → Bool
  isDigit : Char → Bool
  setOrder : List String → List String
  setOrder_perm : ∀ l, (setOrder l).Perm l
  loads : String → Option Json
  formatValue : String → PyFormat.Field → Raising (List Char)

/-- The lines of the prompt in front of the dialect. -/
def checklistLines : List String :=
  ["You are a SQL reviewer. Your job is to find errors in a generated SQL " ++
      "query. You NEVER generate SQL yourself — you only review.",
    "",
    "## Review checklist",
    "For each of the following categories, check the SQL and report any issues:",
    "",
    "1. **Schema alignment**: Does every table name and column name exist in the SCHEMA " ++
      "below? Flag any identifier that is not in the schema (hallucination).",
    "2. **Syntax completeness**: Does every JOIN have an ON condition? Does every " ++
      "GROUP BY include non-aggregated columns? Do subqueries have aliases?",
    "3. **Business rules**: Does the SQL logic match the RETRIEVED NOTES (if provided)? " ++
      "For example, if notes say \"valid orders exclude cancelled/refunded\", does the SQL " ++
      "filter accordingly?"]

/-- The lines between the dialect and the first object. -/
def safetyLines : List String :=
  ["5. **Safety**: Does the SQL contain INSERT, UPDATE, DELETE, DROP, " ++
      "ALTER, CREATE, PRAGMA? If so, flag immediately.",
    "",
    "## Output format (strict JSON only, no markdown, no extra text)"]

def validLines : List String :=
  ["\x7b",
    "  \"valid\": true,",
    "  \"issues\": [],",
    "  \"critical_count\": 0,",
    "  \"suggested_fix\": \"\"",
    "\x7d"]

def remainingLines : List String :=
  ["",
    "or if issues found:",
    "",
    "\x7b",
    "  \"valid\": false,",
    "  \"issues\": [",
    "    \x7b\"type\": \"hallucination|syntax|business_rule|dialect|safety\", " ++
      "\"detail\": \"specific description of the issue\"\x7d",
    "  ],",
    "  \"critical_count\": 2,",
    "  \"suggested_fix\": \"Brief suggestion for how to fix the SQL. " ++
      "Be specific — mention exact column names.\"",
    "\x7d",
    "",
    "## Rules",
    "- If any hallucination is found (column/table not in schema), valid MUST be false.",
    "- Be concise in suggested_fix — one or two sentences.",
    "- Output ONLY the JSON. No markdown code fences, no explanations."]

def dialectLine : String :=
  "4. **Dialect compliance**: Are the functions and syntax valid for \x7bdialect\x7d?"

def reviewerPrompt : String :=
  Py.join "\n" (checklistLines ++ dialectLine :: safetyLines ++ validLines ++ remainingLines)

variable (py : Interpreter)

/-- `CREATE TABLE (\w+)`. -/
def tablePattern : Pattern := (word "CREATE TABLE ").seq (.group (.some_ py.isWord))

/-- `CREATE TABLE (\w+)\s*\((.*?)\);`. -/
def ddlPattern : Pattern :=
  (tablePattern py).seq ((Pattern.many true isSpace).seq
    ((Pattern.lit "(").seq ((Pattern.group lazily).seq (.lit ");"))))

/-- `\s*(\w+)`, which stands behind `^`. -/
def columnPattern : Pattern := (Pattern.many true isSpace).seq (.group (.some_ py.isWord))

/-- `'.*?'`. -/
def stringPattern : Pattern := (Pattern.lit "'").seq ((Pattern.many false (· ≠ '\n')).seq (.lit "'"))

def backquotedPattern : Pattern :=
  (Pattern.char (· = '`')).seq ((Pattern.group (.some_ py.isWord)).seq (.char (· = '`')))

/-- `(?:FROM|JOIN)\s+(\w+)`. -/
def referencePattern : Pattern :=
  ((word "FROM").alt (word "JOIN")).seq ((Pattern.some_ isSpace).seq (.group (.some_ py.isWord)))

/-- `(\w+)\.(\w+)`. -/
def qualifiedPattern : Pattern :=
  (Pattern.group (.some_ py.isWord)).seq ((Pattern.lit ".").seq (.group (.some_ py.isWord)))

/-- `[a-zA-Z_]\w*`, which stands behind `\b`. -/
def identifierPattern : Pattern :=
  .group ((Pattern.char fun c => c.isAlpha || c = '_').seq (.many true py.isWord))

def lineStart (before : Option Char) : Bool := before.all (· = '\n')

def wordStart (before : Option Char) : Bool := before.all fun c => !py.isWord c

def sqlKeywords : List String :=
  ["select","from","where","and","or","not","in","on","as","by","group","order","having","limit",
    "join","left","right","inner","outer","cross","full","union","all","distinct","case","when",
    "then","else","end","between","like","is","null","true","false","count","sum","avg","min","max",
    "date","strftime","cast","coalesce","exists","asc","desc","set","into","values","create","drop",
    "alter","table","index","view","database"]

/-- The columns of the schema, each alone and behind its table. -/
def schemaColumns (schemaText : String) : List String :=
  (finditer (ddlPattern py) schemaText.toList).flatMap fun table =>
    (scan lineStart (columnPattern py) none 0 (table.captured 1).toList).flatMap fun column =>
      [py.case.lower (column.captured 0),
        py.case.lower (table.captured 0 ++ "." ++ column.captured 0)]

/-- The statement with its strings emptied and its backquotes taken away. -/
def cleaned (sql : String) : List Char :=
  substitute (backquotedPattern py) (fun m => m.groups.getD 0 []) 0
    (substitute stringPattern (fun _ => "'...'".toList) 0 sql.toList)

def hardCheckHallucinations (sql schemaText : String) : List Issue :=
  let schemaTables := (finditer (tablePattern py) schemaText.toList).map (Match.captured · 0)
  let schemaCols := schemaColumns py schemaText
  let sqlClean := cleaned py sql
  let tableRefs := (finditer (referencePattern py) sqlClean).map fun m => py.case.lower (m.captured 0)
  let qualified := finditer (qualifiedPattern py) sqlClean
  let columnIssues := qualified.filterMap fun m =>
    let owner := py.case.lower (m.captured 0)
    let ref := py.case.lower (m.captured 0 ++ "." ++ m.captured 1)
    if owner ∉ tableRefs ∧ owner ∉ schemaTables then none
    else if ref ∈ schemaCols then none
    else some ⟨"hallucination", "Column '" ++ ref ++ "' not found in schema."⟩
  let knownCols := schemaCols.filter fun c => '.' ∉ c.toList
  let qualifiedParts := qualified.map fun m => py.case.lower (m.captured 1)
  let sqlUpper := py.case.upper (.ofList sqlClean)
  let words := scan (wordStart py) (identifierPattern py) none 0 sqlUpper.toList
  let bareCols := py.setOrder (words.map (Match.captured · 0)).dedup
  let unknown := bareCols.find? fun col =>
    let cl := py.case.lower col
    !(decide (cl ∈ sqlKeywords) || cl.toList.all py.isDigit || decide (cl.length ≤ 1) ||
      decide (cl ∈ knownCols) || decide (cl ∈ tableRefs) || decide (cl ∈ schemaTables) ||
      decide (cl ∈ qualifiedParts))
  columnIssues ++ unknown.toList.map fun col => ⟨"hallucination",
    "Identifier '" ++ col ++ "' not found in schema — not a recognized table or column name."⟩

/-- Three backticks, `json\s*(.*?)`, three backticks. -/
def jsonPattern : Pattern :=
  (word "```json").seq ((Pattern.many true isSpace).seq ((Pattern.group lazily).seq (word "```")))

/-- From the first opening brace to the last closing one. -/
def objectPattern : Pattern :=
  (Pattern.char (· = '{')).seq ((Pattern.many true fun _ => true).seq (.char (· = '}')))

def unparsed : Json := .obj [("valid", .bool true), ("issues", .arr []), ("critical_count", .int 0),
  ("suggested_fix", .str ""), ("_parse_failed", .bool true)]

def extractJson (response : String) : Json :=
  let block := (searchGroup jsonPattern response).bind py.loads
  let object := (search objectPattern response.toList).bind fun found => py.loads (.ofList found.2.text)
  (block.or object).getD unparsed

/-- `value.get(key, default)`: only a dictionary has it. -/
def get (value : Json) (key : String) (default : Json) : Raising Json :=
  match value with
  | .obj fields => .ok ((fields.lookup key).getD default)
  | _ => .error .attributeError

/-- What `for` makes of a value. -/
def iterate : Json → Raising (List Json)
  | .arr items => .ok items
  | .obj fields => .ok (fields.map fun field => .str field.1)
  | .str s => .ok (s.toList.map fun c => .str (.singleton c))
  | _ => .error .typeError

/-- The text that `re.search` is given. -/
def asText : Json → Raising String
  | .str s => .ok s
  | _ => .error .typeError

/-- `value + n`. -/
def addCount (value : Json) (n : ℕ) : Raising Json :=
  match value with
  | .int m => .ok (.int (m + n))
  | .bool b => .ok (.int ((if b then 1 else 0) + n))
  | .float q => .ok (.float (q + n))
  | .nonFinite => .ok .nonFinite
  | _ => .error .typeError

/-- `'([^']+)'`. -/
def namePattern : Pattern :=
  (Pattern.lit "'").seq ((Pattern.group (.some_ (· ≠ '\''))).seq (.lit "'"))

def named (detail : String) : Option String := (searchGroup namePattern detail).map py.case.lower

def Issue.json (issue : Issue) : Json :=
  .obj [("type", .str issue.type), ("detail", .str issue.detail)]

def seenIds (hard : List Issue) : List String := hard.filterMap fun issue => named py issue.detail

/-- The issues of the reply that repeat none of the check, as the loop collects them. -/
def dedupe (seen : List String) (items : List Json) : Raising (List Json) :=
  items.foldlM (fun kept issue => do
    let detail ← get issue "detail" (.str "")
    let text ← asText detail
    if (named py text).any (· ∈ seen) then return kept else return kept ++ [issue]) []

/-- The tokens of the call, as they are returned. -/
def usageOf (tokenUsage : Json) : Raising Json := do
  let prompt ← get tokenUsage "prompt_tokens" (.int 0)
  let completion ← get tokenUsage "completion_tokens" (.int 0)
  let total ← get tokenUsage "total_tokens" (.int 0)
  return .obj [("prompt", prompt), ("completion", completion), ("total", total)]

/-- From the parsed reply to the returned dictionary. -/
def merge (hard : List Issue) (result tokenUsage : Json) : Raising (PyDict String Json) := do
  let usage ← usageOf tokenUsage
  let llmIssues ← get result "issues" (.arr [])
  let items ← iterate llmIssues
  let deduped ← dedupe py (seenIds py hard) items
  let allIssues := hard.map Issue.json ++ deduped
  let critical ← count (fun issue =>
    (get issue "type" .null).map fun type => decide (type = .str "hallucination")) allIssues
  let counted ← get result "critical_count" (.int 0)
  let sum ← addCount counted critical
  match result with
  | .obj fields =>
    let merged := (PyDict.set fields "issues" (.arr allIssues)).set "critical_count" sum
    let merged := if hard = [] then merged else PyDict.set merged "valid" (.bool false)
    return PyDict.set merged "token_usage" usage
  | _ => .error .typeError

/-- A character of a JSON text, as `ensure_ascii=False` leaves it. -/
def escaped (c : Char) : List Char :=
  if c = '"' then ['\\', '"'] else if c = '\\' then ['\\', '\\']
  else if c = '\n' then ['\\', 'n'] else if c = '\r' then ['\\', 'r']
  else if c = '\t' then ['\\', 't'] else [c]

def dumpsText (s : String) : String := "\"" ++ .ofList (s.toList.flatMap escaped) ++ "\""

/-- `json.dumps(hard_issues, ensure_ascii=False)`. -/
def dumpsIssues (issues : List Issue) : String :=
  "[" ++ Py.join ", " (issues.map fun issue =>
    "\x7b\"type\": " ++ dumpsText issue.type ++ ", \"detail\": " ++ dumpsText issue.detail ++
      "\x7d") ++ "]"

def userMessage (hard : List Issue) (sql schemaText notesText : String) : String :=
  Py.join "\n\n" (["## SCHEMA\n" ++ schemaText] ++
    (if notesText ≠ "" then ["## RETRIEVED NOTES\n" ++ notesText] else []) ++
    (if hard ≠ [] then
      ["## PRE-DETECTED ISSUES (hallucinations confirmed by code)\n" ++ dumpsIssues hard] else []) ++
    ["## SQL TO REVIEW\n```sql\n" ++ sql ++ "\n```"])

/-- A response of the model; the usage is an empty dictionary where it reports none. -/
structure Response where
  content : String
  tokenUsage : Json := .obj []

/-- `review`; the model is called with the system message and the user message. -/
def review (invoke : String → String → Raising Response)
    (sql schemaText notesText dialect : String) : Raising (PyDict String Json) := do
  let hard := hardCheckHallucinations py sql schemaText
  let system ← PyFormat.format py.formatValue reviewerPrompt [("dialect", dialect)]
  let response ← invoke system (userMessage hard sql schemaText notesText)
  merge py hard (extractJson py response.content) response.tokenUsage

/-- The detail of an issue of the reply, where it is a text. -/
def textOf : Json → Option String
  | .obj fields =>
    match (fields.lookup "detail").getD (.str "") with
    | .str s => some s
    | _ => none
  | _ => none

/-- The issue names an identifier that the check has flagged. -/
def repeats (hard : List Issue) (issue : Json) : Bool :=
  ((textOf issue).bind (named py)).any (· ∈ seenIds py hard)

def isHallucination : Json → Bool
  | .obj fields => decide ((fields.lookup "type").getD .null = .str "hallucination")
  | _ => false

/-- The merged dictionary against the check and the reply. -/
structure MergeLaw (hard : List Issue) (reply : Json) (merged : PyDict String Json) : Prop where
  issues : ∃ items, (get reply "issues" (.arr []) >>= iterate) = .ok items ∧
    merged.lookup "issues" =
      some (.arr (hard.map Issue.json ++ items.filter fun issue => !repeats py hard issue))
  valid : hard ≠ [] → merged.lookup "valid" = some (.bool false)
  critical : ∃ counted issues sum, get reply "critical_count" (.int 0) = .ok counted ∧
    merged.lookup "issues" = some (.arr issues) ∧
    addCount counted (issues.countP isHallucination) = .ok sum ∧
    merged.lookup "critical_count" = some sum

def isNumber : Json → Bool
  | .int _ | .bool _ | .float _ | .nonFinite => true
  | _ => false

/-- What the merge needs: a dictionary of tokens, a dictionary for a reply, issues that are
dictionaries with a text each, and a count that is a number. -/
structure Mergeable (reply tokenUsage : Json) (items : List Json) : Prop where
  usage : ∃ fields, tokenUsage = .obj fields
  listed : (get reply "issues" (.arr []) >>= iterate) = .ok items
  texts : ∀ issue ∈ items, (textOf issue).isSome = true
  counted : ∃ counted, get reply "critical_count" (.int 0) = .ok counted ∧ isNumber counted = true

section

variable {py} {hard : List Issue}

theorem bind_ok {α β : Type} {x : Raising α} {f : α → Raising β} {b : β} :
    (x >>= f) = .ok b ↔ ∃ a, x = .ok a ∧ f a = .ok b := by
  cases x with
  | error e => exact ⟨nofun, fun ⟨_, impossible, _⟩ => nomatch impossible⟩
  | ok a => exact ⟨fun same => ⟨a, rfl, same⟩, fun ⟨_, same, rest⟩ => Except.ok.inj same ▸ rest⟩

theorem detail_iff {issue : Json} {text : String} :
    (get issue "detail" (.str "") >>= asText) = .ok text ↔ textOf issue = some text := by
  cases issue with
  | obj fields =>
    simp only [get, textOf, Raising.ok_bind]
    generalize (fields.lookup "detail").getD (.str "") = detail
    cases detail <;> simp [asText]
  | _ => exact ⟨nofun, nofun⟩

theorem dedupe_iff {items kept : List Json} : dedupe py (seenIds py hard) items = .ok kept ↔
    (∀ issue ∈ items, (textOf issue).isSome = true) ∧
      kept = items.filter fun issue => !repeats py hard issue := by
  have turns (before : List Json) : items.foldlM (fun kept issue => do
      let detail ← get issue "detail" (.str "")
      let text ← asText detail
      if (named py text).any (· ∈ seenIds py hard) then return kept else return kept ++ [issue])
      before = .ok kept ↔ (∀ issue ∈ items, (textOf issue).isSome = true) ∧
        kept = before ++ items.filter fun issue => !repeats py hard issue := by
    induction items generalizing before with
    | nil =>
      simp only [List.foldlM_nil, List.not_mem_nil, false_imp_iff, implies_true, true_and,
        List.filter_nil, List.append_nil]
      exact ⟨fun same => (Except.ok.inj same).symm, fun same => same ▸ rfl⟩
    | cons issue rest ih =>
      rw [List.foldlM_cons]
      cases text : textOf issue with
      | none =>
        refine iff_of_false (fun loop => ?_) fun both => ?_
        · obtain ⟨after, turn, -⟩ := bind_ok.mp loop
          obtain ⟨detail, got, more⟩ := bind_ok.mp turn
          obtain ⟨found, isText, -⟩ := bind_ok.mp more
          have given := detail_iff.mp (bind_ok.mpr ⟨detail, got, isText⟩)
          rw [text] at given
          cases given
        · have := both.1 issue List.mem_cons_self
          rw [text] at this
          cases this
      | some found =>
        obtain ⟨detail, got, isText⟩ := bind_ok.mp (detail_iff.mpr text)
        have repeated : repeats py hard issue = (named py found).any (· ∈ seenIds py hard) := by
          rw [repeats, text]
          rfl
        rw [got, Raising.ok_bind, isText, Raising.ok_bind, List.filter_cons, repeated]
        cases (named py found).any (· ∈ seenIds py hard) with
        | true =>
          change List.foldlM _ before rest = _ ↔ _
          rw [ih, List.forall_mem_cons, text]
          simp
        | false =>
          change List.foldlM _ (before ++ [issue]) rest = _ ↔ _
          rw [ih, List.forall_mem_cons, text]
          simp
  exact turns []

theorem addCount_iff (value : Json) (n : ℕ) : (∃ sum, addCount value n = .ok sum) ↔ isNumber value = true := by
  cases value <;> simp [addCount, isNumber]

theorem hallucinations_counted {issues : List Json}
    (objects : ∀ issue ∈ issues, ∃ fields, issue = .obj fields) :
    count (fun issue => (get issue "type" .null).map fun type => decide (type = .str "hallucination"))
      issues = .ok (issues.countP isHallucination) := by
  refine Raising.count_ok fun issue member => ?_
  obtain ⟨fields, rfl⟩ := objects issue member
  rfl

theorem merged_objects {items : List Json} (texts : ∀ issue ∈ items, (textOf issue).isSome = true) :
    ∀ issue ∈ hard.map Issue.json ++ items.filter fun issue => !repeats py hard issue,
      ∃ fields, issue = .obj fields := by
  intro issue member
  rcases List.mem_append.mp member with own | replied
  · obtain ⟨_, -, rfl⟩ := List.mem_map.mp own
    exact ⟨_, rfl⟩
  · have text := texts issue (List.mem_of_mem_filter replied)
    cases issue with
    | obj fields => exact ⟨fields, rfl⟩
    | _ => cases text

theorem merge_sets {fields : PyDict String Json} {issues : List Json} {sum usage : Json} :
    let merged := (PyDict.set fields "issues" (.arr issues)).set "critical_count" sum
    let merged := if hard = [] then merged else PyDict.set merged "valid" (.bool false)
    let merged := PyDict.set merged "token_usage" usage
    merged.lookup "issues" = some (.arr issues) ∧ merged.lookup "critical_count" = some sum ∧
      (hard ≠ [] → merged.lookup "valid" = some (.bool false)) := by
  by_cases none : hard = []
  · simp [none, PyDict.lookup_set]
  · simp [none, PyDict.lookup_set]

theorem usageOf_iff (tokenUsage : Json) :
    (∃ usage, usageOf tokenUsage = .ok usage) ↔ ∃ fields, tokenUsage = .obj fields := by
  cases tokenUsage with
  | obj fields => exact iff_of_true ⟨_, rfl⟩ ⟨fields, rfl⟩
  | _ =>
    exact iff_of_false (fun ⟨_, impossible⟩ => nomatch impossible)
      (fun ⟨_, impossible⟩ => nomatch impossible)

theorem merge_ok_iff {reply tokenUsage : Json} {merged : PyDict String Json} :
    merge py hard reply tokenUsage = .ok merged ↔ ∃ items usage fields counted sum,
      usageOf tokenUsage = .ok usage ∧ reply = .obj fields ∧
      (get reply "issues" (.arr []) >>= iterate) = .ok items ∧
      (∀ issue ∈ items, (textOf issue).isSome = true) ∧
      get reply "critical_count" (.int 0) = .ok counted ∧
      addCount counted ((hard.map Issue.json ++
        items.filter fun issue => !repeats py hard issue).countP isHallucination) = .ok sum ∧
      merged = (
        let merged := (PyDict.set fields "issues" (.arr (hard.map Issue.json ++
          items.filter fun issue => !repeats py hard issue))).set "critical_count" sum
        let merged := if hard = [] then merged else PyDict.set merged "valid" (.bool false)
        PyDict.set merged "token_usage" usage) := by
  constructor
  · intro returned
    simp only [merge, bind_ok] at returned
    obtain ⟨usage, tokens, issues, got, items, iterated, kept, deduped, critical, counting, counted, found,
      sum, added, rest⟩ := returned
    obtain ⟨texts, rfl⟩ := dedupe_iff.mp deduped
    rw [hallucinations_counted (merged_objects texts)] at counting
    obtain rfl := Except.ok.inj counting
    cases reply with
    | obj fields =>
      exact ⟨items, usage, fields, counted, sum, tokens, rfl, bind_ok.mpr ⟨issues, got, iterated⟩, texts,
        found, added, (Except.ok.inj rest).symm⟩
    | _ => cases got
  · rintro ⟨items, usage, fields, counted, sum, tokens, rfl, listed, texts, found, added, rfl⟩
    obtain ⟨issues, got, iterated⟩ := bind_ok.mp listed
    have deduped : dedupe py (seenIds py hard) items = .ok _ := dedupe_iff.mpr ⟨texts, rfl⟩
    have counting := hallucinations_counted (@merged_objects py hard _ texts)
    refine bind_ok.mpr ⟨usage, tokens, bind_ok.mpr ⟨issues, got, bind_ok.mpr ⟨items, iterated, ?_⟩⟩⟩
    refine bind_ok.mpr ⟨_, deduped, bind_ok.mpr ⟨_, counting, bind_ok.mpr ⟨counted, found, ?_⟩⟩⟩
    exact bind_ok.mpr ⟨sum, added, rfl⟩

theorem merge_returns_iff (reply tokenUsage : Json) :
    (∃ merged, merge py hard reply tokenUsage = .ok merged) ↔ ∃ items, Mergeable reply tokenUsage items := by
  constructor
  · rintro ⟨merged, returned⟩
    obtain ⟨items, usage, fields, counted, sum, tokens, rfl, listed, texts, found, added, -⟩ :=
      merge_ok_iff.mp returned
    exact ⟨items, (usageOf_iff tokenUsage).mp ⟨usage, tokens⟩, listed, texts, counted, found,
      (addCount_iff _ _).mp ⟨sum, added⟩⟩
  · rintro ⟨items, tokens, listed, texts, counted, found, number⟩
    obtain ⟨usage, tokens⟩ := (usageOf_iff tokenUsage).mpr tokens
    obtain ⟨sum, added⟩ := (addCount_iff counted _).mpr number
    cases reply with
    | obj fields =>
      exact ⟨_, merge_ok_iff.mpr ⟨items, usage, fields, counted, sum, tokens, rfl, listed, texts, found,
        added, rfl⟩⟩
    | _ => cases found

theorem merge_law {reply tokenUsage : Json} {merged : PyDict String Json}
    (returned : merge py hard reply tokenUsage = .ok merged) : MergeLaw py hard reply merged := by
  obtain ⟨items, usage, fields, counted, sum, -, rfl, listed, -, found, added, rfl⟩ := merge_ok_iff.mp returned
  obtain ⟨issues, critical, valid⟩ := @merge_sets hard fields
    (hard.map Issue.json ++ items.filter fun issue => !repeats py hard issue) sum usage
  exact ⟨⟨items, listed, issues⟩, valid, counted, _, sum, found, issues, added, critical⟩

end

section

open PyFormat

variable {render : Field → Raising (List Char)} {e : Exception}

theorem join_lines (a b : String) (rest : List String) :
    (Py.join "\n" (a :: b :: rest)).toList = a.toList ++ '\n' :: (Py.join "\n" (b :: rest)).toList := by
  rw [Py.join, Py.join, String.intercalate_cons_cons, String.toList_append, String.toList_append,
    List.append_assoc]
  rfl

theorem lines_raise {lines rest : List String} (literal : ∀ line ∈ lines, Literal line.toList)
    (nonempty : rest ≠ []) (raises : run render .text (Py.join "\n" rest).toList = .error e) :
    run render .text (Py.join "\n" (lines ++ rest)).toList = .error e := by
  induction lines with
  | nil => exact raises
  | cons line lines ih =>
    have later := ih fun other member => literal other (List.mem_cons_of_mem _ member)
    obtain ⟨b, more, shape⟩ := List.exists_cons_of_ne_nil
      (List.append_ne_nil_of_right_ne_nil lines nonempty)
    have ended : Literal ['\n'] := by decide
    rw [shape] at later
    rw [List.cons_append, shape, join_lines, run_literal (literal line List.mem_cons_self),
      ← List.singleton_append, run_literal ended, later]
    rfl

set_option maxRecDepth 2000 in
theorem checklist_literal : ∀ line ∈ checklistLines, Literal line.toList := by
  simp only [checklistLines, List.forall_mem_cons]
  refine ⟨literal_append (literal_ofList ?_) (literal_ofList ?_), literal_ofList ?_, literal_ofList ?_,
    literal_ofList ?_, literal_ofList ?_, literal_append (literal_ofList ?_) (literal_ofList ?_),
    literal_append (literal_ofList ?_) (literal_ofList ?_),
    literal_append (literal_append (literal_ofList ?_) (literal_ofList ?_)) (literal_ofList ?_),
    List.forall_mem_nil _⟩
  all_goals decide

set_option maxRecDepth 2000 in
theorem safety_literal : ∀ line ∈ safetyLines, Literal line.toList := by
  simp only [safetyLines, List.forall_mem_cons]
  refine ⟨literal_append (literal_ofList ?_) (literal_ofList ?_), literal_ofList ?_, literal_ofList ?_,
    List.forall_mem_nil _⟩
  all_goals decide

/-- The name that the first object is taken for: everything up to its first colon. -/
def validName : List Char := '\n' :: "  \"valid\"".toList

/-- The rest of the object, as the specification of that name. -/
def validSpec : List Char :=
  " true,\n  \"issues\": [],\n  \"critical_count\": 0,\n  \"suggested_fix\": \"\"\n".toList

theorem valid_lines (rest : List String) (nonempty : rest ≠ []) : ∃ s,
    (Py.join "\n" (validLines ++ rest)).toList = '{' :: validName ++ ':' :: (validSpec ++ '}' :: s) := by
  obtain ⟨b, more, rfl⟩ := List.exists_cons_of_ne_nil nonempty
  have text : (Py.join "\n" (validLines.dropLast)).toList ++ ['\n'] = '{' :: validName ++ ':' :: validSpec := by
    decide +kernel
  refine ⟨'\n' :: (Py.join "\n" (b :: more)).toList, ?_⟩
  have whole : '{' :: validName ++ ':' :: (validSpec ++ '}' :: '\n' :: (Py.join "\n" (b :: more)).toList) =
      ('{' :: validName ++ ':' :: validSpec) ++ '}' :: '\n' :: (Py.join "\n" (b :: more)).toList := by
    simp only [List.append_assoc, List.cons_append]
  rw [whole, ← text]
  simp only [validLines, List.cons_append, List.nil_append, join_lines, List.dropLast]
  simp only [List.append_assoc, List.cons_append, Py.join, String.intercalate_singleton, List.nil_append]
  rfl

theorem object_raises (apply : String → Field → Raising (List Char)) (dialect : String) :
    run (replacement [("dialect", dialect)] apply) .text
      (Py.join "\n" (validLines ++ remainingLines)).toList = .error (.keyError (.ofList validName)) := by
  have plain : Plain validName := by decide
  have missing : [("dialect", dialect)].lookup (String.ofList validName) = none := by
    rw [PyDict.lookup_item, if_neg (by decide), List.lookup_nil]
  obtain ⟨s, shape⟩ := valid_lines remainingLines (List.cons_ne_nil _ _)
  have field := @run_specified (replacement [("dialect", dialect)] apply) _ _ validSpec
    plain (literal_ofList (by decide)) s
  change run _ .text ('{' :: validName ++ ':' :: (validSpec ++ '}' :: s)) = (do
    let value ← replacement [("dialect", dialect)] apply ⟨validName, none, validSpec⟩
    (run _ .text s).map (value ++ ·)) at field
  rw [shape, field, replacement_missing plain (by decide) missing]
  rfl

theorem dialectLine_shape : dialectLine.toList =
    "4. **Dialect compliance**: Are the functions and syntax valid for ".toList ++
      ('{' :: "dialect".toList ++ '}' :: ['?']) := by
  rw [dialectLine, String.toList_ofList, String.toList_ofList, String.toList_ofList]
  rfl

theorem dialect_raises (apply : String → Field → Raising (List Char)) (dialect : String)
    {rest : List String} (nonempty : rest ≠ []) (raises :
      run (replacement [("dialect", dialect)] apply) .text (Py.join "\n" rest).toList = .error e) :
    run (replacement [("dialect", dialect)] apply) .text (Py.join "\n" (dialectLine :: rest)).toList =
      .error e := by
  obtain ⟨b, more, rfl⟩ := List.exists_cons_of_ne_nil nonempty
  have found : replacement [("dialect", dialect)] apply ⟨"dialect".toList, none, []⟩ =
      .ok dialect.toList := replacement_found (by decide) (by decide) rfl
  have field (s : List Char) := @run_field (replacement [("dialect", dialect)] apply)
    "ialect".toList 'd' (by decide) s
  have ended : Literal ['?', '\n'] := by decide
  have shape : dialectLine.toList ++ '\n' :: (Py.join "\n" (b :: more)).toList =
      "4. **Dialect compliance**: Are the functions and syntax valid for ".toList ++
        ('{' :: 'd' :: "ialect".toList ++ '}' :: (['?', '\n'] ++ (Py.join "\n" (b :: more)).toList)) := by
    rw [dialectLine_shape, show "dialect".toList = 'd' :: "ialect".toList by decide]
    simp only [List.append_assoc, List.cons_append, List.nil_append]
  rw [join_lines, shape, run_literal (literal_ofList (by decide)), field, run_literal ended, raises]
  change Except.map _ (replacement [("dialect", dialect)] apply ⟨"dialect".toList, none, []⟩ >>= _) = _
  rw [found]
  rfl

theorem prompt_raises (apply : String → Field → Raising (List Char)) (dialect : String) :
    PyFormat.format apply reviewerPrompt [("dialect", dialect)] =
      .error (.keyError "\n  \"valid\"") := by
  have behind := @lines_raise _ _ _ (validLines ++ remainingLines) safety_literal
    (List.append_ne_nil_of_left_ne_nil (List.cons_ne_nil _ _) _) (object_raises apply dialect)
  have here := @dialect_raises _ apply dialect (safetyLines ++ (validLines ++ remainingLines))
    (List.append_ne_nil_of_left_ne_nil (List.cons_ne_nil _ _) _) behind
  have start := lines_raise checklist_literal (List.cons_ne_nil _ _) here
  have prompt : reviewerPrompt = Py.join "\n"
      (checklistLines ++ dialectLine :: (safetyLines ++ (validLines ++ remainingLines))) := by
    rw [reviewerPrompt]
    simp only [List.append_assoc, List.cons_append]
  have name : String.ofList validName = "\n  \"valid\"" := by decide
  rw [PyFormat.format, prompt, start, ← name]
  rfl

end

theorem review_raises (invoke : String → String → Raising Response)
    (sql schemaText notesText dialect : String) :
    review py invoke sql schemaText notesText dialect = .error (.keyError "\n  \"valid\"") := by
  rw [review, prompt_raises]
  rfl

/-- The review of a statement returns by the law of the merge, for this response of the model. -/
def Reviews (response : Response) (sql schemaText notesText dialect : String) : Prop :=
  ∃ merged, review py (fun _ _ => .ok response) sql schemaText notesText dialect = .ok merged ∧
    MergeLaw py (hardCheckHallucinations py sql schemaText) (extractJson py response.content) merged

theorem never_reviews (response : Response) (sql schemaText notesText dialect : String) :
    ¬ Reviews py response sql schemaText notesText dialect := by
  rintro ⟨merged, returned, -⟩
  rw [review_raises] at returned
  cases returned

def Interpreter.plain : Interpreter where
  case := .ascii
  isWord := Py.isWordChar
  isDigit := Char.isDigit
  setOrder := id
  setOrder_perm := fun _ => .refl _
  loads _ := none
  formatValue _ _ := .error .valueError

theorem select_not_reviewed :
    review .plain (fun _ _ => .ok ⟨"\x7b\"valid\": true\x7d", .obj []⟩) "SELECT total FROM orders"
        "CREATE TABLE orders (\n  total INTEGER\n);\n" "" "sqlite" =
      .error (.keyError "\n  \"valid\"") ∧
    ¬ Reviews .plain ⟨"\x7b\"valid\": true\x7d", .obj []⟩ "SELECT total FROM orders"
      "CREATE TABLE orders (\n  total INTEGER\n);\n" "" "sqlite" := by
  refine ⟨review_raises .plain _ _ _ _ _, ?_⟩
  rintro ⟨merged, returned, -⟩
  rw [review_raises] at returned
  cases returned

end ReviewMerge
end Nl2SqlAgent

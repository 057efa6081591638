import Nl2SqlAgent.FeedbackStart
import Nl2SqlAgent.Lib.JsonChars
import Nl2SqlAgent.Lib.PyLines
import Nl2SqlAgent.Lib.Raising

/-! The streamed query: the events of `query_full_graph_stream` (`api/routes/query.py`), their way
over the wire, and the reader of the page (`ui/query.py`). The values of a state are the ones
that the JSON encoder makes of them; `tlog` is no value, and the timings it gives are apart. -/
namespace Nl2SqlAgent

open Lib

namespace FullStream

/-- What a node gives, and what is gathered of it. -/
abbrev State := PyDict String Json

def get (d : State) (key : String) (default : Json) : Json := (d.lookup key).getD default

/-- `value.get(key, default)`. -/
def attr (value : Json) (key : String) (default : Json) : Raising Json :=
  match value with
  | .obj fields => .ok (get fields key default)
  | _ => .error .attributeError

/-- `len(value)`. -/
def len : Json → Raising Json
  | .str s => .ok (.int s.toList.length)
  | .arr items => .ok (.int items.length)
  | .obj fields => .ok (.int fields.length)
  | _ => .error .typeError

/-- `value[:200]`. -/
def front : Json → Raising Json
  | .str s => .ok (.str (Py.take 200 s))
  | .arr items => .ok (.arr (items.take 200))
  | _ => .error .typeError

/-- `value[0]`. -/
def first : Json → Raising Json
  | .arr (item :: _) => .ok item
  | .str s => if s = "" then .error .indexError else .ok (.str (Py.take 1 s))
  | .arr [] => .error .indexError
  | .obj _ => .error (.keyError "0")
  | _ => .error .typeError

/-- `a or b`. -/
def orElse (a b : Json) : Json := if FeedbackRounds.truthy a then a else b

/-- `_summarize_node` of the output of a node, which is `None` where the node gave nothing. -/
def summarizeNode (nodeName : String) (output : Option State) : Raising State :=
  let reads : Bool := nodeName ∈ ["schema_retriever", "router", "decomposer", "fewshot_selector",
    "generator", "guard", "voter", "semantic_check", "refiner"]
  match output with
  | none => if reads then .error .attributeError else .ok []
  | some state =>
    if nodeName = "schema_retriever" then do
      let chunkCount ← len (get state "rag_chunks" (.arr []))
      let schemaLen ← len (get state "schema_text" (.str ""))
      return [("chunk_count", chunkCount), ("schema_len", schemaLen)]
    else if nodeName = "router" then
      .ok [("complexity", get state "complexity" (.str "simple")),
        ("score", get state "router_score" (.int 0))]
    else if nodeName = "decomposer" then do
      let subCount ← len (get state "sub_questions" (.arr []))
      return [("sub_count", subCount)]
    else if nodeName = "fewshot_selector" then do
      let hitCount ← len (get state "fewshot_hits" (.arr []))
      return [("hit_count", hitCount)]
    else if nodeName = "generator" then do
      let sql := get state "sql" (.str "")
      let candidates := get state "candidate_sqls" (.arr [])
      let count ← if FeedbackRounds.truthy candidates then len candidates else .ok (.int 1)
      let preview ←
        if FeedbackRounds.truthy sql then front sql
        else if FeedbackRounds.truthy candidates then do front (← first candidates)
        else .ok (.str "")
      return [("candidate_count", count), ("sql_preview", preview)]
    else if nodeName = "guard" then do
      let issueCount ← len (get state "guard_issues" (.arr []))
      return [("guard_pass", get state "guard_pass" (.bool false)), ("issue_count", issueCount)]
    else if nodeName = "voter" then do
      let er := get state "exec_result" (.obj [])
      let success ← if FeedbackRounds.truthy er then attr er "success" (.bool false)
        else .ok (.bool false)
      let rowCount ← if FeedbackRounds.truthy er then attr er "row_count" (.int 0) else .ok (.int 0)
      return [("exec_success", success), ("row_count", rowCount)]
    else if nodeName = "semantic_check" then do
      let feedback ← front (orElse (get state "semantic_feedback" (.str "")) (.str ""))
      return [("semantic_pass", get state "semantic_pass" (.bool true)), ("feedback", feedback)]
    else if nodeName = "refiner" then do
      let lastError ← front (orElse (get state "last_error" (.str "")) (.str ""))
      return [("retry_count", get state "retry_count" (.int 0)), ("last_error", lastError)]
    else .ok []

/-- What the thread of the graph puts into the queue. -/
inductive Message where
  | token (text : String)
  | node (name : String) (output : Option State)
  | done (state : State) (timings : Json)
  | error (text : String)

def Message.ends : Message → Bool
  | .done _ _ | .error _ => true
  | _ => false

/-- One step of `graph.stream`, with the tokens that arrive before it. -/
structure Step where
  tokens : List String
  node : String
  output : Option State

/-- `accumulated`, after the outputs so far. -/
def accumulated (initialState : State) (steps : List Step) : State :=
  steps.foldl (fun state step => PyDict.update state (step.output.getD [])) initialState

def stepMessages (step : Step) : List Message :=
  step.tokens.map .token ++ [.node step.node step.output]

/-- How a run ends: it is through, with the timings of its log, or a node raises after some
more tokens. -/
inductive Outcome where
  | through (timings : Json)
  | raises (tokens : List String) (text : String)

def runGraph (initialState : State) (steps : List Step) : Outcome → List Message
  | .through timings =>
    steps.flatMap stepMessages ++ [.done (accumulated initialState steps) timings]
  | .raises tokens text =>
    steps.flatMap stepMessages ++ tokens.map .token ++ [.error text]

/-- An event of the stream; its data is the text of the value. -/
structure Event where
  name : String
  data : List (String × Json)

/-- What the last event says of a state that is through. -/
def completed (state : State) (timings : Json) : List (String × Json) :=
  let execResult := get state "exec_result" .null
  [("sql", orElse (orElse (get state "sql" .null) (get state "chosen_sql" .null)) (.str "")),
    ("exec_result", if FeedbackRounds.truthy execResult then execResult else .null),
    ("token_usage", get state "token_usage" (.obj [])),
    ("node_timings", timings)]

def event : Message → Raising Event
  | .token text => .ok ⟨"token", [("text", .str text)]⟩
  | .node name output => (summarizeNode name output).map fun summary =>
    ⟨"node_complete", [("node", .str name), ("summary", .obj summary)]⟩
  | .done state timings => .ok ⟨"complete", completed state timings⟩
  | .error text => .ok ⟨"error", [("error", .str text)]⟩

/-- `event_generator`: up to the last message, or to the first that raises. -/
def eventGenerator : List Message → List Event
  | [] => []
  | message :: rest =>
    match event message with
    | .error _ => []
    | .ok e => if message.ends then [e] else e :: eventGenerator rest

/-- A frame of the response: an event with its name and data, or a ping between them. -/
inductive Frame where
  | event (e : Event)
  | ping (text : List Char)

def Frame.event? : Frame → Option Event
  | .event e => some e
  | .ping _ => none

def crlf : List Char := ['\r', '\n']

def eventField : List Char := ['e', 'v', 'e', 'n', 't', ':']

def dataField : List Char := ['d', 'a', 't', 'a', ':']

/-- The packages at both ends. The server writes a frame line by line and an empty line behind
it; the client gives the lines that `splitlines` makes of the body. -/
structure Transport where
  encode : String → List Char → List Char
  comment : List Char → List Char
  iterLines : List Char → List (List Char)
  encode_eq : ∀ name data, '\r' ∉ data → '\n' ∉ data →
    encode name data = eventField ++ ' ' :: name.toList ++ crlf ++ (dataField ++ ' ' :: data ++ crlf) ++ crlf
  comment_eq : ∀ text, '\r' ∉ text → '\n' ∉ text → comment text = ':' :: ' ' :: text ++ crlf ++ crlf
  iterLines_eq : ∀ body, iterLines body = Py.splitlines body

def Transport.frame (t : Transport) (num : JsonText.Numerals) : Frame → List Char
  | .event e => t.encode e.name (JsonText.write num (.obj e.data))
  | .ping text => t.comment text

/-- The body of the response. -/
def Transport.body (t : Transport) (num : JsonText.Numerals) (frames : List Frame) : List Char :=
  frames.flatMap (t.frame num)

/-- What the page goes on with. -/
abbrev Result := List (String × Json)

def errorResult (msg : Json) : Result :=
  [("sql", .str ""), ("exec_result", .obj [("success", .bool false), ("error", msg)]),
    ("token_usage", .obj []), ("elapsed_ms", .int 0), ("rag_chunks", .arr []),
    ("node_timings", .obj []), ("raw_response", .str "")]

def completeResult (data : State) : Result :=
  [("sql", get data "sql" (.str "")), ("exec_result", get data "exec_result" .null),
    ("token_usage", get data "token_usage" (.obj [])), ("elapsed_ms", .int 0),
    ("rag_chunks", .arr []), ("node_timings", get data "node_timings" (.obj [])),
    ("raw_response", .str "")]

/-- `type(value).__name__`. -/
def typeName : Json → String
  | .null => "NoneType"
  | .bool _ => "bool"
  | .int _ => "int"
  | .float _ | .nonFinite => "float"
  | .str _ => "str"
  | .arr _ => "list"
  | .obj _ => "dict"

/-- Caught at the end of `call_api_stream`. -/
def streamError (e : String) : Result := errorResult (.str ("Stream error: " ++ e))

def noAttribute (value : Json) : Result :=
  streamError ("'" ++ typeName value ++ "' object has no attribute 'get'")

/-- The locals of `call_api_stream`. -/
structure Client where
  currentEvent : Option String := none
  nodeList : List String := []
  sqlPreview : Json := .str ""
  tokenBuffer : String := ""

/-- The loop goes on, or the function returns. -/
inductive Turn where
  | next (c : Client)
  | result (r : Result)

def Client.onToken (c : Client) (data : State) : Turn :=
  match get data "text" (.str "") with
  | .str text => .next { c with currentEvent := none, tokenBuffer := c.tokenBuffer ++ text }
  | other => .result (streamError ("can only concatenate str (not \"" ++ typeName other ++ "\") to str"))

/-- The nodes whose summary the page reads. -/
def shown : List String := ["generator", "guard", "voter", "semantic_check"]

def Client.onNode (c : Client) (data : State) : Turn :=
  match get data "node" (.str "?") with
  | .str node =>
    let summary := get data "summary" (.obj [])
    if node = "_post_refiner" then .next { c with currentEvent := none }
    else
      match summary with
      | .obj fields =>
        if node = "generator" then
          .next { c with
            currentEvent := none
            nodeList := c.nodeList ++ [node]
            sqlPreview := get fields "sql_preview" (.str "")
            tokenBuffer := "" }
        else .next { c with currentEvent := none, nodeList := c.nodeList ++ [node] }
      | other =>
        if node ∈ shown then .result (noAttribute other)
        else .next { c with currentEvent := none, nodeList := c.nodeList ++ [node] }
  | other => .result (streamError ("sequence item " ++ toString c.nodeList.length ++
      ": expected str instance, " ++ typeName other ++ " found"))

/-- The data of an event, once it is read. -/
def Client.onData (c : Client) (currentEvent : String) (value : Json) : Turn :=
  if currentEvent = "token" then
    match value with
    | .obj data => c.onToken data
    | other => .result (noAttribute other)
  else if currentEvent = "node_complete" then
    match value with
    | .obj data => c.onNode data
    | other => .result (noAttribute other)
  else if currentEvent = "complete" then
    match value with
    | .obj data => .result (completeResult data)
    | other => .result (noAttribute other)
  else if currentEvent = "error" then
    match value with
    | .obj data => .result (errorResult (get data "error" (.str "stream error")))
    | other => .result (noAttribute other)
  else .next { c with currentEvent := none }

/-- One turn of the loop over the lines. -/
def Client.onLine (num : JsonText.Numerals) (c : Client) (line : List Char) : Turn :=
  if eventField.isPrefixOf line then
    .next { c with currentEvent := some (.ofList (Py.stripped (line.drop 6))) }
  else if dataField.isPrefixOf line then
    match c.currentEvent with
    | none => .next c
    | some currentEvent =>
      if currentEvent = "" then .next c
      else
        match JsonText.read num (Py.stripped (line.drop 5)) with
        | none => .next c
        | some value => c.onData currentEvent value
  else .next c

def Client.run (num : JsonText.Numerals) : Client → List (List Char) → Turn
  | c, [] => .next c
  | c, line :: lines =>
    match c.onLine num line with
    | .next c => Client.run num c lines
    | .result r => .result r

/-- `call_api_stream`, by the lines of the response. -/
def callApiStream (num : JsonText.Numerals) (lines : List (List Char)) : Result :=
  match Client.run num {} lines with
  | .next _ => errorResult (.str "stream ended without completion")
  | .result r => r

/-- The line breaks that stand in a JSON text as they are: NEL and the two separators. -/
def inlineBreak (c : Char) : Bool := Py.isLineBreak c && 0x80 ≤ c.toNat

theorem inlineBreak_foreign (c : Char) (broken : inlineBreak c = true) : 0x80 ≤ c.toNat := by
  simp only [inlineBreak, Bool.and_eq_true, decide_eq_true_eq] at broken
  exact broken.2

theorem isLineBreak_visible {c : Char} (visible : 0x20 ≤ c.toNat) : Py.isLineBreak c = inlineBreak c := by
  by_cases far : 0x80 ≤ c.toNat
  · simp [inlineBreak, far]
  · have plain : Py.isLineBreak c = false := by
      simp only [Py.isLineBreak, Bool.or_eq_false_iff, Bool.and_eq_false_iff, decide_eq_false_iff_not,
        beq_eq_false_iff_ne]
      omega
    rw [inlineBreak, plain, Bool.false_and]

section Lines

variable {num : JsonText.Numerals} {t : Transport} {e : Event} {c c' : Client}

/-- The text of an event's data. -/
def Event.text (num : JsonText.Numerals) (e : Event) : List Char := JsonText.write num (.obj e.data)

/-- The parts of the data that come to the client in lines of their own. -/
def Event.parts (num : JsonText.Numerals) (e : Event) : List (List Char) :=
  (e.text num).splitOnP inlineBreak

/-- The names of the events. -/
def eventNames : List String := ["token", "node_complete", "complete", "error"]

/-- The lines of a frame, as the client gets them. -/
def lines (num : JsonText.Numerals) : Frame → List (List Char)
  | .event e => (eventField ++ ' ' :: e.name.toList) ::
      ((e.parts num).modifyHead (dataField ++ ' ' :: ·) ++ [[]])
  | .ping text => [':' :: ' ' :: text, []]

/-- The data of an event can be written as JSON, and the text of a ping has no line end. -/
def Frame.Writable (num : JsonText.Numerals) : Frame → Prop
  | .event e => JsonText.Writable num (.obj e.data)
  | .ping text => ∀ c ∈ text, Py.isLineBreak c = false

/-- A frame whose event has one of the names of the generator. -/
def Sendable (num : JsonText.Numerals) : Frame → Prop
  | .event e => e.name ∈ eventNames ∧ JsonText.Writable num (.obj e.data)
  | .ping text => ∀ c ∈ text, Py.isLineBreak c = false

theorem sendable_of {frames : List Frame} (writable : ∀ frame ∈ frames, frame.Writable num)
    (named : ∀ e ∈ frames.filterMap Frame.event?, e.name ∈ eventNames) :
    ∀ frame ∈ frames, Sendable num frame := by
  intro frame member
  cases frame with
  | event e => exact ⟨named e (List.mem_filterMap.mpr ⟨_, member, rfl⟩), writable _ member⟩
  | ping text => exact writable _ member

theorem name_plain (known : e.name ∈ eventNames) : ∀ c ∈ e.name.toList, 0x20 ≤ c.toNat ∧ c.toNat < 0x80 := by
  simp only [eventNames, List.mem_cons, List.not_mem_nil, or_false] at known
  rcases known with eq | eq | eq | eq <;> rw [eq] <;> exact Py.all_of (by decide)

theorem plain_break {c : Char} (plain : 0x20 ≤ c.toNat ∧ c.toNat < 0x80) : Py.isLineBreak c = false := by
  rw [isLineBreak_visible plain.1, inlineBreak, decide_eq_false (not_le.mpr plain.2), Bool.and_false]

theorem frame_lines {frame : Frame} (sendable : Sendable num frame) (s : List Char) :
    Py.splitlines (t.frame num frame ++ s) = lines num frame ++ Py.splitlines s := by
  cases frame with
  | ping text =>
    have plain : ∀ c ∈ ':' :: ' ' :: text, Py.isLineBreak c = false :=
      List.forall_mem_cons.mpr ⟨rfl, List.forall_mem_cons.mpr ⟨rfl, sendable⟩⟩
    have apart (d : Char) (ends : Py.isLineBreak d = true) : d ∉ text := fun member => by
      have := sendable d member
      rw [ends] at this
      contradiction
    have body : t.comment text ++ s = (':' :: ' ' :: text) ++ '\r' :: '\n' :: ('\r' :: '\n' :: s) := by
      simp [t.comment_eq text (apart _ rfl) (apart _ rfl), crlf]
    rw [Transport.frame, body, Py.splitlines_line plain, Py.splitlines_crlf]
    rfl
  | event e =>
    obtain ⟨known, writable⟩ := sendable
    have visible := JsonText.write_visible writable
    have apart (d : Char) (small : d.toNat < 0x20) : d ∉ JsonText.write num (.obj e.data) :=
      fun member => absurd (visible d member) (not_le.mpr small)
    have name : ∀ c ∈ eventField ++ ' ' :: e.name.toList, Py.isLineBreak c = false := by
      rw [List.forall_mem_append, List.forall_mem_cons]
      exact ⟨Py.all_of (by decide), rfl, fun c member => plain_break (name_plain known c member)⟩
    have field : ∀ c ∈ dataField ++ [' '], Py.isLineBreak c = false := Py.all_of (by decide)
    have body : t.encode e.name (JsonText.write num (.obj e.data)) ++ s =
        (eventField ++ ' ' :: e.name.toList) ++ '\r' :: '\n' ::
          ((dataField ++ [' '] ++ JsonText.write num (.obj e.data)) ++ '\r' :: '\n' ::
            ('\r' :: '\n' :: s)) := by
      simp [t.encode_eq _ _ (apart _ (by decide)) (apart _ (by decide)), crlf]
    have single : '\r' ∉ dataField ++ [' '] ++ JsonText.write num (.obj e.data) := by
      rw [List.mem_append]
      rintro (fixed | member)
      · exact absurd fixed (by decide)
      · exact apart _ (by decide) member
    rw [Transport.frame, body, Py.splitlines_line name, Py.splitlines_parts single,
      Py.splitlines_crlf, Py.splitOnP_front field,
      Py.splitOnP_congr fun c member => isLineBreak_visible (visible c member)]
    simp only [lines, Event.parts, Event.text, List.cons_append, List.append_assoc, List.nil_append]

theorem body_lines {frames : List Frame} (sendable : ∀ frame ∈ frames, Sendable num frame) :
    t.iterLines (t.body num frames) = frames.flatMap (lines num) := by
  rw [t.iterLines_eq]
  induction frames with
  | nil => rfl
  | cons frame frames ih =>
    obtain ⟨own, others⟩ := List.forall_mem_cons.mp sendable
    rw [List.flatMap_cons, ← ih others, ← frame_lines own]
    rfl

theorem run_append (c : Client) (before after : List (List Char)) : c.run num (before ++ after) =
    match c.run num before with
    | .next c => c.run num after
    | .result r => .result r := by
  induction before generalizing c with
  | nil => rfl
  | cons line before ih =>
    rw [List.cons_append, Client.run, Client.run]
    cases c.onLine num line with
    | next c => exact ih c
    | result r => rfl

theorem onLine_other {line : List Char} (named : eventField.isPrefixOf line = false)
    (filled : dataField.isPrefixOf line = false) : c.onLine num line = .next c := by
  rw [Client.onLine, named, filled]
  rfl

theorem onLine_event (known : e.name ∈ eventNames) :
    c.onLine num (eventField ++ ' ' :: e.name.toList) = .next { c with currentEvent := some e.name } := by
  have name : Py.stripped (' ' :: e.name.toList) = e.name.toList := by
    simp only [eventNames, List.mem_cons, List.not_mem_nil, or_false] at known
    rcases known with eq | eq | eq | eq <;> rw [eq] <;> decide
  have read : String.ofList (Py.stripped ((eventField ++ ' ' :: e.name.toList).drop 6)) = e.name := by
    change String.ofList (Py.stripped (' ' :: e.name.toList)) = e.name
    rw [name, String.ofList_toList]
  have field : eventField.isPrefixOf (eventField ++ ' ' :: e.name.toList) = true := rfl
  rw [Client.onLine, if_pos field, read]

theorem onLine_data {text : List Char} (known : e.name ∈ eventNames) (current : c.currentEvent = some e.name) :
    c.onLine num (dataField ++ ' ' :: text) =
      match JsonText.read num (Py.stripped (' ' :: text)) with
      | none => .next c
      | some value => c.onData e.name value := by
  have named : e.name ≠ "" := by
    rintro eq
    rw [eq] at known
    exact absurd known (by decide)
  have other : eventField.isPrefixOf (dataField ++ ' ' :: text) = false := rfl
  have field : dataField.isPrefixOf (dataField ++ ' ' :: text) = true := rfl
  rw [Client.onLine, other, if_neg Bool.false_ne_true, if_pos field, current]
  simp only [if_neg named]
  rfl

theorem text_brackets (num : JsonText.Numerals) (e : Event) :
    ∃ inner, e.text num = '\x7b' :: inner ++ ['\x7d'] := ⟨_, rfl⟩

theorem parts_whole (free : JsonText.Free inlineBreak (.obj e.data))
    (writable : JsonText.Writable num (.obj e.data)) : e.parts num = [e.text num] :=
  Py.splitOnP_plain ((JsonText.write_free inlineBreak_foreign writable).mpr free)

theorem read_whole (writable : JsonText.Writable num (.obj e.data)) :
    JsonText.read num (Py.stripped (' ' :: e.text num)) = some (.obj e.data) := by
  obtain ⟨inner, whole⟩ := text_brackets num e
  have same : Py.stripped ([' '] ++ e.text num) = e.text num :=
    Py.stripped_between (Py.all_of (by decide)) (by decide) (by decide) whole
  rw [← List.singleton_append, same]
  exact JsonText.read_write writable

/-- Where a string of the data has a break, the first line of it is no JSON. -/
theorem read_cut (broken : ¬ JsonText.Free inlineBreak (.obj e.data))
    (writable : JsonText.Writable num (.obj e.data)) :
    ∃ part others, e.parts num = part :: others ∧
      JsonText.read num (Py.stripped (' ' :: part)) = none := by
  rw [← JsonText.write_free inlineBreak_foreign writable] at broken
  simp only [not_forall, Bool.not_eq_false] at broken
  obtain ⟨c, member, here⟩ := broken
  obtain ⟨part, d, rest, cut, breaks, parts⟩ := Py.splitOnP_cut member here
  refine ⟨part, _, parts, ?_⟩
  cases part with
  | nil =>
    have first := (List.cons.inj cut).1
    rw [← first] at breaks
    exact absurd breaks (by decide)
  | cons a part =>
    have bracket : a = '\x7b' := (List.cons.inj cut).1.symm
    obtain ⟨behind, whole⟩ : Py.stripped ([' '] ++ a :: part) <+: a :: part :=
      Py.stripped_prefix (Py.all_of (by decide)) (bracket ▸ by decide)
    refine JsonText.read_part (q := behind ++ d :: rest) writable ?_ (by simp)
    calc JsonText.write num (.obj e.data) = a :: part ++ d :: rest := cut
      _ = (Py.stripped ([' '] ++ a :: part) ++ behind) ++ d :: rest := by rw [whole]
      _ = Py.stripped ([' '] ++ a :: part) ++ (behind ++ d :: rest) := List.append_assoc _ _ _

/-- No later part of the data looks like a line of the stream. -/
def Quiet (num : JsonText.Numerals) (e : Event) : Prop :=
  ∀ part ∈ (e.parts num).tail, eventField.isPrefixOf part = false ∧ dataField.isPrefixOf part = false

theorem run_quiet (c : Client) {others : List (List Char)}
    (quiet : ∀ part ∈ others, eventField.isPrefixOf part = false ∧ dataField.isPrefixOf part = false) :
    c.run num others = .next c := by
  induction others with
  | nil => rfl
  | cons part others ih =>
    obtain ⟨own, later⟩ := List.forall_mem_cons.mp quiet
    rw [Client.run, onLine_other own.1 own.2]
    exact ih later

theorem run_ping (c : Client) (text : List Char) : c.run num (lines num (.ping text)) = .next c :=
  run_quiet c (List.forall_mem_cons.mpr ⟨⟨rfl, rfl⟩, List.forall_mem_singleton.mpr ⟨rfl, rfl⟩⟩)

theorem onLine_whole (known : e.name ∈ eventNames) (writable : JsonText.Writable num (.obj e.data))
    (current : c.currentEvent = some e.name) :
    c.onLine num (dataField ++ ' ' :: e.text num) = c.onData e.name (.obj e.data) := by
  rw [onLine_data known current, read_whole writable]

theorem run_whole (c : Client) (sendable : Sendable num (.event e))
    (free : JsonText.Free inlineBreak (.obj e.data)) : c.run num (lines num (.event e)) =
      { c with currentEvent := some e.name }.onData e.name (.obj e.data) := by
  have empty (c : Client) : c.run num [[]] = .next c :=
    run_quiet c (List.forall_mem_singleton.mpr ⟨rfl, rfl⟩)
  rw [lines, parts_whole free sendable.2, Client.run, onLine_event sendable.1]
  change Client.run num _ ((dataField ++ ' ' :: e.text num) :: [[]]) = _
  rw [Client.run, onLine_whole sendable.1 sendable.2 rfl]
  cases { c with currentEvent := some e.name }.onData e.name (.obj e.data) with
  | next c => exact empty c
  | result r => rfl

/-- An event that the client takes as a step does not end its loop, whole or not. -/
theorem run_event (c : Client) (sendable : Sendable num (.event e)) (quiet : Quiet num e)
    (step : ∀ c : Client, ∃ c', c.onData e.name (.obj e.data) = .next c') :
    ∃ c', c.run num (lines num (.event e)) = .next c' := by
  by_cases free : JsonText.Free inlineBreak (.obj e.data)
  · obtain ⟨c', taken⟩ := step { c with currentEvent := some e.name }
    refine ⟨c', ?_⟩
    rw [run_whole c sendable free, taken]
  · obtain ⟨part, others, parts, none⟩ := read_cut free sendable.2
    refine ⟨{ c with currentEvent := some e.name }, ?_⟩
    have later : ∀ line ∈ others ++ [[]],
        eventField.isPrefixOf line = false ∧ dataField.isPrefixOf line = false := by
      rw [Quiet, parts] at quiet
      exact List.forall_mem_append.mpr ⟨quiet, List.forall_mem_singleton.mpr ⟨rfl, rfl⟩⟩
    rw [lines, parts, Client.run, onLine_event sendable.1]
    change Client.run num _ ((dataField ++ ' ' :: part) :: (others ++ [[]])) = _
    rw [Client.run, onLine_data sendable.1 rfl, none]
    exact run_quiet _ later

theorem quiet_of_free (free : JsonText.Free inlineBreak (.obj e.data))
    (writable : JsonText.Writable num (.obj e.data)) : Quiet num e := by
  rw [Quiet, parts_whole free writable]
  exact fun _ member => nomatch member

theorem plain_text {s : String} (plain : (s.toList.all fun c => !inlineBreak c) = true) :
    ∀ c ∈ s.toList, inlineBreak c = false := fun c member => by
  simpa using List.all_eq_true.mp plain c member

theorem free_object {fields : List (String × Json)} :
    JsonText.Free inlineBreak (.obj fields) ↔ ∀ field ∈ fields,
      (∀ c ∈ field.1.toList, inlineBreak c = false) ∧ JsonText.Free inlineBreak field.2 :=
  JsonText.fieldStrings_iff fields

theorem free_get {data : State} {key : String} {default : Json}
    (free : JsonText.Free inlineBreak (.obj data)) (other : JsonText.Free inlineBreak default) :
    JsonText.Free inlineBreak (get data key default) := by
  unfold get
  cases found : List.lookup key data with
  | none => exact other
  | some value => exact (free_object.mp free (key, value) (mem_of_lookup found)).2

/-- A result is free of breaks where its four values are. -/
theorem free_result {sql execResult tokenUsage nodeTimings : Json} :
    JsonText.Free inlineBreak (.obj [("sql", sql), ("exec_result", execResult),
      ("token_usage", tokenUsage), ("elapsed_ms", .int 0), ("rag_chunks", .arr []),
      ("node_timings", nodeTimings), ("raw_response", .str "")]) ↔
    JsonText.Free inlineBreak sql ∧ JsonText.Free inlineBreak execResult ∧
      JsonText.Free inlineBreak tokenUsage ∧ JsonText.Free inlineBreak nodeTimings := by
  constructor
  · rintro ⟨⟨-, sql⟩, ⟨-, exec⟩, ⟨-, usage⟩, -, -, ⟨-, timings⟩, -⟩
    exact ⟨sql, exec, usage, timings⟩
  · rintro ⟨sql, exec, usage, timings⟩
    exact ⟨⟨plain_text (s := "sql") (by decide), sql⟩,
      ⟨plain_text (s := "exec_result") (by decide), exec⟩,
      ⟨plain_text (s := "token_usage") (by decide), usage⟩,
      ⟨plain_text (s := "elapsed_ms") (by decide), trivial⟩,
      ⟨plain_text (s := "rag_chunks") (by decide), trivial⟩,
      ⟨plain_text (s := "node_timings") (by decide), timings⟩,
      ⟨plain_text (s := "raw_response") (by decide), plain_text (by decide)⟩, trivial⟩

theorem free_error {msg : Json} :
    JsonText.Free inlineBreak (.obj (errorResult msg)) ↔ JsonText.Free inlineBreak msg := by
  refine free_result.trans ⟨fun free => free.2.1.2.1.2, fun free => ?_⟩
  exact ⟨plain_text (by decide),
    ⟨⟨plain_text (s := "success") (by decide), trivial⟩,
      ⟨plain_text (s := "error") (by decide), free⟩, trivial⟩, trivial, trivial⟩

theorem free_append {a b : String} (first : ∀ c ∈ a.toList, inlineBreak c = false)
    (last : ∀ c ∈ b.toList, inlineBreak c = false) : ∀ c ∈ (a ++ b).toList, inlineBreak c = false := by
  rw [String.toList_append, List.forall_mem_append]
  exact ⟨first, last⟩

theorem free_typeName (value : Json) : ∀ c ∈ (typeName value).toList, inlineBreak c = false := by
  cases value with
  | null => exact plain_text (s := "NoneType") (by decide)
  | bool _ => exact plain_text (s := "bool") (by decide)
  | int _ => exact plain_text (s := "int") (by decide)
  | float _ => exact plain_text (s := "float") (by decide)
  | nonFinite => exact plain_text (s := "float") (by decide)
  | str _ => exact plain_text (s := "str") (by decide)
  | arr _ => exact plain_text (s := "list") (by decide)
  | obj _ => exact plain_text (s := "dict") (by decide)

theorem free_noAttribute (value : Json) : JsonText.Free inlineBreak (.obj (noAttribute value)) :=
  free_error.mpr (free_append (plain_text (by decide)) (free_append (free_append
    (plain_text (by decide)) (free_typeName value)) (plain_text (by decide))))

theorem free_digits (n : Nat) : ∀ c ∈ (toString n).toList, inlineBreak c = false := by
  intro c member
  by_contra broken
  have far := inlineBreak_foreign c (by simpa using broken)
  have digit := Py.toString_digits n c member
  exact absurd (JsonText.digit_ascii (P := fun c => c.toNat < 0x80) (fun _ _ small => small) digit)
    (not_lt.mpr far)

/-- What the function returns with has no break that its data has not. -/
theorem free_onData {value : Json} {r : Result} (free : JsonText.Free inlineBreak value) {name : String}
    (returned : c.onData name value = .result r) : JsonText.Free inlineBreak (.obj r) := by
  unfold Client.onData at returned
  split at returned
  · split at returned
    next data =>
      unfold Client.onToken at returned
      split at returned
      · contradiction
      · obtain rfl := Turn.result.inj returned
        exact free_error.mpr (free_append (plain_text (by decide)) (free_append (free_append
          (plain_text (by decide)) (free_typeName _)) (plain_text (by decide))))
    next other =>
      obtain rfl := Turn.result.inj returned
      exact free_noAttribute value
  · split at returned
    · split at returned
      next data =>
        unfold Client.onNode at returned
        split at returned
        · dsimp only at returned
          split at returned
          · contradiction
          · split at returned
            · split at returned <;> contradiction
            next other =>
              split at returned
              · obtain rfl := Turn.result.inj returned
                exact free_noAttribute _
              · contradiction
        next other =>
          obtain rfl := Turn.result.inj returned
          exact free_error.mpr (free_append (plain_text (by decide)) (free_append (free_append
            (free_append (free_append (plain_text (by decide)) (free_digits _))
              (plain_text (by decide))) (free_typeName _)) (plain_text (by decide))))
      next other =>
        obtain rfl := Turn.result.inj returned
        exact free_noAttribute value
    · split at returned
      · split at returned
        next data =>
          obtain rfl := Turn.result.inj returned
          exact free_result.mpr ⟨free_get free (plain_text (by decide)), free_get free trivial,
            free_get free trivial, free_get free trivial⟩
        next other =>
          obtain rfl := Turn.result.inj returned
          exact free_noAttribute value
      · split at returned
        · split at returned
          next data =>
            obtain rfl := Turn.result.inj returned
            exact free_error.mpr (free_get free (plain_text (by decide)))
          next other =>
            obtain rfl := Turn.result.inj returned
            exact free_noAttribute value
        · contradiction

open JsonText (Clean) in
theorem free_onLine {line : List Char} {r : Result} (clean : Clean inlineBreak line)
    (returned : c.onLine num line = .result r) : JsonText.Free inlineBreak (.obj r) := by
  unfold Client.onLine at returned
  split at returned
  · contradiction
  · split at returned
    next field =>
      obtain ⟨rest, rfl⟩ := List.isPrefixOf_iff_prefix.mp field
      have behind : Clean inlineBreak rest := clean.behind (Py.all_of (by decide))
      split at returned
      · contradiction
      · split at returned
        · contradiction
        · split at returned
          · contradiction
          next value read =>
            obtain ⟨front, back, cut, blanks, tail⟩ := Py.stripped_cut rest
            rw [show (dataField ++ rest).drop 5 = rest from rfl] at read
            have shorter : Clean inlineBreak (Py.stripped rest) := by
              rw [cut] at behind
              refine Clean.front (fun _ _ _ => JsonText.escape_solid)
                (behind.behind fun c member => ?_) rfl tail
              rintro rfl
              exact absurd (blanks _ member) (by decide)
            exact free_onData (JsonText.read_clean read shorter) returned
    · contradiction

theorem free_run {lines : List (List Char)} {r : Result}
    (clean : ∀ line ∈ lines, JsonText.Clean inlineBreak line)
    (returned : c.run num lines = .result r) : JsonText.Free inlineBreak (.obj r) := by
  induction lines generalizing c with
  | nil => contradiction
  | cons line lines ih =>
    obtain ⟨own, others⟩ := List.forall_mem_cons.mp clean
    rw [Client.run] at returned
    cases turn : c.onLine num line with
    | next c =>
      rw [turn] at returned
      exact ih others returned
    | result r =>
      rw [turn] at returned
      obtain rfl := Turn.result.inj returned
      exact free_onLine own turn

/-- The lines of an event hold no break: that is where they were cut. -/
theorem lines_clean (sendable : Sendable num (.event e)) :
    ∀ line ∈ lines num (.event e), JsonText.Clean inlineBreak line := by
  have plain {w : List Char} (ascii : ∀ c ∈ w, c ≠ '\\' ∧ 0x20 ≤ c.toNat ∧ c.toNat < 0x80) :
      JsonText.Clean inlineBreak w := by
    refine JsonText.clean_plain fun c member => ⟨(ascii c member).1, ?_⟩
    rw [← isLineBreak_visible (ascii c member).2.1]
    exact plain_break (ascii c member).2
  have name : JsonText.Clean inlineBreak (eventField ++ ' ' :: e.name.toList) := by
    have known := sendable.1
    simp only [eventNames, List.mem_cons, List.not_mem_nil, or_false] at known
    rcases known with eq | eq | eq | eq <;> rw [eq] <;> exact plain (Py.all_of (by decide))
  have parts : ∀ part ∈ e.parts num, JsonText.Clean inlineBreak part :=
    (JsonText.write_clean _ sendable.2).parts inlineBreak_foreign
  refine List.forall_mem_cons.mpr ⟨name, List.forall_mem_append.mpr ⟨?_, by simp [JsonText.Clean.nil]⟩⟩
  cases split : e.parts num with
  | nil => exact fun _ member => nomatch member
  | cons part others =>
    rw [split] at parts
    obtain ⟨own, later⟩ := List.forall_mem_cons.mp parts
    refine List.forall_mem_cons.mpr ⟨?_, later⟩
    exact (plain (w := dataField ++ [' ']) (Py.all_of (by decide))).append own

end Lines

/-- What the page is to go on with at the end of a run: the values of the last state, or the
error. -/
def answer (initialState : State) (steps : List Step) : Outcome → Result
  | .through timings => completeResult (completed (accumulated initialState steps) timings)
  | .raises _ text => errorResult (.str text)

section Runs

variable {num : JsonText.Numerals} {t : Transport} {message : Message} {e : Event}

theorem event_name (yields : event message = .ok e) : e.name ∈ eventNames := by
  cases message with
  | token text => exact Except.ok.inj yields ▸ (by decide : "token" ∈ eventNames)
  | node name output =>
    cases summary : summarizeNode name output with
    | error => simp [event, summary, Except.map] at yields
    | ok summary' =>
      obtain rfl : _ = e := by simpa [event, summary, Except.map] using yields
      exact (by decide : "node_complete" ∈ eventNames)
  | done state timings => exact Except.ok.inj yields ▸ (by decide : "complete" ∈ eventNames)
  | error text => exact Except.ok.inj yields ▸ (by decide : "error" ∈ eventNames)

theorem onData_step (yields : event message = .ok e) (going : message.ends = false) (c : Client) :
    ∃ c', c.onData e.name (.obj e.data) = .next c' := by
  cases message with
  | token text =>
    obtain rfl := Except.ok.inj yields
    exact ⟨_, rfl⟩
  | node name output =>
    cases summary : summarizeNode name output with
    | error => simp [event, summary, Except.map] at yields
    | ok summary' =>
      obtain rfl : _ = e := by simpa [event, summary, Except.map] using yields
      by_cases inner : name = "_post_refiner"
      · subst inner
        exact ⟨_, rfl⟩
      · by_cases generator : name = "generator"
        · subst generator
          exact ⟨_, rfl⟩
        · refine ⟨{ c with currentEvent := none, nodeList := c.nodeList ++ [name] }, ?_⟩
          change c.onNode [("node", .str name), ("summary", .obj summary')] = _
          have node : get [("node", .str name), ("summary", .obj summary')] "node" (.str "?") = .str name := rfl
          have inside : get [("node", .str name), ("summary", .obj summary')] "summary" (.obj []) =
              .obj summary' := rfl
          rw [Client.onNode, node, inside]
          simp only [if_neg inner, if_neg generator]
  | done | error => contradiction

/-- The messages of a run before the last one. -/
def progress (steps : List Step) : Outcome → List Message
  | .through _ => steps.flatMap stepMessages
  | .raises tokens _ => steps.flatMap stepMessages ++ tokens.map .token

def last (initialState : State) (steps : List Step) : Outcome → Message
  | .through timings => .done (accumulated initialState steps) timings
  | .raises _ text => .error text

theorem runGraph_eq (initialState : State) (steps : List Step) (outcome : Outcome) :
    runGraph initialState steps outcome = progress steps outcome ++ [last initialState steps outcome] := by
  cases outcome <;> rfl

/-- Every output of the run can be summarized. -/
def Summarized (steps : List Step) : Prop :=
  ∀ step ∈ steps, ∃ summary, summarizeNode step.node step.output = .ok summary

theorem progress_yields {steps : List Step} (summarized : Summarized steps) (outcome : Outcome) :
    ∀ message ∈ progress steps outcome, message.ends = false ∧ ∃ e, event message = .ok e := by
  have steps' : ∀ message ∈ steps.flatMap stepMessages,
      message.ends = false ∧ ∃ e, event message = .ok e := by
    intro message member
    obtain ⟨step, from_, member⟩ := List.mem_flatMap.mp member
    rcases List.mem_append.mp member with token | node
    · obtain ⟨text, -, rfl⟩ := List.mem_map.mp token
      exact ⟨rfl, _, rfl⟩
    · obtain rfl := List.mem_singleton.mp node
      obtain ⟨summary, ok⟩ := summarized step from_
      exact ⟨rfl, _, by rw [event, ok]; rfl⟩
  cases outcome with
  | through timings => exact steps'
  | raises tokens text =>
    refine List.forall_mem_append.mpr ⟨steps', fun message member => ?_⟩
    obtain ⟨text, -, rfl⟩ := List.mem_map.mp member
    exact ⟨rfl, _, rfl⟩

/-- The events are those of the progress, which the client takes as steps, and the last one. -/
theorem eventGenerator_append {before : List Message} {final : Message}
    (going : ∀ message ∈ before, message.ends = false ∧ ∃ e, event message = .ok e)
    (ends : final.ends = true) (yields : event final = .ok e) :
    ∃ es, eventGenerator (before ++ [final]) = es ++ [e] ∧
      ∀ f ∈ es, ∃ message, message.ends = false ∧ event message = .ok f := by
  induction before with
  | nil =>
    refine ⟨[], ?_, fun _ member => nomatch member⟩
    rw [List.nil_append, eventGenerator, yields]
    exact if_pos ends
  | cons message before ih =>
    obtain ⟨⟨open_, f, own⟩, others⟩ := List.forall_mem_cons.mp going
    obtain ⟨es, eq, from_⟩ := ih others
    refine ⟨f :: es, ?_, List.forall_mem_cons.mpr ⟨⟨message, open_, own⟩, from_⟩⟩
    rw [List.cons_append, eventGenerator, own]
    exact (if_neg (by simp [open_])).trans (congrArg (f :: ·) eq)

theorem last_yields (initialState : State) (steps : List Step) (outcome : Outcome) :
    (last initialState steps outcome).ends = true ∧
      ∃ e, event (last initialState steps outcome) = .ok e ∧
        (∀ c : Client, c.onData e.name (.obj e.data) = .result (answer initialState steps outcome)) ∧
        (JsonText.Free inlineBreak (.obj e.data) ↔
          JsonText.Free inlineBreak (.obj (answer initialState steps outcome))) := by
  cases outcome with
  | through timings =>
    refine ⟨rfl, _, rfl, fun c => rfl, Iff.trans ?_ free_result.symm⟩
    constructor
    · rintro ⟨⟨-, sql⟩, ⟨-, exec⟩, ⟨-, usage⟩, ⟨-, timings⟩, -⟩
      exact ⟨sql, exec, usage, timings⟩
    · rintro ⟨sql, exec, usage, timings⟩
      exact ⟨⟨plain_text (s := "sql") (by decide), sql⟩,
        ⟨plain_text (s := "exec_result") (by decide), exec⟩,
        ⟨plain_text (s := "token_usage") (by decide), usage⟩,
        ⟨plain_text (s := "node_timings") (by decide), timings⟩, trivial⟩
  | raises tokens text =>
    refine ⟨rfl, _, rfl, fun c => rfl, Iff.trans ?_ free_error.symm⟩
    exact ⟨fun free => free.1.2, fun free => ⟨⟨plain_text (s := "error") (by decide), free⟩, trivial⟩⟩

theorem run_frames (c : Client) {frames : List Frame}
    (sendable : ∀ frame ∈ frames, Sendable num frame)
    (steps : ∀ e ∈ frames.filterMap Frame.event?, Quiet num e ∧
      ∀ c : Client, ∃ c', c.onData e.name (.obj e.data) = .next c') :
    ∃ c', c.run num (frames.flatMap (lines num)) = .next c' := by
  induction frames generalizing c with
  | nil => exact ⟨c, rfl⟩
  | cons frame frames ih =>
    obtain ⟨own, others⟩ := List.forall_mem_cons.mp sendable
    rw [List.flatMap_cons, run_append]
    cases frame with
    | ping text =>
      rw [run_ping]
      exact ih c others steps
    | event e =>
      obtain ⟨⟨quiet, step⟩, later⟩ := List.forall_mem_cons.mp steps
      obtain ⟨c', taken⟩ := run_event c own quiet step
      rw [taken]
      exact ih c' others later

/-- **The client returns with the answer of the run if and only if no string of the answer has a
line break that the JSON text keeps**; pings may come between the events. -/
theorem client_answers_iff {initialState : State} {steps : List Step} {outcome : Outcome}
    {frames : List Frame} (summarized : Summarized steps)
    (sent : frames.filterMap Frame.event? = eventGenerator (runGraph initialState steps outcome))
    (writable : ∀ frame ∈ frames, frame.Writable num)
    (quiet : ∀ e ∈ (eventGenerator (runGraph initialState steps outcome)).dropLast, Quiet num e) :
    callApiStream num (t.iterLines (t.body num frames)) = answer initialState steps outcome ↔
      JsonText.Free inlineBreak (.obj (answer initialState steps outcome)) := by
  obtain ⟨ends, e, yields, returns, same⟩ := last_yields initialState steps outcome
  obtain ⟨es, events, from_⟩ := eventGenerator_append (progress_yields summarized outcome) ends yields
  rw [runGraph_eq, events] at sent quiet
  rw [List.dropLast_concat] at quiet
  have sendable := sendable_of writable fun f member => by
    rw [sent] at member
    rcases List.mem_append.mp member with member | member
    · obtain ⟨message, -, own⟩ := from_ f member
      exact event_name own
    · exact List.mem_singleton.mp member ▸ event_name yields
  obtain ⟨before, behind, rfl, first, rest⟩ := List.filterMap_eq_append_iff.mp sent
  obtain ⟨pings, frame, more, rfl, none, own, tail⟩ := List.filterMap_eq_cons_iff.mp rest
  obtain rfl : frame = .event e := by
    cases frame with
    | event f => exact congrArg Frame.event (Option.some.inj own)
    | ping text => contradiction
  have silent : pings.filterMap Frame.event? = [] := List.filterMap_eq_nil_iff.mpr none
  obtain ⟨ahead, following⟩ := List.forall_mem_append.mp sendable
  obtain ⟨idle, following⟩ := List.forall_mem_append.mp following
  obtain ⟨final, later⟩ := List.forall_mem_cons.mp following
  obtain ⟨c, reached⟩ : ∃ c, Client.run num {} ((before ++ pings).flatMap (lines num)) = .next c :=
    run_frames {} (List.forall_mem_append.mpr ⟨ahead, idle⟩) fun f member => by
      rw [List.filterMap_append, silent, List.append_nil, first] at member
      obtain ⟨message, going, own⟩ := from_ f member
      exact ⟨quiet f member, onData_step own going⟩
  have whole : t.iterLines (t.body num (before ++ (pings ++ .event e :: more))) =
      (before ++ pings).flatMap (lines num) ++ (lines num (.event e) ++ more.flatMap (lines num)) := by
    rw [body_lines sendable]
    simp
  rw [callApiStream, whole, run_append, reached]
  dsimp only
  rw [run_append]
  constructor
  · intro answered
    cases returned : c.run num (lines num (.event e)) with
    | result r =>
      rw [returned] at answered
      exact answered ▸ free_run (lines_clean final) returned
    | next c' =>
      obtain ⟨c'', ended⟩ := run_frames c' later fun f member => by
        rw [tail] at member
        contradiction
      rw [returned] at answered
      dsimp only at answered
      rw [ended] at answered
      exact answered ▸ free_error.mpr (plain_text (by decide))
  · intro free
    rw [run_whole c final (same.mpr free), returns]

end Runs

/-- The packages, by what they are documented to do. -/
def sseTransport : Transport where
  encode name data := eventField ++ ' ' :: name.toList ++ crlf ++ (dataField ++ ' ' :: data ++ crlf) ++ crlf
  comment text := ':' :: ' ' :: text ++ crlf ++ crlf
  iterLines := Py.splitlines
  encode_eq _ _ _ _ := rfl
  comment_eq _ _ _ := rfl
  iterLines_eq _ := rfl

def oneStep : List Step := [⟨["1"], "generator", some [("sql", .str "SELECT 1")]⟩]

def timed : Outcome := .through (.obj [("generator", .float (3 / 2))])

def tokenEvent : Event := ⟨"token", [("text", .str "1")]⟩

def nodeEvent : Event :=
  ⟨"node_complete", [("node", .str "generator"),
    ("summary", .obj [("candidate_count", .int 1), ("sql_preview", .str "SELECT 1")])]⟩

def completeEvent : Event :=
  ⟨"complete", [("sql", .str "SELECT 1"), ("exec_result", .null), ("token_usage", .obj []),
    ("node_timings", .obj [("generator", .float (3 / 2))])]⟩

theorem oneStep_events : eventGenerator (runGraph [] oneStep timed) =
    [tokenEvent, nodeEvent, completeEvent] := rfl

/-- A run with a ping between its events, through which the client gets the answer. -/
theorem client_answers_oneStep :
    callApiStream JsonText.tenths (sseTransport.iterLines (sseTransport.body JsonText.tenths
      [.event tokenEvent, .ping ['p', 'i', 'n', 'g'], .event nodeEvent, .event completeEvent])) =
      answer [] oneStep timed := by
  have token : JsonText.Writable JsonText.tenths (.obj tokenEvent.data) := ⟨by decide, trivial, trivial⟩
  have node : JsonText.Writable JsonText.tenths (.obj nodeEvent.data) :=
    ⟨by decide, trivial, ⟨by decide, trivial, trivial, trivial⟩, trivial⟩
  have complete : JsonText.Writable JsonText.tenths (.obj completeEvent.data) :=
    ⟨by decide, trivial, trivial, ⟨by decide, trivial⟩, ⟨by decide, JsonText.tenths_text, trivial⟩, trivial⟩
  have tokenFree : JsonText.Free inlineBreak (.obj tokenEvent.data) :=
    ⟨⟨plain_text (s := "text") (by decide), plain_text (s := "1") (by decide)⟩, trivial⟩
  have nodeFree : JsonText.Free inlineBreak (.obj nodeEvent.data) :=
    ⟨⟨plain_text (s := "node") (by decide), plain_text (s := "generator") (by decide)⟩,
      ⟨plain_text (s := "summary") (by decide),
        ⟨plain_text (s := "candidate_count") (by decide), trivial⟩,
        ⟨plain_text (s := "sql_preview") (by decide), plain_text (s := "SELECT 1") (by decide)⟩,
        trivial⟩, trivial⟩
  have summarized : Summarized oneStep := List.forall_mem_singleton.mpr ⟨_, rfl⟩
  have sent : List.filterMap Frame.event? [.event tokenEvent, .ping ['p', 'i', 'n', 'g'],
      .event nodeEvent, .event completeEvent] = eventGenerator (runGraph [] oneStep timed) :=
    oneStep_events.symm
  refine (client_answers_iff summarized sent ?_ ?_).mpr ?_
  · simp only [List.forall_mem_cons, List.not_mem_nil, false_imp_iff, implies_true, and_true]
    exact ⟨token, by simp [Frame.Writable, Py.isLineBreak], node, complete⟩
  · rw [oneStep_events]
    exact List.forall_mem_cons.mpr ⟨quiet_of_free tokenFree token,
      List.forall_mem_singleton.mpr (quiet_of_free nodeFree node)⟩
  · exact free_result.mpr ⟨plain_text (s := "SELECT 1") (by decide), trivial, trivial,
      ⟨plain_text (s := "generator") (by decide), trivial⟩, trivial⟩

end FullStream
end Nl2SqlAgent

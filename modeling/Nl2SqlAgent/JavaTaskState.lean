import Nl2SqlAgent.TaskStore

/-! `TaskState.java` and the read-and-write-back operations of the gateway
(`TaskStoreService`, `TaskController.feedback`): the document is decoded into a fixed
class and the whole object is written. The mapper skips keys the class does not have,
keeps the initial value of a field whose key is missing, and refuses numbers that are
no JSON. -/
namespace Nl2SqlAgent

open Lib

namespace JavaTaskState

-- the retries and the percentages that are written as numerals
instance instNeZeroRetries : NeZero 4 := ⟨by decide⟩

instance instNeZeroPercent : NeZero 101 := ⟨by decide⟩

instance instLawfulBEqRetries : LawfulBEq (Fin 4) := inferInstance

/-- A `Map<String, Object>`, which a `null` in the document replaces. -/
abbrev Fields := Option (List (String × Json))

structure TaskState where
  taskId : Option String := none
  status : Option String := none
  question : Option String := none
  dbId : Option String := none
  databaseUrl : Option String := none
  progress : Int := 0
  node : Option String := none
  sql : Option String := none
  execResult : Json := .null
  tokenUsage : Fields := some []
  nodeTimings : Fields := some []
  retryCount : Int := 0
  error : Json := .null
  createdAt : Option String := none
  updatedAt : Option String := none
  conversationTurns : Json := .obj []
  cacheHit : Option Bool := none

/-- Reading one field: a missing key leaves the initial value. -/
def field (d : Doc) (key : String) (initial : α) (read : Json → Option α) : Option α :=
  match d.lookup key with
  | none => some initial
  | some value => read value

def readText : Json → Option (Option String)
  | .null => some none
  | .str s => some (some s)
  | _ => none

/-- An `int`; `null` becomes zero. -/
def readInt : Json → Option Int
  | .null => some 0
  | .int n => if -2147483648 ≤ n ∧ n < 2147483648 then some n else none
  | _ => none

def readFields : Json → Option Fields
  | .null => some none
  | .obj fields => some (some fields)
  | _ => none

def readFlag : Json → Option (Option Bool)
  | .null => some none
  | .bool b => some (some b)
  | _ => none

/-- `om.readValue(raw, TaskState.class)`. -/
def decode (d : Doc) : Option TaskState := do
  guard (d.strict = true)
  let taskId ← field d "task_id" none readText
  let status ← field d "status" none readText
  let question ← field d "question" none readText
  let dbId ← field d "db_id" none readText
  let databaseUrl ← field d "database_url" none readText
  let progress ← field d "progress" 0 readInt
  let node ← field d "node" none readText
  let sql ← field d "sql" none readText
  let execResult ← field d "exec_result" .null some
  let tokenUsage ← field d "token_usage" (some []) readFields
  let nodeTimings ← field d "node_timings" (some []) readFields
  let retryCount ← field d "retry_count" 0 readInt
  let error ← field d "error" .null some
  let createdAt ← field d "created_at" none readText
  let updatedAt ← field d "updated_at" none readText
  let conversationTurns ← field d "conversation_turns" (.obj []) some
  let cacheHit ← field d "cache_hit" none readFlag
  return {
    taskId, status, question, dbId, databaseUrl, progress, node, sql, execResult, tokenUsage,
    nodeTimings, retryCount, error, createdAt, updatedAt, conversationTurns, cacheHit }

def writeFields : Fields → Json
  | none => .null
  | some fields => .obj fields

def baseFields (s : TaskState) : List (String × Json) :=
  [("task_id", TaskStore.text s.taskId),
    ("status", TaskStore.text s.status),
    ("question", TaskStore.text s.question),
    ("db_id", TaskStore.text s.dbId),
    ("database_url", TaskStore.text s.databaseUrl),
    ("progress", .int s.progress),
    ("node", TaskStore.text s.node),
    ("sql", TaskStore.text s.sql),
    ("exec_result", s.execResult),
    ("token_usage", writeFields s.tokenUsage),
    ("node_timings", writeFields s.nodeTimings),
    ("retry_count", .int s.retryCount),
    ("error", s.error),
    ("created_at", TaskStore.text s.createdAt),
    ("updated_at", TaskStore.text s.updatedAt),
    ("conversation_turns", s.conversationTurns)]

/-- `cache_hit` is written only when it is set. -/
def cacheField (s : TaskState) : List (String × Json) :=
  (s.cacheHit.map fun b => ("cache_hit", Json.bool b)).toList

/-- `om.writeValueAsString(s)`. -/
def encode (s : TaskState) : Doc := Doc.ofFields (baseFields s ++ cacheField s)

/-- The first `n` UTF-16 units; half a surrogate pair is stored as `?`. -/
def utf16Prefix : Nat → List Char → List Char
  | 0, _ => []
  | _, [] => []
  | 1, c :: _ => if c.val < 0x10000 then [c] else ['?']
  | n + 2, c :: rest =>
    if c.val < 0x10000 then c :: utf16Prefix (n + 1) rest else c :: utf16Prefix n rest

/-- `length()` of a text: a character outside the basic plane takes two units. -/
def width (cs : List Char) : Nat := (cs.map fun c => if c.val < 0x10000 then 1 else 2).sum

@[simp] theorem width_nil : width [] = 0 := rfl

@[simp] theorem width_cons (c : Char) (rest : List Char) :
    width (c :: rest) = (if c.val < 0x10000 then 1 else 2) + width rest := rfl

theorem length_le_width (cs : List Char) : cs.length ≤ width cs := by
  induction cs with
  | nil => simp
  | cons c rest ih =>
    rw [List.length_cons, width_cons]
    split <;> omega

theorem width_eq_zero {cs : List Char} : width cs = 0 ↔ cs = [] := by
  have long := length_le_width cs
  constructor
  · intro none_left
    exact List.eq_nil_of_length_eq_zero (by omega)
  · rintro rfl
    rfl

/-- A cut after so many units is a cut after so many characters when the characters
before it have no more units. -/
theorem utf16Prefix_eq_take {n m : Nat} {cs : List Char} (far : n ≤ m) :
    utf16Prefix n cs = cs.take m ↔ width (cs.take m) ≤ n := by
  fun_induction utf16Prefix n cs generalizing m with
  | case1 cs => rw [Nat.le_zero, width_eq_zero, eq_comm]
  | case2 n => simp
  | case3 c rest basic =>
    obtain ⟨m, rfl⟩ := Nat.exists_eq_add_of_le' far
    simp only [List.take_succ_cons, width_cons, if_pos basic, List.cons.injEq, true_and]
    rw [eq_comm, ← width_eq_zero]
    omega
  | case4 c rest high =>
    obtain ⟨m, rfl⟩ := Nat.exists_eq_add_of_le' far
    simp only [List.take_succ_cons, width_cons, if_neg high, List.cons.injEq]
    constructor
    · rintro ⟨rfl, -⟩
      exact absurd (by decide) high
    · omega
  | case5 n c rest basic ih =>
    obtain ⟨m, rfl⟩ := Nat.exists_eq_add_of_le' (show 1 ≤ m by omega)
    simp only [List.take_succ_cons, width_cons, if_pos basic, List.cons.injEq, true_and]
    rw [ih (by omega)]
    omega
  | case6 n c rest high ih =>
    obtain ⟨m, rfl⟩ := Nat.exists_eq_add_of_le' (show 1 ≤ m by omega)
    simp only [List.take_succ_cons, width_cons, if_neg high, List.cons.injEq, true_and]
    rw [ih (by omega)]
    omega

theorem utf16Prefix_short {n : Nat} {cs : List Char} (short : width cs ≤ n) :
    utf16Prefix n cs = cs := by
  have cut : utf16Prefix n cs = cs.take (max n cs.length) ↔ width (cs.take (max n cs.length)) ≤ n :=
    utf16Prefix_eq_take (Nat.le_max_left n cs.length)
  rw [List.take_of_length_le (Nat.le_max_right n cs.length)] at cut
  exact cut.mpr short

/-- `question.substring(0, Math.min(200, question.length()))`. -/
def storedQuestion (question : String) : String := .ofList (utf16Prefix 200 question.toList)

/-- `TaskStoreService.create`. -/
def create (taskId question dbId databaseUrl now : String) : TaskState :=
  { taskId := some taskId
    status := some "PENDING"
    question := some (storedQuestion question)
    dbId := some dbId
    databaseUrl := some databaseUrl
    createdAt := some now
    updatedAt := some now }

/-- `TaskStoreService.createFromCache`; the cached parts that could not be read keep
their initial values. -/
def createFromCache (taskId question dbId now : String) (sql : Option String) (execResult : Json)
    (tokenUsage nodeTimings : Fields) : TaskState :=
  { taskId := some taskId
    status := some "SUCCESS"
    question := some (storedQuestion question)
    dbId := some dbId
    progress := 100
    sql := sql
    execResult := execResult
    tokenUsage := tokenUsage
    nodeTimings := nodeTimings
    createdAt := some now
    updatedAt := some now
    cacheHit := some true }

/-- `turns().size()`: anything but a list counts as none. -/
def turnCount (s : TaskState) : Nat :=
  match s.conversationTurns with
  | .arr items => items.length
  | _ => 0

def feedbackMaxTurns : Nat := 10

/-- What an accepted feedback request saves. -/
def feedbackSaved (now : String) (s : TaskState) : TaskState :=
  { s with status := some "RUNNING", node := none, progress := 0, updatedAt := some now }

/-- What a stale scan saves for a task whose worker is lost. -/
def staleSaved (now : String) (s : TaskState) : TaskState :=
  { s with
    status := some "TIMEOUT"
    error := .str "Worker lost (heartbeat stale)"
    updatedAt := some now }

inductive Operation where
  | feedback
  | scanStale
  deriving DecidableEq, Repr

def Operation.saved (now : String) (s : TaskState) : Operation → TaskState
  | .feedback => feedbackSaved now s
  | .scanStale => staleSaved now s

/-- The document an operation writes back, when it gets to its `save`. -/
def Operation.apply (now : String) (d : Doc) : Operation → Option Doc
  | .feedback => do
    let s ← decode d
    guard (s.status = some "SUCCESS" ∨ s.status = some "FAILED")
    guard (turnCount s + 1 ≤ feedbackMaxTurns)
    return encode (feedbackSaved now s)
  | .scanStale => do
    let s ← decode d
    guard (s.status = some "RUNNING")
    return encode (staleSaved now s)

/-- The fields an operation means to change. -/
def Operation.meant : Operation → List String
  | .feedback => ["status","node","progress","updated_at"]
  | .scanStale => ["status","error","updated_at"]

/-- Every document that the gateway, the API and the worker can have written. -/
inductive Written : Doc → Prop where
  | submitted (taskId question dbId databaseUrl now : String) :
      Written (TaskStore.taskCreate taskId question dbId databaseUrl now)
  | created (taskId question dbId databaseUrl now : String) :
      Written (encode (create taskId question dbId databaseUrl now))
  | cached (taskId question dbId now : String) (sql : Option String) (execResult : Json)
      (tokenUsage nodeTimings : Fields) :
      Written (encode (createFromCache taskId question dbId now sql execResult tokenUsage nodeTimings))
  | worker (d : Doc) (write : TaskStore.Write) (now : String) (before : Written d) :
      Written (TaskStore.merged now d write.fields)
  | gateway (d d' : Doc) (operation : Operation) (now : String) (before : Written d)
      (saved : operation.apply now d = some d') : Written d'

/-- What the class declares for a key. -/
inductive Kind where
  | text
  | int
  | any
  | map
  | flag
  deriving DecidableEq, Repr

def kinds : List (String × Kind) :=
  [("task_id", .text), ("status", .text), ("question", .text), ("db_id", .text),
    ("database_url", .text), ("progress", .int), ("node", .text), ("sql", .text),
    ("exec_result", .any), ("token_usage", .map), ("node_timings", .map), ("retry_count", .int),
    ("error", .any), ("created_at", .text), ("updated_at", .text), ("conversation_turns", .any),
    ("cache_hit", .flag)]

def isInt (n : Int) : Bool := -2147483648 ≤ n ∧ n < 2147483648

/-- The values that the writers put under a key of that kind. -/
def Kind.admits : Kind → Json → Bool
  | .text, .null => true
  | .text, .str _ => true
  | .int, .int n => isInt n
  | .any, _ => true
  | .map, .null => true
  | .map, .obj _ => true
  | .flag, .bool _ => true
  | _, _ => false

/-- A key of the class with a value of its kind, or a key of the feedback context. -/
def fits (field : String × Json) : Bool :=
  match kinds.lookup field.1 with
  | some kind => kind.admits field.2
  | none => field.1 ∈ TaskStore.contextKeys

/-- Every field of the document is one that the writers know. -/
def Shaped (d : Doc) : Prop := ∀ key value, d.lookup key = some value → fits (key, value) = true

theorem shaped_update (shaped : Shaped d) (fields : List (String × Json))
    (new : ∀ field ∈ fields, fits field = true) : Shaped (d.update fields) := by
  intro key value found
  rcases Doc.lookup_update_cases d fields key value found with member | ⟨-, old⟩
  · exact new _ member
  · exact shaped key value old

theorem shaped_ofFields (fields : List (String × Json)) (new : ∀ field ∈ fields, fits field = true) :
    Shaped (Doc.ofFields fields) :=
  shaped_update (fun _ _ found => by simp at found) fields new

theorem admits_map (fields : Fields) : Kind.admits .map (writeFields fields) = true := by
  cases fields <;> rfl

theorem fits_text (key : String) (t : Option String) (kind : kinds.lookup key = some .text) :
    fits (key, TaskStore.text t) = true := by
  simp only [fits, kind]
  cases t <;> rfl

theorem fits_write (write : TaskStore.Write) : ∀ field ∈ write.fields, fits field = true := by
  have small (key : String) (n : Nat) (bound : n ≤ 100) (kind : kinds.lookup key = some .int) :
      fits (key, .int n) = true := by
    simp only [fits, kind, Kind.admits, isInt, decide_eq_true_eq]
    omega
  intro field member
  cases write with
  | running retryCount =>
    simp only [TaskStore.Write.fields, List.mem_cons, List.not_mem_nil, or_false] at member
    rcases member with rfl | rfl
    · rfl
    · exact small _ _ (by omega) rfl
  | ended status error =>
    rcases List.mem_cons.mp member with rfl | reason
    · rfl
    · cases error with
      | none => simp at reason
      | some e =>
        obtain rfl : field = ("error", .str e) := by simpa using reason
        rfl
  | progress node percent sql tokenUsage nodeTimings =>
    simp only [TaskStore.Write.fields, List.mem_cons, List.not_mem_nil, or_false] at member
    rcases member with rfl | rfl | rfl | rfl | rfl
    · rfl
    · exact small _ _ (by omega) rfl
    · exact fits_text _ sql rfl
    · rfl
    · rfl
  | retried retryCount error =>
    simp only [TaskStore.Write.fields, List.mem_cons, List.not_mem_nil, or_false] at member
    rcases member with rfl | rfl
    · exact small _ _ (by omega) rfl
    · rfl
  | graphDone sql execResult tokenUsage nodeTimings schemaText notesText fewshotText payload =>
    simp only [TaskStore.Write.fields, List.mem_cons, List.not_mem_nil, or_false] at member
    rcases member with rfl | rfl | rfl | rfl | rfl | rfl | rfl | rfl
    · exact fits_text _ sql rfl
    all_goals rfl
  | feedbackStarted =>
    simp only [TaskStore.Write.fields, List.mem_cons, List.not_mem_nil, or_false] at member
    rcases member with rfl | rfl | rfl <;> rfl
  | feedbackDone sql execResult tokenUsage nodeTimings conversationTurns =>
    simp only [TaskStore.Write.fields, List.mem_cons, List.not_mem_nil, or_false] at member
    rcases member with rfl | rfl | rfl | rfl | rfl | rfl
    · exact fits_text _ sql rfl
    all_goals rfl

theorem fits_base (s : TaskState) (progress : isInt s.progress = true)
    (retries : isInt s.retryCount = true) : ∀ field ∈ baseFields s, fits field = true := by
  intro field member
  simp only [baseFields, List.mem_cons, List.not_mem_nil, or_false] at member
  rcases member with rfl | rfl | rfl | rfl | rfl | rfl | rfl | rfl | rfl | rfl | rfl | rfl | rfl |
    rfl | rfl | rfl
  · exact fits_text _ _ rfl
  · exact fits_text _ _ rfl
  · exact fits_text _ _ rfl
  · exact fits_text _ _ rfl
  · exact fits_text _ _ rfl
  · exact progress
  · exact fits_text _ _ rfl
  · exact fits_text _ _ rfl
  · rfl
  · exact admits_map s.tokenUsage
  · exact admits_map s.nodeTimings
  · exact retries
  · rfl
  · exact fits_text _ _ rfl
  · exact fits_text _ _ rfl
  · rfl

theorem shaped_encode (s : TaskState) (progress : isInt s.progress = true)
    (retries : isInt s.retryCount = true) : Shaped (encode s) := by
  apply shaped_ofFields
  intro field member
  rcases List.mem_append.mp member with base | cache
  · exact fits_base s progress retries field base
  · cases flag : s.cacheHit with
    | none => simp [cacheField, flag] at cache
    | some b =>
      obtain rfl : field = ("cache_hit", .bool b) := by simpa [cacheField, flag] using cache
      rfl

end JavaTaskState
end Nl2SqlAgent

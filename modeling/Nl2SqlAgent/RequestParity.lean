import Nl2SqlAgent.GatewaySubmit
import Nl2SqlAgent.JavaWriteBack

/-! The bodies of submit and feedback requests, as the gateway and the API read, check and
publish them. Jackson and Pydantic are parameters: a reader for each declared type, which
may read values of other types in its default mode. -/
namespace Nl2SqlAgent

open Lib

namespace RequestParity

open JavaTaskState (field)

/-- The outcome of a submit request; `rejected` is a 4xx that creates no state. -/
inductive Outcome where
  | rejected
  | failed
  | accepted (payload : List (String × Json))
  deriving DecidableEq

/-- Both reject, or both accept and publish the same payload. -/
def Alike (gateway api : Outcome) : Prop :=
  (gateway = .rejected ∧ api = .rejected) ∨
    ∃ payload, gateway = .accepted payload ∧ api = .accepted payload

/-- Duplicate keys: the last one counts. -/
def object : Json → Option Doc
  | .obj fields => some (Doc.ofFields fields)
  | _ => none

/-- `readValue` for `String`, `Boolean` and `Integer`. -/
structure Jackson where
  text : Json → Option (Option String)
  flag : Json → Option (Option Bool)
  int : Json → Option (Option Int)

structure Jackson.Documented (jackson : Jackson) : Prop where
  text_null : jackson.text .null = some none
  text_str : ∀ s, jackson.text (.str s) = some (some s)
  flag_bool : ∀ b, jackson.flag (.bool b) = some (some b)
  int_int : ∀ n, JavaTaskState.isInt n = true → jackson.int (.int n) = some (some n)

structure SubmitRequest extends GatewaySubmit.SubmitRequest where
  ragSchema : Option Bool
  ragDomain : Option Bool
  multiCandidate : Option Bool
  ragK : Option Int
  ragColumnPrune : Option Bool
  ragHybrid : Option Bool
  ragFkExpand : Option Bool
  fewshotEnabled : Option Bool
  llm : Json

def submitFields (jackson : Jackson) (d : Doc) : Option SubmitRequest := do
  let question ← field d "question" none jackson.text
  let ragSchema ← field d "rag_schema" none jackson.flag
  let ragDomain ← field d "rag_domain" none jackson.flag
  let multiCandidate ← field d "multi_candidate" none jackson.flag
  let ragK ← field d "rag_k" none jackson.int
  let ragColumnPrune ← field d "rag_column_prune" none jackson.flag
  let ragHybrid ← field d "rag_hybrid" none jackson.flag
  let ragFkExpand ← field d "rag_fk_expand" none jackson.flag
  let fewshotEnabled ← field d "fewshot_enabled" none jackson.flag
  let databaseUrl ← field d "database_url" none jackson.text
  let dbId ← field d "db_id" none jackson.text
  let llm ← field d "llm" .null some
  let idempotencyKey ← field d "idempotency_key" none jackson.text
  return {
    question, dbId, databaseUrl, idempotencyKey, ragSchema, ragDomain, multiCandidate, ragK,
    ragColumnPrune, ragHybrid, ragFkExpand, fewshotEnabled, llm }

/-- The `@RequestBody` of `submit`; numbers that are no JSON are refused wherever they stand. -/
def readSubmit (jackson : Jackson) (body : Json) : Option SubmitRequest := do
  let d ← object body
  guard (body.strict = true)
  submitFields jackson d

/-- The payload of `accepted`. -/
def SubmitRequest.payload (req : SubmitRequest) (question : String) : List (String × Json) :=
  [("question", .str question),
    ("db_id", .str (req.dbId.getD "")),
    ("database_url", .str (req.databaseUrl.getD "")),
    ("rag_schema", .bool (req.ragSchema.getD true)),
    ("rag_domain", .bool (req.ragDomain.getD true)),
    ("multi_candidate", .bool (req.multiCandidate.getD true)),
    ("rag_k", .int (req.ragK.getD 8)),
    ("rag_column_prune", .bool (req.ragColumnPrune.getD false)),
    ("rag_hybrid", .bool (req.ragHybrid.getD true)),
    ("rag_fk_expand", .bool (req.ragFkExpand.getD true)),
    ("fewshot_enabled", .bool (req.fewshotEnabled.getD true))]

/-- `submit` for a new task that the limits let through; a missing question raises, at the
latest when it is stored. -/
def gatewaySubmit (jackson : Jackson) (policy : GatewaySubmit.Policy) (body : Json) : Outcome :=
  match readSubmit jackson body with
  | none => .rejected
  | some req =>
    if GatewaySubmit.dbAllowed policy req.dbId then
      match req.question with
      | none => .failed
      | some question => .accepted (req.payload question)
    else .rejected

/-- `feedback`: what is published, if it is accepted; `mayAct` is the answer of
`isOwnerOrAdmin`. -/
def gatewayFeedback (jackson : Jackson) (mayAct : Bool) (stored : Option Doc) (body : Json) :
    Option Json := do
  let d ← object body
  guard (body.strict = true)
  let feedback ← field d "feedback" none jackson.text
  guard (mayAct = true)
  let s ← stored.bind JavaTaskState.decode
  guard (s.status = some "SUCCESS" ∨ s.status = some "FAILED")
  guard (JavaTaskState.turnCount s + 1 ≤ JavaTaskState.feedbackMaxTurns)
  return TaskStore.text feedback

/-- The validation of `str`, `bool` and `int`. -/
structure Pydantic where
  text : Json → Option String
  flag : Json → Option Bool
  int : Json → Option Int

structure Pydantic.Documented (pydantic : Pydantic) : Prop where
  text_iff : ∀ value s, pydantic.text value = some s ↔ value = .str s
  flag_bool : ∀ b, pydantic.flag (.bool b) = some b
  int_int : ∀ n, pydantic.int (.int n) = some n

/-- `T | None`. -/
def nullable (read : Json → Option α) (value : Json) : Option (Option α) :=
  if value = .null then some none else (read value).map some

/-- `Field(min_length=…, max_length=…)`. -/
def sized (least most : Nat) (read : Json → Option String) (value : Json) : Option String := do
  let s ← read value
  guard (least ≤ s.length ∧ s.length ≤ most)
  return s

/-- `Field(ge=…, le=…)`. -/
def ranged (least most : Int) (read : Json → Option Int) (value : Json) : Option Int := do
  let n ← read value
  guard (least ≤ n ∧ n ≤ most)
  return n

def required (d : Doc) (key : String) (read : Json → Option α) : Option α := d.lookup key >>= read

structure LLMConfig where
  model : Option String
  apiKey : Option String
  baseUrl : Option String

def readLLMConfig (pydantic : Pydantic) (value : Json) : Option LLMConfig := do
  let d ← object value
  let model ← field d "model" none (nullable pydantic.text)
  let apiKey ← field d "api_key" none (nullable pydantic.text)
  let baseUrl ← field d "base_url" none (nullable pydantic.text)
  return { model, apiKey, baseUrl }

structure TaskSubmitRequest where
  question : String
  ragSchema : Bool
  ragDomain : Bool
  multiCandidate : Bool
  ragK : Int
  ragColumnPrune : Bool
  ragHybrid : Bool
  ragFkExpand : Bool
  fewshotEnabled : Bool
  databaseUrl : Option String
  dbId : Option String
  llm : Option LLMConfig
  idempotencyKey : Option String

def taskSubmitFields (pydantic : Pydantic) (d : Doc) : Option TaskSubmitRequest := do
  let question ← required d "question" (sized 1 2000 pydantic.text)
  let ragSchema ← field d "rag_schema" true pydantic.flag
  let ragDomain ← field d "rag_domain" true pydantic.flag
  let multiCandidate ← field d "multi_candidate" true pydantic.flag
  let ragK ← field d "rag_k" 8 (ranged 1 50 pydantic.int)
  let ragColumnPrune ← field d "rag_column_prune" false pydantic.flag
  let ragHybrid ← field d "rag_hybrid" true pydantic.flag
  let ragFkExpand ← field d "rag_fk_expand" true pydantic.flag
  let fewshotEnabled ← field d "fewshot_enabled" true pydantic.flag
  let databaseUrl ← field d "database_url" none (nullable pydantic.text)
  let dbId ← field d "db_id" none (nullable pydantic.text)
  let llm ← field d "llm" none (nullable (readLLMConfig pydantic))
  let idempotencyKey ← field d "idempotency_key" none (nullable (sized 0 128 pydantic.text))
  return {
    question, ragSchema, ragDomain, multiCandidate, ragK, ragColumnPrune, ragHybrid, ragFkExpand,
    fewshotEnabled, databaseUrl, dbId, llm, idempotencyKey }

def readTaskSubmit (pydantic : Pydantic) (body : Json) : Option TaskSubmitRequest :=
  object body >>= taskSubmitFields pydantic

/-- The payload of `task_submit`. -/
def TaskSubmitRequest.payload (req : TaskSubmitRequest) : List (String × Json) :=
  [("question", .str req.question),
    ("db_id", .str (req.dbId.getD "")),
    ("database_url", .str (req.databaseUrl.getD "")),
    ("rag_schema", .bool req.ragSchema),
    ("rag_domain", .bool req.ragDomain),
    ("multi_candidate", .bool req.multiCandidate),
    ("rag_k", .int req.ragK),
    ("rag_column_prune", .bool req.ragColumnPrune),
    ("rag_hybrid", .bool req.ragHybrid),
    ("rag_fk_expand", .bool req.ragFkExpand),
    ("fewshot_enabled", .bool req.fewshotEnabled)]

/-- `task_submit` for a new task. -/
def taskSubmit (pydantic : Pydantic) (body : Json) : Outcome :=
  match readTaskSubmit pydantic body with
  | none => .rejected
  | some req => .accepted req.payload

/-- `len(state.get("conversation_turns", []))`, which raises for a value without a length. -/
def turnsLength (d : Doc) : Option Nat :=
  match d.lookup "conversation_turns" with
  | none => some 0
  | some (.arr items) => some items.length
  | some (.obj fields) => some (Doc.ofFields fields).entries.length
  | some (.str s) => some s.length
  | some _ => none

/-- `task_feedback`: what is published, if it is accepted. -/
def taskFeedback (pydantic : Pydantic) (stored : Option Doc) (body : Json) : Option Json := do
  let d ← object body
  let feedback ← required d "feedback" (sized 1 2000 pydantic.text)
  let state ← stored
  let status := (state.lookup "status").getD (.str "")
  guard (status = .str "SUCCESS" ∨ status = .str "FAILED")
  let turns ← turnsLength state
  guard (turns + 1 ≤ JavaTaskState.feedbackMaxTurns)
  return .str feedback

section Conditions

variable (jackson : Jackson) (pydantic : Pydantic) (d : Doc)

/-- The flags of a submit request with their defaults. -/
def flags : List (String × Bool) :=
  [("rag_schema", true), ("rag_domain", true), ("multi_candidate", true), ("rag_column_prune", false),
    ("rag_hybrid", true), ("rag_fk_expand", true), ("fewshot_enabled", true)]

/-- The field is given with a value that the reader refuses. -/
def Unread (key : String) (read : Json → Option α) : Prop :=
  ∃ value, d.lookup key = some value ∧ read value = none

/-- A value of the field, if it is given, has the property. -/
def Given (key : String) (property : Json → Prop) : Prop :=
  ∀ value, d.lookup key = some value → property value

/-- `null` or a text. -/
def TextOrNull (value : Json) : Prop := value = .null ∨ ∃ s, value = .str s

/-- The constraints of `TaskSubmitRequest`. -/
structure Declared : Prop where
  question : ∃ s, d.lookup "question" = some (.str s) ∧ 1 ≤ s.length ∧ s.length ≤ 2000
  flags : ∀ flag ∈ flags, Given d flag.1 fun value => ∃ b, pydantic.flag value = some b
  ragK : Given d "rag_k" fun value => ∃ n, pydantic.int value = some n ∧ 1 ≤ n ∧ n ≤ 50
  databaseUrl : Given d "database_url" TextOrNull
  dbId : Given d "db_id" TextOrNull
  llm : Given d "llm" fun value => value = .null ∨ ∃ fields, value = .obj fields ∧
    ∀ key ∈ ["model","api_key","base_url"], Given (Doc.ofFields fields) key TextOrNull
  idempotencyKey : Given d "idempotency_key" fun value =>
    value = .null ∨ ∃ s, value = .str s ∧ s.length ≤ 128

/-- Jackson refuses the type of a field. -/
def Refused : Prop :=
  (∃ key ∈ ["question","database_url","db_id","idempotency_key"], Unread d key jackson.text) ∨
    (∃ flag ∈ flags, Unread d flag.1 jackson.flag) ∨ Unread d "rag_k" jackson.int

/-- The whitelist of the user excludes the database. -/
def Forbidden (policy : GatewaySubmit.Policy) : Prop :=
  ∃ dbId, field d "db_id" none jackson.text = some dbId ∧ GatewaySubmit.dbAllowed policy dbId = false

/-- A flag that is not given as `true` or `false` is read alike. -/
def FlagAlike (flag : String × Bool) : Prop :=
  Given d flag.1 fun value =>
    (∃ b, value = .bool b) ∨ (jackson.flag value).map (·.getD flag.2) = pydantic.flag value

/-- So is a `rag_k` that is not given as an integer. -/
def RagKAlike : Prop :=
  Given d "rag_k" fun value =>
    (∃ n, value = .int n) ∨ (jackson.int value).map (·.getD 8) = pydantic.int value

/-- The constraints hold and nothing is read differently, or they do not hold and the
gateway has a reason of its own to reject. -/
def SubmitAlike (policy : GatewaySubmit.Policy) (body : Json) : Prop :=
  match object body with
  | none => True
  | some d =>
    (Declared pydantic d ∧ body.strict = true ∧ ¬ Forbidden jackson d policy ∧
        (∀ flag ∈ flags, FlagAlike jackson pydantic d flag) ∧ RagKAlike jackson pydantic d) ∨
      (¬ Declared pydantic d ∧
        (body.strict = false ∨ Refused jackson d ∨ Forbidden jackson d policy))

/-- The API takes feedback for the stored state. -/
def apiOpen (stored : Option Doc) : Bool :=
  match stored with
  | none => false
  | some d =>
    (d.lookup "status" = some (.str "SUCCESS") ∨ d.lookup "status" = some (.str "FAILED")) ∧
      (turnsLength d).any (· < JavaTaskState.feedbackMaxTurns)

/-- The gateway takes feedback for the stored state. -/
def gatewayOpen (stored : Option Doc) : Bool :=
  (stored.bind JavaTaskState.decode).any fun s =>
    (s.status = some "SUCCESS" ∨ s.status = some "FAILED") ∧
      JavaTaskState.turnCount s < JavaTaskState.feedbackMaxTurns

/-- The constraints of `TaskFeedbackRequest`. -/
def FeedbackDeclared (body : Json) : Prop :=
  ∃ d s, object body = some d ∧ d.lookup "feedback" = some (.str s) ∧ 1 ≤ s.length ∧ s.length ≤ 2000

/-- The user may act on the task, and the body has a feedback that Jackson reads, or none. -/
def Admitted (mayAct : Bool) (body : Json) : Prop :=
  mayAct = true ∧ body.strict = true ∧ ∃ d, object body = some d ∧ ¬ Unread d "feedback" jackson.text

def FeedbackAlike (mayAct : Bool) (stored : Option Doc) (body : Json) : Prop :=
  match apiOpen stored, gatewayOpen stored with
  | true, true => FeedbackDeclared body ↔ Admitted jackson mayAct body
  | true, false => ¬ FeedbackDeclared body
  | false, true => ¬ Admitted jackson mayAct body
  | false, false => True

end Conditions

section Reading

variable {jackson : Jackson} {pydantic : Pydantic} {d : Doc} {key : String}

theorem guard_iff {p : Prop} [Decidable p] {u : Unit} : (guard p : Option Unit) = some u ↔ p := by
  unfold guard
  split <;> simp [*]

theorem field_none_iff {initial : α} {read : Json → Option α} :
    field d key initial read = none ↔ Unread d key read := by
  unfold field Unread
  cases d.lookup key <;> simp

theorem field_some_iff {initial a : α} {read : Json → Option α} :
    field d key initial read = some a ↔
      (d.lookup key = none ∧ a = initial) ∨ ∃ value, d.lookup key = some value ∧ read value = some a := by
  unfold field
  cases d.lookup key <;> simp [eq_comm]

/-- Every field of the request as it is read from the body. -/
structure Read (jackson : Jackson) (d : Doc) (req : SubmitRequest) : Prop where
  question : field d "question" none jackson.text = some req.question
  ragSchema : field d "rag_schema" none jackson.flag = some req.ragSchema
  ragDomain : field d "rag_domain" none jackson.flag = some req.ragDomain
  multiCandidate : field d "multi_candidate" none jackson.flag = some req.multiCandidate
  ragK : field d "rag_k" none jackson.int = some req.ragK
  ragColumnPrune : field d "rag_column_prune" none jackson.flag = some req.ragColumnPrune
  ragHybrid : field d "rag_hybrid" none jackson.flag = some req.ragHybrid
  ragFkExpand : field d "rag_fk_expand" none jackson.flag = some req.ragFkExpand
  fewshotEnabled : field d "fewshot_enabled" none jackson.flag = some req.fewshotEnabled
  databaseUrl : field d "database_url" none jackson.text = some req.databaseUrl
  dbId : field d "db_id" none jackson.text = some req.dbId
  llm : field d "llm" .null some = some req.llm
  idempotencyKey : field d "idempotency_key" none jackson.text = some req.idempotencyKey

theorem readSubmit_read {body : Json} {req : SubmitRequest} (opened : object body = some d)
    (reading : readSubmit jackson body = some req) : body.strict = true ∧ Read jackson d req := by
  obtain ⟨d', opened', reading⟩ := Option.bind_eq_some_iff.mp reading
  obtain rfl : d = d' := Option.some.inj (opened.symm.trans opened')
  obtain ⟨_, strict, reading⟩ := Option.bind_eq_some_iff.mp reading
  obtain ⟨question, readQuestion, reading⟩ := Option.bind_eq_some_iff.mp reading
  obtain ⟨ragSchema, readRagSchema, reading⟩ := Option.bind_eq_some_iff.mp reading
  obtain ⟨ragDomain, readRagDomain, reading⟩ := Option.bind_eq_some_iff.mp reading
  obtain ⟨multiCandidate, readMultiCandidate, reading⟩ := Option.bind_eq_some_iff.mp reading
  obtain ⟨ragK, readRagK, reading⟩ := Option.bind_eq_some_iff.mp reading
  obtain ⟨ragColumnPrune, readRagColumnPrune, reading⟩ := Option.bind_eq_some_iff.mp reading
  obtain ⟨ragHybrid, readRagHybrid, reading⟩ := Option.bind_eq_some_iff.mp reading
  obtain ⟨ragFkExpand, readRagFkExpand, reading⟩ := Option.bind_eq_some_iff.mp reading
  obtain ⟨fewshotEnabled, readFewshotEnabled, reading⟩ := Option.bind_eq_some_iff.mp reading
  obtain ⟨databaseUrl, readDatabaseUrl, reading⟩ := Option.bind_eq_some_iff.mp reading
  obtain ⟨dbId, readDbId, reading⟩ := Option.bind_eq_some_iff.mp reading
  obtain ⟨llm, readLlm, reading⟩ := Option.bind_eq_some_iff.mp reading
  obtain ⟨idempotencyKey, readIdempotencyKey, reading⟩ := Option.bind_eq_some_iff.mp reading
  obtain rfl := Option.some.inj reading
  exact ⟨guard_iff.mp strict, ⟨readQuestion, readRagSchema, readRagDomain, readMultiCandidate, readRagK,
    readRagColumnPrune, readRagHybrid, readRagFkExpand, readFewshotEnabled, readDatabaseUrl, readDbId,
    readLlm, readIdempotencyKey⟩⟩

theorem Read.readSubmit {body : Json} {req : SubmitRequest} (opened : object body = some d)
    (strict : body.strict = true) (reading : Read jackson d req) :
    readSubmit jackson body = some req := by
  refine Option.bind_eq_some_iff.mpr ⟨d, opened, ?_⟩
  refine Option.bind_eq_some_iff.mpr ⟨(), guard_iff.mpr strict, ?_⟩
  simp only [submitFields, reading.question, reading.ragSchema, reading.ragDomain,
    reading.multiCandidate, reading.ragK, reading.ragColumnPrune, reading.ragHybrid,
    reading.ragFkExpand, reading.fewshotEnabled, reading.databaseUrl, reading.dbId, reading.llm,
    reading.idempotencyKey, Option.bind_eq_bind, Option.bind_some, Option.pure_def]

theorem given_iff {initial : α} {read : Json → Option α} :
    (∃ a, field d key initial read = some a) ↔ Given d key fun value => ∃ a, read value = some a := by
  unfold field Given
  cases d.lookup key <;> simp

theorem Read.readable {req : SubmitRequest} (read : Read jackson d req) : ¬ Refused jackson d := by
  have known {α : Type} {key : String} {initial a : α} {reader : Json → Option α}
      (given : field d key initial reader = some a) : ¬ Unread d key reader := by
    rw [← field_none_iff (α := α), given]
    exact Option.some_ne_none a
  rintro (⟨key, member, unread⟩ | ⟨flag, member, unread⟩ | unread)
  · simp only [List.mem_cons, List.not_mem_nil, or_false] at member
    rcases member with rfl | rfl | rfl | rfl
    · exact known read.question unread
    · exact known read.databaseUrl unread
    · exact known read.dbId unread
    · exact known read.idempotencyKey unread
  · simp only [flags, List.mem_cons, List.not_mem_nil, or_false] at member
    rcases member with rfl | rfl | rfl | rfl | rfl | rfl | rfl
    · exact known read.ragSchema unread
    · exact known read.ragDomain unread
    · exact known read.multiCandidate unread
    · exact known read.ragColumnPrune unread
    · exact known read.ragHybrid unread
    · exact known read.ragFkExpand unread
    · exact known read.fewshotEnabled unread
  · exact known read.ragK unread

theorem read_of_readable (readable : ¬ Refused jackson d) : ∃ req, Read jackson d req := by
  obtain ⟨texts, flags, ragK⟩ : (∀ key ∈ _, ¬ Unread d key jackson.text) ∧
      (∀ flag ∈ flags, ¬ Unread d flag.1 jackson.flag) ∧ ¬ Unread d "rag_k" jackson.int := by
    simpa only [Refused, not_or, not_exists, not_and] using readable
  have known {α : Type} {key : String} {reader : Json → Option α} (initial : α)
      (given : ¬ Unread d key reader) : ∃ a, field d key initial reader = some a :=
    Option.ne_none_iff_exists'.mp (mt field_none_iff.mp given)
  have flag (key : String) (initial : Bool) (member : (key, initial) ∈ RequestParity.flags) :
      ∃ a, field d key none jackson.flag = some a := known none (flags _ member)
  obtain ⟨question, readQuestion⟩ := known none (texts "question" (by simp))
  obtain ⟨databaseUrl, readDatabaseUrl⟩ := known none (texts "database_url" (by simp))
  obtain ⟨dbId, readDbId⟩ := known none (texts "db_id" (by simp))
  obtain ⟨idempotencyKey, readIdempotencyKey⟩ := known none (texts "idempotency_key" (by simp))
  obtain ⟨ragSchema, readRagSchema⟩ := flag "rag_schema" true (by simp [RequestParity.flags])
  obtain ⟨ragDomain, readRagDomain⟩ := flag "rag_domain" true (by simp [RequestParity.flags])
  obtain ⟨multiCandidate, readMultiCandidate⟩ :=
    flag "multi_candidate" true (by simp [RequestParity.flags])
  obtain ⟨ragColumnPrune, readRagColumnPrune⟩ :=
    flag "rag_column_prune" false (by simp [RequestParity.flags])
  obtain ⟨ragHybrid, readRagHybrid⟩ := flag "rag_hybrid" true (by simp [RequestParity.flags])
  obtain ⟨ragFkExpand, readRagFkExpand⟩ := flag "rag_fk_expand" true (by simp [RequestParity.flags])
  obtain ⟨fewshotEnabled, readFewshotEnabled⟩ :=
    flag "fewshot_enabled" true (by simp [RequestParity.flags])
  obtain ⟨ragK, readRagK⟩ := known none ragK
  obtain ⟨llm, readLlm⟩ := JavaTaskState.any_accepts d "llm" .null
  exact ⟨⟨⟨question, dbId, databaseUrl, idempotencyKey⟩, ragSchema, ragDomain, multiCandidate, ragK,
      ragColumnPrune, ragHybrid, ragFkExpand, fewshotEnabled, llm⟩,
    ⟨readQuestion, readRagSchema, readRagDomain, readMultiCandidate, readRagK, readRagColumnPrune,
      readRagHybrid, readRagFkExpand, readFewshotEnabled, readDatabaseUrl, readDbId, readLlm,
      readIdempotencyKey⟩⟩

/-- Every field of the request as Pydantic validates it. -/
structure Valid (pydantic : Pydantic) (d : Doc) (req : TaskSubmitRequest) : Prop where
  question : required d "question" (sized 1 2000 pydantic.text) = some req.question
  ragSchema : field d "rag_schema" true pydantic.flag = some req.ragSchema
  ragDomain : field d "rag_domain" true pydantic.flag = some req.ragDomain
  multiCandidate : field d "multi_candidate" true pydantic.flag = some req.multiCandidate
  ragK : field d "rag_k" 8 (ranged 1 50 pydantic.int) = some req.ragK
  ragColumnPrune : field d "rag_column_prune" false pydantic.flag = some req.ragColumnPrune
  ragHybrid : field d "rag_hybrid" true pydantic.flag = some req.ragHybrid
  ragFkExpand : field d "rag_fk_expand" true pydantic.flag = some req.ragFkExpand
  fewshotEnabled : field d "fewshot_enabled" true pydantic.flag = some req.fewshotEnabled
  databaseUrl : field d "database_url" none (nullable pydantic.text) = some req.databaseUrl
  dbId : field d "db_id" none (nullable pydantic.text) = some req.dbId
  llm : field d "llm" none (nullable (readLLMConfig pydantic)) = some req.llm
  idempotencyKey :
    field d "idempotency_key" none (nullable (sized 0 128 pydantic.text)) = some req.idempotencyKey

theorem readTaskSubmit_valid {body : Json} {req : TaskSubmitRequest} (opened : object body = some d)
    (reading : readTaskSubmit pydantic body = some req) : Valid pydantic d req := by
  obtain ⟨d', opened', reading⟩ := Option.bind_eq_some_iff.mp reading
  obtain rfl : d = d' := Option.some.inj (opened.symm.trans opened')
  obtain ⟨question, readQuestion, reading⟩ := Option.bind_eq_some_iff.mp reading
  obtain ⟨ragSchema, readRagSchema, reading⟩ := Option.bind_eq_some_iff.mp reading
  obtain ⟨ragDomain, readRagDomain, reading⟩ := Option.bind_eq_some_iff.mp reading
  obtain ⟨multiCandidate, readMultiCandidate, reading⟩ := Option.bind_eq_some_iff.mp reading
  obtain ⟨ragK, readRagK, reading⟩ := Option.bind_eq_some_iff.mp reading
  obtain ⟨ragColumnPrune, readRagColumnPrune, reading⟩ := Option.bind_eq_some_iff.mp reading
  obtain ⟨ragHybrid, readRagHybrid, reading⟩ := Option.bind_eq_some_iff.mp reading
  obtain ⟨ragFkExpand, readRagFkExpand, reading⟩ := Option.bind_eq_some_iff.mp reading
  obtain ⟨fewshotEnabled, readFewshotEnabled, reading⟩ := Option.bind_eq_some_iff.mp reading
  obtain ⟨databaseUrl, readDatabaseUrl, reading⟩ := Option.bind_eq_some_iff.mp reading
  obtain ⟨dbId, readDbId, reading⟩ := Option.bind_eq_some_iff.mp reading
  obtain ⟨llm, readLlm, reading⟩ := Option.bind_eq_some_iff.mp reading
  obtain ⟨idempotencyKey, readIdempotencyKey, reading⟩ := Option.bind_eq_some_iff.mp reading
  obtain rfl := Option.some.inj reading
  exact ⟨readQuestion, readRagSchema, readRagDomain, readMultiCandidate, readRagK, readRagColumnPrune,
    readRagHybrid, readRagFkExpand, readFewshotEnabled, readDatabaseUrl, readDbId, readLlm,
    readIdempotencyKey⟩

theorem Valid.readTaskSubmit {body : Json} {req : TaskSubmitRequest} (opened : object body = some d)
    (valid : Valid pydantic d req) : readTaskSubmit pydantic body = some req := by
  refine Option.bind_eq_some_iff.mpr ⟨d, opened, ?_⟩
  simp only [taskSubmitFields, valid.question, valid.ragSchema, valid.ragDomain, valid.multiCandidate,
    valid.ragK, valid.ragColumnPrune, valid.ragHybrid, valid.ragFkExpand, valid.fewshotEnabled,
    valid.databaseUrl, valid.dbId, valid.llm, valid.idempotencyKey, Option.bind_eq_bind,
    Option.bind_some, Option.pure_def]

theorem nullable_iff {read : Json → Option α} {value : Json} :
    (∃ a, nullable read value = some a) ↔ value = .null ∨ ∃ a, read value = some a := by
  unfold nullable
  by_cases null : value = .null <;> simp [null]

theorem ranged_iff {least most n : Int} {read : Json → Option Int} {value : Json} :
    ranged least most read value = some n ↔ read value = some n ∧ least ≤ n ∧ n ≤ most := by
  simp only [ranged, Option.bind_eq_bind, Option.bind_eq_some_iff, guard_iff]
  constructor
  · rintro ⟨m, given, _, bounds, same⟩
    obtain rfl := Option.some.inj same
    exact ⟨given, bounds⟩
  · rintro ⟨given, bounds⟩
    exact ⟨n, given, (), bounds, rfl⟩

section Constraints

variable (documented : pydantic.Documented)
include documented

theorem sized_iff {least most : Nat} {value : Json} {s : String} :
    sized least most pydantic.text value = some s ↔
      value = .str s ∧ least ≤ s.length ∧ s.length ≤ most := by
  simp only [sized, Option.bind_eq_bind, Option.bind_eq_some_iff, documented.text_iff, guard_iff]
  constructor
  · rintro ⟨t, rfl, _, bounds, same⟩
    obtain rfl := Option.some.inj same
    exact ⟨rfl, bounds⟩
  · rintro ⟨rfl, bounds⟩
    exact ⟨s, rfl, (), bounds, rfl⟩

theorem required_iff {least most : Nat} {s : String} :
    required d key (sized least most pydantic.text) = some s ↔
      d.lookup key = some (.str s) ∧ least ≤ s.length ∧ s.length ≤ most := by
  simp only [required, Option.bind_eq_bind, Option.bind_eq_some_iff, sized_iff documented]
  constructor
  · rintro ⟨value, found, rfl, bounds⟩
    exact ⟨found, bounds⟩
  · rintro ⟨found, bounds⟩
    exact ⟨.str s, found, rfl, bounds⟩

theorem text_given_iff {key : String} :
    (∃ a, field d key none (nullable pydantic.text) = some a) ↔ Given d key TextOrNull := by
  simp only [given_iff, nullable_iff, documented.text_iff]
  exact Iff.rfl

theorem readLLMConfig_iff {value : Json} :
    (∃ config, readLLMConfig pydantic value = some config) ↔
      ∃ fields, value = .obj fields ∧
        ∀ key ∈ ["model","api_key","base_url"], Given (Doc.ofFields fields) key TextOrNull := by
  constructor
  · rintro ⟨config, reading⟩
    simp only [readLLMConfig, Option.bind_eq_bind, Option.bind_eq_some_iff] at reading
    obtain ⟨d, opened, model, readModel, apiKey, readApiKey, baseUrl, readBaseUrl, -⟩ := reading
    cases value with
    | obj fields =>
      obtain rfl := Option.some.inj opened
      refine ⟨fields, rfl, fun key member => ?_⟩
      simp only [List.mem_cons, List.not_mem_nil, or_false] at member
      rcases member with rfl | rfl | rfl
      · exact (text_given_iff documented).mp ⟨model, readModel⟩
      · exact (text_given_iff documented).mp ⟨apiKey, readApiKey⟩
      · exact (text_given_iff documented).mp ⟨baseUrl, readBaseUrl⟩
    | _ => exact nomatch opened
  · rintro ⟨fields, rfl, given⟩
    obtain ⟨model, readModel⟩ := (text_given_iff documented).mpr (given "model" (by simp))
    obtain ⟨apiKey, readApiKey⟩ := (text_given_iff documented).mpr (given "api_key" (by simp))
    obtain ⟨baseUrl, readBaseUrl⟩ := (text_given_iff documented).mpr (given "base_url" (by simp))
    exact ⟨⟨model, apiKey, baseUrl⟩, by simp [readLLMConfig, object, readModel, readApiKey, readBaseUrl]⟩

theorem Valid.declared {req : TaskSubmitRequest} (valid : Valid pydantic d req) :
    Declared pydantic d where
  question := ⟨req.question, (required_iff documented).mp valid.question⟩
  flags := by
    intro flag member
    simp only [RequestParity.flags, List.mem_cons, List.not_mem_nil, or_false] at member
    rcases member with rfl | rfl | rfl | rfl | rfl | rfl | rfl
    · exact given_iff.mp ⟨_, valid.ragSchema⟩
    · exact given_iff.mp ⟨_, valid.ragDomain⟩
    · exact given_iff.mp ⟨_, valid.multiCandidate⟩
    · exact given_iff.mp ⟨_, valid.ragColumnPrune⟩
    · exact given_iff.mp ⟨_, valid.ragHybrid⟩
    · exact given_iff.mp ⟨_, valid.ragFkExpand⟩
    · exact given_iff.mp ⟨_, valid.fewshotEnabled⟩
  ragK := by simpa only [ranged_iff] using given_iff.mp ⟨_, valid.ragK⟩
  databaseUrl := (text_given_iff documented).mp ⟨_, valid.databaseUrl⟩
  dbId := (text_given_iff documented).mp ⟨_, valid.dbId⟩
  llm := by
    simpa only [nullable_iff, readLLMConfig_iff documented] using given_iff.mp ⟨_, valid.llm⟩
  idempotencyKey := by
    simpa only [nullable_iff, sized_iff documented, Nat.zero_le, true_and] using
      given_iff.mp ⟨_, valid.idempotencyKey⟩

theorem Declared.valid (declared : Declared pydantic d) : ∃ req, Valid pydantic d req := by
  have flag (key : String) (initial : Bool) (member : (key, initial) ∈ RequestParity.flags) :
      ∃ b, field d key initial pydantic.flag = some b := given_iff.mpr (declared.flags _ member)
  obtain ⟨question, bounded⟩ := declared.question
  have readQuestion := (required_iff documented).mpr bounded
  obtain ⟨ragSchema, readRagSchema⟩ := flag "rag_schema" true (by simp [RequestParity.flags])
  obtain ⟨ragDomain, readRagDomain⟩ := flag "rag_domain" true (by simp [RequestParity.flags])
  obtain ⟨multiCandidate, readMultiCandidate⟩ :=
    flag "multi_candidate" true (by simp [RequestParity.flags])
  obtain ⟨ragColumnPrune, readRagColumnPrune⟩ :=
    flag "rag_column_prune" false (by simp [RequestParity.flags])
  obtain ⟨ragHybrid, readRagHybrid⟩ := flag "rag_hybrid" true (by simp [RequestParity.flags])
  obtain ⟨ragFkExpand, readRagFkExpand⟩ := flag "rag_fk_expand" true (by simp [RequestParity.flags])
  obtain ⟨fewshotEnabled, readFewshotEnabled⟩ :=
    flag "fewshot_enabled" true (by simp [RequestParity.flags])
  obtain ⟨ragK, readRagK⟩ : ∃ n, field d "rag_k" 8 (ranged 1 50 pydantic.int) = some n := by
    simpa only [given_iff, ranged_iff] using declared.ragK
  obtain ⟨databaseUrl, readDatabaseUrl⟩ := (text_given_iff documented).mpr declared.databaseUrl
  obtain ⟨dbId, readDbId⟩ := (text_given_iff documented).mpr declared.dbId
  obtain ⟨llm, readLlm⟩ : ∃ c, field d "llm" none (nullable (readLLMConfig pydantic)) = some c := by
    simpa only [given_iff, nullable_iff, readLLMConfig_iff documented] using declared.llm
  obtain ⟨idempotencyKey, readIdempotencyKey⟩ :
      ∃ k, field d "idempotency_key" none (nullable (sized 0 128 pydantic.text)) = some k := by
    simpa only [given_iff, nullable_iff, sized_iff documented, Nat.zero_le, true_and] using
      declared.idempotencyKey
  exact ⟨⟨question, ragSchema, ragDomain, multiCandidate, ragK, ragColumnPrune, ragHybrid, ragFkExpand,
      fewshotEnabled, databaseUrl, dbId, llm, idempotencyKey⟩,
    ⟨readQuestion, readRagSchema, readRagDomain, readMultiCandidate, readRagK, readRagColumnPrune,
      readRagHybrid, readRagFkExpand, readFewshotEnabled, readDatabaseUrl, readDbId, readLlm,
      readIdempotencyKey⟩⟩

end Constraints

theorem text_alike {read : Json → Option String} {t : Option String} (documented : jackson.Documented)
    (strings : ∀ value s, read value = some s → value = .str s)
    (given : field d key none (nullable read) = some t) : field d key none jackson.text = some t := by
  rcases field_some_iff.mp given with ⟨absent, rfl⟩ | ⟨value, found, accepted⟩
  · exact field_some_iff.mpr (.inl ⟨absent, rfl⟩)
  · refine field_some_iff.mpr (.inr ⟨value, found, ?_⟩)
    by_cases null : value = .null
    · rw [nullable, if_pos null] at accepted
      rw [null, documented.text_null, accepted]
    · rw [nullable, if_neg null] at accepted
      obtain ⟨s, reading, rfl⟩ := Option.map_eq_some_iff.mp accepted
      rw [strings value s reading, documented.text_str]

theorem alike_iff {initial b : α} {plain : Json → Prop} {read : Json → Option (Option α)}
    {read' : Json → Option α}
    (same : ∀ value, d.lookup key = some value → plain value →
      (read value).map (·.getD initial) = read' value)
    (given : field d key initial read' = some b) :
    (Given d key fun value => plain value ∨ (read value).map (·.getD initial) = read' value) ↔
      ∃ x, field d key none read = some x ∧ x.getD initial = b := by
  rcases field_some_iff.mp given with ⟨absent, rfl⟩ | ⟨value, found, accepted⟩
  · simp [Given, field, absent]
  · have alike : (read value).map (·.getD initial) = read' value ↔
        ∃ x, read value = some x ∧ x.getD initial = b := by
      rw [accepted, Option.map_eq_some_iff]
    simp only [Given, field, found, Option.some.injEq, forall_eq', ← alike]
    exact or_iff_right_of_imp (same value found)

end Reading

section Endpoints

variable {jackson : Jackson} {pydantic : Pydantic} {d : Doc} {body : Json}

/-- The gateway publishes what the API publishes if it reads the flags and `rag_k` alike. -/
theorem payload_alike_iff {req : SubmitRequest} {valid : TaskSubmitRequest} {question : String}
    (same : req.question = some question ∧ question = valid.question ∧ req.dbId = valid.dbId ∧
      req.databaseUrl = valid.databaseUrl) :
    req.payload question = valid.payload ↔
      req.ragSchema.getD true = valid.ragSchema ∧ req.ragDomain.getD true = valid.ragDomain ∧
      req.multiCandidate.getD true = valid.multiCandidate ∧ req.ragK.getD 8 = valid.ragK ∧
      req.ragColumnPrune.getD false = valid.ragColumnPrune ∧ req.ragHybrid.getD true = valid.ragHybrid ∧
      req.ragFkExpand.getD true = valid.ragFkExpand ∧
      req.fewshotEnabled.getD true = valid.fewshotEnabled := by
  obtain ⟨-, asked, dbId, databaseUrl⟩ := same
  simp [SubmitRequest.payload, TaskSubmitRequest.payload, asked, dbId, databaseUrl]

variable (jacksonDocumented : jackson.Documented) (pydanticDocumented : pydantic.Documented)
include jacksonDocumented

theorem flag_alike_iff (pydanticDocumented : pydantic.Documented) {key : String} {initial b : Bool}
    (given : field d key initial pydantic.flag = some b) :
    FlagAlike jackson pydantic d (key, initial) ↔
      ∃ x, field d key none jackson.flag = some x ∧ x.getD initial = b := by
  refine alike_iff (fun value _ plain => ?_) given
  obtain ⟨c, rfl⟩ := plain
  rw [jacksonDocumented.flag_bool, pydanticDocumented.flag_bool]
  rfl

theorem ragK_alike_iff (pydanticDocumented : pydantic.Documented) {n : Int}
    (given : field d "rag_k" 8 (ranged 1 50 pydantic.int) = some n) :
    RagKAlike jackson pydantic d ↔
      ∃ x, field d "rag_k" none jackson.int = some x ∧ x.getD 8 = n := by
  rcases field_some_iff.mp given with ⟨absent, rfl⟩ | ⟨value, found, accepted⟩
  · exact alike_iff (fun value found _ => by simp [absent] at found)
      (field_some_iff.mpr (.inl ⟨absent, rfl⟩))
  · obtain ⟨reading, least, most⟩ := ranged_iff.mp accepted
    refine alike_iff (fun value' found' plain => ?_) (field_some_iff.mpr (.inr ⟨value, found, reading⟩))
    obtain rfl : value = value' := Option.some.inj (found.symm.trans found')
    obtain ⟨m, rfl⟩ := plain
    rw [pydanticDocumented.int_int] at reading ⊢
    obtain rfl := Option.some.inj reading
    have fits : JavaTaskState.isInt m = true := by
      simp only [JavaTaskState.isInt, decide_eq_true_eq]
      omega
    rw [jacksonDocumented.int_int m fits]
    rfl

include pydanticDocumented

theorem texts_alike {valid : TaskSubmitRequest} (accepted : Valid pydantic d valid) :
    field d "question" none jackson.text = some (some valid.question) ∧
      field d "db_id" none jackson.text = some valid.dbId ∧
      field d "database_url" none jackson.text = some valid.databaseUrl ∧
      field d "idempotency_key" none jackson.text = some valid.idempotencyKey := by
  refine ⟨?_, ?_, ?_, ?_⟩
  · obtain ⟨found, -⟩ := (required_iff pydanticDocumented).mp accepted.question
    exact field_some_iff.mpr (.inr ⟨_, found, jacksonDocumented.text_str _⟩)
  · exact text_alike jacksonDocumented (fun v s => (pydanticDocumented.text_iff v s).mp) accepted.dbId
  · exact text_alike jacksonDocumented (fun v s => (pydanticDocumented.text_iff v s).mp)
      accepted.databaseUrl
  · exact text_alike jacksonDocumented (fun v s given => ((sized_iff pydanticDocumented).mp given).1)
      accepted.idempotencyKey

theorem accepted_alike_iff {policy : GatewaySubmit.Policy} {valid : TaskSubmitRequest}
    (opened : object body = some d) (accepted : Valid pydantic d valid) :
    gatewaySubmit jackson policy body = .accepted valid.payload ↔
      body.strict = true ∧ ¬ Forbidden jackson d policy ∧
        (∀ flag ∈ flags, FlagAlike jackson pydantic d flag) ∧ RagKAlike jackson pydantic d := by
  obtain ⟨question, dbId, databaseUrl, idempotencyKey⟩ :=
    texts_alike jacksonDocumented pydanticDocumented accepted
  have flag {key : String} {initial b : Bool} (given : field d key initial pydantic.flag = some b) :=
    flag_alike_iff jacksonDocumented pydanticDocumented given
  have ragK := ragK_alike_iff jacksonDocumented pydanticDocumented accepted.ragK
  constructor
  · intro sent
    unfold gatewaySubmit at sent
    cases reading : readSubmit jackson body with
    | none => simp [reading] at sent
    | some req =>
      obtain ⟨strict, read⟩ := readSubmit_read opened reading
      have sameDbId : req.dbId = valid.dbId := Option.some.inj (read.dbId.symm.trans dbId)
      have sameQuestion : req.question = some valid.question :=
        Option.some.inj (read.question.symm.trans question)
      have sameUrl : req.databaseUrl = valid.databaseUrl :=
        Option.some.inj (read.databaseUrl.symm.trans databaseUrl)
      rw [reading] at sent
      by_cases allowed : GatewaySubmit.dbAllowed policy req.dbId = true
      · simp only [allowed, if_true, sameQuestion, Outcome.accepted.injEq] at sent
        obtain ⟨ragSchema, ragDomain, multiCandidate, sameK, ragColumnPrune, ragHybrid, ragFkExpand,
          fewshotEnabled⟩ := (payload_alike_iff ⟨sameQuestion, rfl, sameDbId, sameUrl⟩).mp sent
        refine ⟨strict, ?_, fun f member => ?_, ragK.mpr ⟨_, read.ragK, sameK⟩⟩
        · rintro ⟨other, readDbId, refused⟩
          obtain rfl : req.dbId = other := Option.some.inj (read.dbId.symm.trans readDbId)
          rw [allowed] at refused
          contradiction
        · simp only [flags, List.mem_cons, List.not_mem_nil, or_false] at member
          rcases member with rfl | rfl | rfl | rfl | rfl | rfl | rfl
          · exact (flag accepted.ragSchema).mpr ⟨_, read.ragSchema, ragSchema⟩
          · exact (flag accepted.ragDomain).mpr ⟨_, read.ragDomain, ragDomain⟩
          · exact (flag accepted.multiCandidate).mpr ⟨_, read.multiCandidate, multiCandidate⟩
          · exact (flag accepted.ragColumnPrune).mpr ⟨_, read.ragColumnPrune, ragColumnPrune⟩
          · exact (flag accepted.ragHybrid).mpr ⟨_, read.ragHybrid, ragHybrid⟩
          · exact (flag accepted.ragFkExpand).mpr ⟨_, read.ragFkExpand, ragFkExpand⟩
          · exact (flag accepted.fewshotEnabled).mpr ⟨_, read.fewshotEnabled, fewshotEnabled⟩
      · simp [allowed] at sent
  · rintro ⟨strict, permitted, alike, sameK⟩
    obtain ⟨ragSchema, readRagSchema, sameRagSchema⟩ :=
      (flag accepted.ragSchema).mp (alike _ (by simp [flags]))
    obtain ⟨ragDomain, readRagDomain, sameRagDomain⟩ :=
      (flag accepted.ragDomain).mp (alike _ (by simp [flags]))
    obtain ⟨multiCandidate, readMultiCandidate, sameMultiCandidate⟩ :=
      (flag accepted.multiCandidate).mp (alike _ (by simp [flags]))
    obtain ⟨ragColumnPrune, readRagColumnPrune, sameRagColumnPrune⟩ :=
      (flag accepted.ragColumnPrune).mp (alike _ (by simp [flags]))
    obtain ⟨ragHybrid, readRagHybrid, sameRagHybrid⟩ :=
      (flag accepted.ragHybrid).mp (alike _ (by simp [flags]))
    obtain ⟨ragFkExpand, readRagFkExpand, sameRagFkExpand⟩ :=
      (flag accepted.ragFkExpand).mp (alike _ (by simp [flags]))
    obtain ⟨fewshotEnabled, readFewshotEnabled, sameFewshotEnabled⟩ :=
      (flag accepted.fewshotEnabled).mp (alike _ (by simp [flags]))
    obtain ⟨k, readRagK, sameRagK⟩ := ragK.mp sameK
    obtain ⟨llm, readLlm⟩ := JavaTaskState.any_accepts d "llm" .null
    let req : SubmitRequest := ⟨⟨some valid.question, valid.dbId, valid.databaseUrl,
      valid.idempotencyKey⟩, ragSchema, ragDomain, multiCandidate, k, ragColumnPrune, ragHybrid,
      ragFkExpand, fewshotEnabled, llm⟩
    have read : Read jackson d req := ⟨question, readRagSchema, readRagDomain, readMultiCandidate,
      readRagK, readRagColumnPrune, readRagHybrid, readRagFkExpand, readFewshotEnabled, databaseUrl,
      dbId, readLlm, idempotencyKey⟩
    have allowed : GatewaySubmit.dbAllowed policy valid.dbId = true := by
      by_contra refused
      exact permitted ⟨valid.dbId, dbId, Bool.eq_false_iff.mpr refused⟩
    have same : req.payload valid.question = valid.payload :=
      (payload_alike_iff ⟨rfl, rfl, rfl, rfl⟩).mpr ⟨sameRagSchema, sameRagDomain, sameMultiCandidate,
        sameRagK, sameRagColumnPrune, sameRagHybrid, sameRagFkExpand, sameFewshotEnabled⟩
    rw [gatewaySubmit, read.readSubmit opened strict]
    simp only [req, allowed, if_true]
    exact congrArg Outcome.accepted same

omit jacksonDocumented pydanticDocumented in
theorem rejected_iff {policy : GatewaySubmit.Policy} (opened : object body = some d) :
    gatewaySubmit jackson policy body = .rejected ↔
      body.strict = false ∨ Refused jackson d ∨ Forbidden jackson d policy := by
  unfold gatewaySubmit
  cases reading : readSubmit jackson body with
  | none =>
    have unread : body.strict = false ∨ Refused jackson d := by
      by_contra fine
      obtain ⟨strict, readable⟩ := not_or.mp fine
      obtain ⟨req, read⟩ := read_of_readable readable
      rw [read.readSubmit opened (by simpa using strict)] at reading
      contradiction
    simp only [true_iff]
    exact unread.imp_right .inl
  | some req =>
    obtain ⟨strict, read⟩ := readSubmit_read opened reading
    have forbidden : Forbidden jackson d policy ↔ ¬ GatewaySubmit.dbAllowed policy req.dbId = true := by
      simp [Forbidden, read.dbId]
    simp only [strict, read.readable, forbidden, Bool.true_eq_false, false_or]
    by_cases allowed : GatewaySubmit.dbAllowed policy req.dbId = true
    · cases req.question <;> simp [allowed]
    · simp [allowed]

theorem submit_alike_iff (policy : GatewaySubmit.Policy) (body : Json) :
    Alike (gatewaySubmit jackson policy body) (taskSubmit pydantic body) ↔
      SubmitAlike jackson pydantic policy body := by
  cases opened : object body with
  | none => simp [Alike, gatewaySubmit, taskSubmit, readSubmit, readTaskSubmit, SubmitAlike, opened]
  | some d =>
    simp only [SubmitAlike, opened]
    by_cases declared : Declared pydantic d
    · obtain ⟨valid, accepted⟩ := declared.valid pydanticDocumented
      have api : taskSubmit pydantic body = .accepted valid.payload := by
        rw [taskSubmit, accepted.readTaskSubmit opened]
      simp only [Alike, api, reduceCtorEq, and_false, false_or, Outcome.accepted.injEq, declared,
        true_and, not_true_eq_false, false_and, or_false]
      rw [← accepted_alike_iff jacksonDocumented pydanticDocumented opened accepted]
      constructor
      · rintro ⟨payload, sent, rfl⟩
        exact sent
      · exact fun sent => ⟨_, sent, rfl⟩
    · have api : taskSubmit pydantic body = .rejected := by
        unfold taskSubmit
        cases reading : readTaskSubmit pydantic body with
        | none => rfl
        | some valid =>
          exact absurd ((readTaskSubmit_valid opened reading).declared pydanticDocumented) declared
      simp only [Alike, api, reduceCtorEq, and_true, and_false, exists_false, or_false, declared,
        false_and, not_false_eq_true, true_and, false_or]
      exact rejected_iff opened

end Endpoints

section Feedback

variable {jackson : Jackson} {pydantic : Pydantic} {mayAct : Bool} {stored : Option Doc} {body : Json}

theorem gatewayFeedback_some_iff {published : Json} :
    gatewayFeedback jackson mayAct stored body = some published ↔
      (mayAct = true ∧ body.strict = true ∧ gatewayOpen stored = true) ∧
        ∃ d feedback, object body = some d ∧ field d "feedback" none jackson.text = some feedback ∧
          published = TaskStore.text feedback := by
  simp only [gatewayFeedback, Option.bind_eq_bind, Option.bind_eq_some_iff, guard_iff, gatewayOpen]
  constructor
  · rintro ⟨d, opened, _, strict, feedback, reading, _, may, s, decoded, _, status, _, turns, same⟩
    have turns : JavaTaskState.turnCount s < JavaTaskState.feedbackMaxTurns := turns
    obtain rfl := Option.some.inj same
    refine ⟨⟨may, strict, ?_⟩, d, feedback, opened, reading, rfl⟩
    rw [Option.bind_eq_some_iff.mpr decoded]
    simp [status, turns]
  · rintro ⟨⟨may, strict, taken⟩, d, feedback, opened, reading, rfl⟩
    obtain ⟨s, decoded, accepted⟩ := (Option.any_eq_true _ _).mp taken
    obtain ⟨status, turns⟩ := of_decide_eq_true accepted
    exact ⟨d, opened, (), strict, feedback, reading, (), may, s, Option.bind_eq_some_iff.mp decoded,
      (), status, (), turns, rfl⟩

theorem taskFeedback_some_iff (documented : pydantic.Documented) {published : Json} :
    taskFeedback pydantic stored body = some published ↔
      apiOpen stored = true ∧ ∃ d s, object body = some d ∧ d.lookup "feedback" = some (.str s) ∧
        (1 ≤ s.length ∧ s.length ≤ 2000) ∧ published = .str s := by
  have ended (status : Option Json) :
      status.getD (.str "") = .str "SUCCESS" ∨ status.getD (.str "") = .str "FAILED" ↔
        status = some (.str "SUCCESS") ∨ status = some (.str "FAILED") := by
    cases status <;> simp
  simp only [taskFeedback, Option.bind_eq_bind, Option.bind_eq_some_iff, required_iff documented,
    guard_iff, ended]
  constructor
  · rintro ⟨d, opened, s, ⟨found, bounds⟩, state, rfl, _, status, turns, counted, _, few, same⟩
    have few : turns < JavaTaskState.feedbackMaxTurns := few
    obtain rfl := Option.some.inj same
    refine ⟨?_, d, s, opened, found, bounds, rfl⟩
    simp [apiOpen, status, counted, few]
  · rintro ⟨taken, d, s, opened, found, bounds, rfl⟩
    cases stored with
    | none => exact nomatch taken
    | some state =>
      obtain ⟨status, counted⟩ := of_decide_eq_true taken
      obtain ⟨turns, counted, few⟩ := (Option.any_eq_true _ _).mp counted
      exact ⟨d, opened, s, ⟨found, bounds⟩, state, rfl, (), status, turns, counted, (),
        of_decide_eq_true few, rfl⟩

/-- The two feedback endpoints agree on a body and a stored state exactly under
`FeedbackAlike`. -/
theorem feedback_alike_iff (jacksonDocumented : jackson.Documented)
    (pydanticDocumented : pydantic.Documented) (mayAct : Bool) (stored : Option Doc) (body : Json) :
    gatewayFeedback jackson mayAct stored body = taskFeedback pydantic stored body ↔
      FeedbackAlike jackson mayAct stored body := by
  have gateway : (∃ published, gatewayFeedback jackson mayAct stored body = some published) ↔
      Admitted jackson mayAct body ∧ gatewayOpen stored = true := by
    simp only [gatewayFeedback_some_iff, Admitted]
    constructor
    · rintro ⟨_, ⟨may, strict, taken⟩, d, feedback, opened, reading, -⟩
      refine ⟨⟨may, strict, d, opened, ?_⟩, taken⟩
      rw [← field_none_iff (α := Option String), reading]
      exact Option.some_ne_none _
    · rintro ⟨⟨may, strict, d, opened, readable⟩, taken⟩
      obtain ⟨feedback, reading⟩ := Option.ne_none_iff_exists'.mp
        (mt (field_none_iff (α := Option String)).mp readable)
      exact ⟨_, ⟨may, strict, taken⟩, d, feedback, opened, reading, rfl⟩
  have api : (∃ published, taskFeedback pydantic stored body = some published) ↔
      FeedbackDeclared body ∧ apiOpen stored = true := by
    simp only [taskFeedback_some_iff pydanticDocumented, FeedbackDeclared]
    constructor
    · rintro ⟨_, taken, d, s, opened, found, bounds, -⟩
      exact ⟨⟨d, s, opened, found, bounds⟩, taken⟩
    · rintro ⟨⟨d, s, opened, found, bounds⟩, taken⟩
      exact ⟨_, taken, d, s, opened, found, bounds, rfl⟩
  have texts {published published' : Json}
      (sent : gatewayFeedback jackson mayAct stored body = some published)
      (sent' : taskFeedback pydantic stored body = some published') : published = published' := by
    obtain ⟨-, d, feedback, opened, reading, rfl⟩ := gatewayFeedback_some_iff.mp sent
    obtain ⟨-, d', s, opened', found, -, rfl⟩ := (taskFeedback_some_iff pydanticDocumented).mp sent'
    obtain rfl : d = d' := Option.some.inj (opened.symm.trans opened')
    have same : feedback = some s := by
      simpa [field, found, jacksonDocumented.text_str, eq_comm] using reading
    rw [same, TaskStore.text]
  have accept : gatewayFeedback jackson mayAct stored body = taskFeedback pydantic stored body ↔
      ((∃ published, gatewayFeedback jackson mayAct stored body = some published) ↔
        ∃ published, taskFeedback pydantic stored body = some published) := by
    constructor
    · intro same
      rw [same]
    · intro alike
      cases sent : gatewayFeedback jackson mayAct stored body with
      | none =>
        cases sent' : taskFeedback pydantic stored body with
        | none => rfl
        | some published => simp [sent, sent'] at alike
      | some published =>
        obtain ⟨published', sent'⟩ := alike.mp ⟨published, sent⟩
        rw [sent', texts sent sent']
  rw [accept, gateway, api, FeedbackAlike]
  cases apiOpen stored <;> cases gatewayOpen stored <;> simp [iff_comm]

end Feedback

section Stored

variable {d : Doc}

/-- The turns are a list, or the empty object of a task that the gateway created. -/
def Listed (d : Doc) : Prop :=
  Given d "conversation_turns" fun value => value = .obj [] ∨ ∃ items, value = .arr items

theorem listed_encode {s : JavaTaskState.TaskState}
    (turns : s.conversationTurns = .obj [] ∨ ∃ items, s.conversationTurns = .arr items) :
    Listed (JavaTaskState.encode s) := by
  intro value found
  have member : ("conversation_turns", s.conversationTurns) ∈
      JavaTaskState.baseFields s ++ JavaTaskState.cacheField s := by
    simp [JavaTaskState.baseFields]
  rw [JavaTaskState.encode_lookup member] at found
  obtain rfl := Option.some.inj found
  exact turns

theorem listed_written (written : JavaTaskState.Written d) : Listed d := by
  induction written with
  | submitted taskId question dbId databaseUrl now =>
    intro value found
    rcases Doc.lookup_update_cases ∅ _ _ value found with member | ⟨-, old⟩
    · simp at member
    · simp at old
  | created => exact listed_encode (.inl rfl)
  | cached => exact listed_encode (.inl rfl)
  | worker d write now _ ih =>
    intro value found
    rcases Doc.lookup_update_cases d _ _ value found with member | ⟨-, old⟩
    · cases write with
      | feedbackDone =>
        simp [TaskStore.Write.fields] at member
        exact .inr ⟨_, member⟩
      | ended status error => cases error <;> simp [TaskStore.Write.fields] at member
      | _ => simp [TaskStore.Write.fields] at member
    · exact ih value old
  | gateway d d' operation now _ applied ih =>
    have kept {s : JavaTaskState.TaskState} (decoded : JavaTaskState.decode d = some s) :
        s.conversationTurns = .obj [] ∨ ∃ items, s.conversationTurns = .arr items := by
      cases (JavaTaskState.decode_decoded decoded).conversationTurns with
      | missing _ same => exact .inl same
      | present value found same =>
        obtain rfl := Option.some.inj same
        exact ih _ found
    cases JavaTaskState.apply_saved applied with
    | feedback s now decoded =>
      have turns := kept decoded
      exact listed_encode turns
    | scanStale s now decoded =>
      have turns := kept decoded
      exact listed_encode turns

/-- A stored state that holds no number that is no JSON takes feedback on both sides or on
neither. -/
theorem open_alike (written : JavaTaskState.Written d) (strict : d.strict = true) :
    gatewayOpen (some d) = apiOpen (some d) := by
  obtain ⟨s, decoded⟩ := JavaTaskState.shaped_decodes (JavaTaskState.written_shaped written) strict
  have fields := JavaTaskState.decode_decoded decoded
  have status (t : String) : s.status = some t ↔ d.lookup "status" = some (.str t) := by
    cases fields.status with
    | missing absent same => simp [absent, same]
    | present value found accepted =>
      rw [found, ← JavaTaskState.readText_inverse accepted]
      cases s.status <;> simp [TaskStore.text]
  have turns : turnsLength d = some (JavaTaskState.turnCount s) := by
    cases fields.conversationTurns with
    | missing absent same => simp [turnsLength, absent, JavaTaskState.turnCount, same]
    | present value found same =>
      obtain rfl := Option.some.inj same
      rcases listed_written written _ found with empty | ⟨items, list⟩
      · simp [turnsLength, found, JavaTaskState.turnCount, empty, Doc.ofFields]
      · simp [turnsLength, found, JavaTaskState.turnCount, list]
  simp [gatewayOpen, apiOpen, decoded, status, turns]

end Stored

/-- The two submit endpoints and the two feedback endpoints agree exactly under their
conditions, for every body, user and stored state. -/
theorem requests_alike_iff {jackson : Jackson} {pydantic : Pydantic}
    (jacksonDocumented : jackson.Documented) (pydanticDocumented : pydantic.Documented) :
    (∀ policy body, Alike (gatewaySubmit jackson policy body) (taskSubmit pydantic body) ↔
        SubmitAlike jackson pydantic policy body) ∧
      ∀ mayAct stored body,
        gatewayFeedback jackson mayAct stored body = taskFeedback pydantic stored body ↔
          FeedbackAlike jackson mayAct stored body :=
  ⟨submit_alike_iff jacksonDocumented pydanticDocumented,
    feedback_alike_iff jacksonDocumented pydanticDocumented⟩

def readInteger : Json → Option (Option Int)
  | .null => some none
  | .int n => if JavaTaskState.isInt n then some (some n) else none
  | _ => none

/-- Readers of values of the declared types. -/
def jackson : Jackson := ⟨JavaTaskState.readText, JavaTaskState.readFlag, readInteger⟩

def pydantic : Pydantic where
  text
    | .str s => some s
    | _ => none
  flag
    | .bool b => some b
    | _ => none
  int
    | .int n => some n
    | _ => none

theorem jackson_documented : jackson.Documented where
  text_null := rfl
  text_str _ := rfl
  flag_bool _ := rfl
  int_int n fits := by simp [jackson, readInteger, fits]

theorem pydantic_documented : pydantic.Documented where
  text_iff value s := by cases value <;> simp [pydantic]
  flag_bool _ := rfl
  int_int _ := rfl

/-- A user whom the whitelist lets query every database. -/
def unrestricted : GatewaySubmit.Policy := ⟨"alice", ["*"], 10, 100⟩

def succeeded : Doc :=
  TaskStore.merged "10:02" (TaskStore.taskCreate "t1" "How many orders?" "shop" "" "10:00")
    (TaskStore.Write.ended "SUCCESS" none).fields

def submitBody (ragK : Int) : Json :=
  .obj [("question", .str "How many orders?"), ("db_id", .str "shop"), ("rag_k", .int ragK),
    ("rag_hybrid", .bool false), ("idempotency_key", .null)]

def feedbackBody (feedback : String) : Json := .obj [("feedback", .str feedback)]

theorem requests_alike_declared :
    SubmitAlike jackson pydantic unrestricted (submitBody 5) ∧
      FeedbackAlike jackson true (some succeeded) (feedbackBody "Group by month") := by
  have alike := requests_alike_iff jackson_documented pydantic_documented
  refine ⟨(alike.1 _ _).mp (.inr ⟨_, rfl, ?_⟩), (alike.2 _ _ _).mp ?_⟩
  · decide +kernel
  · decide +kernel

/-- The gateway publishes a `rag_k` and a feedback that the API rejects. -/
theorem unchecked_requests :
    ¬ Alike (gatewaySubmit jackson unrestricted (submitBody 0)) (taskSubmit pydantic (submitBody 0)) ∧
      gatewayFeedback jackson true (some succeeded) (feedbackBody "") = some (.str "") ∧
      taskFeedback pydantic (some succeeded) (feedbackBody "") = none := by
  have accepted : gatewaySubmit jackson unrestricted (submitBody 0) ≠ .rejected := by decide +kernel
  have rejected : taskSubmit pydantic (submitBody 0) = .rejected := by decide +kernel
  refine ⟨?_, by decide +kernel, by decide +kernel⟩
  rintro (⟨refused, -⟩ | ⟨payload, -, taken⟩)
  · exact accepted refused
  · rw [rejected] at taken
    contradiction

end RequestParity
end Nl2SqlAgent

import Mathlib.Data.Option.Basic
import Nl2SqlAgent.JavaTaskState

/-! What a read and write back by the gateway does to a task's document. -/
namespace Nl2SqlAgent

open Lib

namespace JavaTaskState

/-- The value of a field, read from the document or initial. -/
inductive Read (d : Doc) (key : String) (initial : α) (read : Json → Option α) (a : α) : Prop where
  | missing (absent : d.lookup key = none) (same : a = initial)
  | present (value : Json) (found : d.lookup key = some value) (accepted : read value = some a)

variable {α : Type} {d d' : Doc} {s : TaskState} {read : Json → Option α} {initial a : α}
  {key now : String} {value : Json} {operation : Operation}

theorem field_read (ok : field d key initial read = some a) : Read d key initial read a := by
  unfold field at ok
  cases found : d.lookup key with
  | none =>
    simp only [found] at ok
    exact .missing found (Option.some.inj ok).symm
  | some value =>
    simp only [found] at ok
    exact .present value found ok

theorem readText_inverse (read : readText value = some t) : TaskStore.text t = value := by
  cases value <;> simp only [readText, Option.some.injEq, reduceCtorEq] at read <;> subst read <;> rfl

theorem readFields_inverse (read : readFields value = some fields) : writeFields fields = value := by
  cases value <;> simp only [readFields, Option.some.injEq, reduceCtorEq] at read <;> subst read <;>
    rfl

theorem readInt_inverse (read : readInt value = some n) (fit : Kind.admits .int value = true) :
    Json.int n = value := by
  cases value with
  | int m =>
    simp only [readInt] at read
    obtain ⟨-, same⟩ := Option.ite_none_right_eq_some.mp read
    rw [Option.some.inj same]
  | _ => simp [Kind.admits] at fit

theorem readInt_isInt (read : readInt value = some n) : isInt n = true := by
  cases value with
  | null =>
    obtain rfl := Option.some.inj read
    decide
  | int m =>
    simp only [readInt] at read
    obtain ⟨bound, same⟩ := Option.ite_none_right_eq_some.mp read
    obtain rfl := Option.some.inj same
    simpa [isInt] using bound
  | _ => simp [readInt] at read

/-- Every field of the decoded object is read from its key. -/
structure Decoded (d : Doc) (s : TaskState) : Prop where
  taskId : Read d "task_id" none readText s.taskId
  status : Read d "status" none readText s.status
  question : Read d "question" none readText s.question
  dbId : Read d "db_id" none readText s.dbId
  databaseUrl : Read d "database_url" none readText s.databaseUrl
  progress : Read d "progress" 0 readInt s.progress
  node : Read d "node" none readText s.node
  sql : Read d "sql" none readText s.sql
  execResult : Read d "exec_result" .null some s.execResult
  tokenUsage : Read d "token_usage" (some []) readFields s.tokenUsage
  nodeTimings : Read d "node_timings" (some []) readFields s.nodeTimings
  retryCount : Read d "retry_count" 0 readInt s.retryCount
  error : Read d "error" .null some s.error
  createdAt : Read d "created_at" none readText s.createdAt
  updatedAt : Read d "updated_at" none readText s.updatedAt
  conversationTurns : Read d "conversation_turns" (.obj []) some s.conversationTurns
  cacheHit : Read d "cache_hit" none readFlag s.cacheHit

theorem decode_decoded (decoded : decode d = some s) : Decoded d s := by
  obtain ⟨-, -, rest⟩ := Option.bind_eq_some_iff.mp decoded
  obtain ⟨taskId, readTaskId, rest⟩ := Option.bind_eq_some_iff.mp rest
  obtain ⟨status, readStatus, rest⟩ := Option.bind_eq_some_iff.mp rest
  obtain ⟨question, readQuestion, rest⟩ := Option.bind_eq_some_iff.mp rest
  obtain ⟨dbId, readDbId, rest⟩ := Option.bind_eq_some_iff.mp rest
  obtain ⟨databaseUrl, readDatabaseUrl, rest⟩ := Option.bind_eq_some_iff.mp rest
  obtain ⟨progress, readProgress, rest⟩ := Option.bind_eq_some_iff.mp rest
  obtain ⟨node, readNode, rest⟩ := Option.bind_eq_some_iff.mp rest
  obtain ⟨sql, readSql, rest⟩ := Option.bind_eq_some_iff.mp rest
  obtain ⟨execResult, readExecResult, rest⟩ := Option.bind_eq_some_iff.mp rest
  obtain ⟨tokenUsage, readTokenUsage, rest⟩ := Option.bind_eq_some_iff.mp rest
  obtain ⟨nodeTimings, readNodeTimings, rest⟩ := Option.bind_eq_some_iff.mp rest
  obtain ⟨retryCount, readRetryCount, rest⟩ := Option.bind_eq_some_iff.mp rest
  obtain ⟨error, readError, rest⟩ := Option.bind_eq_some_iff.mp rest
  obtain ⟨createdAt, readCreatedAt, rest⟩ := Option.bind_eq_some_iff.mp rest
  obtain ⟨updatedAt, readUpdatedAt, rest⟩ := Option.bind_eq_some_iff.mp rest
  obtain ⟨conversationTurns, readConversationTurns, rest⟩ := Option.bind_eq_some_iff.mp rest
  obtain ⟨cacheHit, readCacheHit, rest⟩ := Option.bind_eq_some_iff.mp rest
  obtain rfl := Option.some.inj rest
  exact {
    taskId := field_read readTaskId,
    status := field_read readStatus,
    question := field_read readQuestion,
    dbId := field_read readDbId,
    databaseUrl := field_read readDatabaseUrl,
    progress := field_read readProgress,
    node := field_read readNode,
    sql := field_read readSql,
    execResult := field_read readExecResult,
    tokenUsage := field_read readTokenUsage,
    nodeTimings := field_read readNodeTimings,
    retryCount := field_read readRetryCount,
    error := field_read readError,
    createdAt := field_read readCreatedAt,
    updatedAt := field_read readUpdatedAt,
    conversationTurns := field_read readConversationTurns,
    cacheHit := field_read readCacheHit }

theorem Read.same (reading : Read d key initial read a) (write : α → Json)
    (found : d.lookup key = some value)
    (inverse : read value = some a → write a = value) : write a = value := by
  cases reading with
  | missing absent =>
    rw [absent] at found
    contradiction
  | present other there accepted =>
    obtain rfl := Option.some.inj (there.symm.trans found)
    exact inverse accepted

theorem read_text {d : Doc} {key : String} {t : Option String}
    (reading : Read d key none readText t) :
    TaskStore.text t = (d.lookup key).getD .null := by
  cases reading with
  | missing absent same => simp [absent, same, TaskStore.text]
  | present value found accepted => simp [found, readText_inverse accepted]

theorem read_any {d : Doc} {key : String} {value : Json}
    (reading : Read d key .null some value) :
    value = (d.lookup key).getD .null := by
  cases reading with
  | missing absent same => simp [absent, same]
  | present value found accepted =>
    obtain rfl := Option.some.inj accepted
    simp [found]

theorem read_isInt (reading : Read d key 0 readInt n) : isInt n = true := by
  cases reading with
  | missing _ same =>
    subst same
    decide
  | present _ _ accepted => exact readInt_isInt accepted

/-- Decoding keeps the value of every base field that the document has. -/
theorem base_same (decoded : Decoded d s) (shaped : Shaped d) :
    ∀ field ∈ baseFields s, ∀ value, d.lookup field.1 = some value → field.2 = value := by
  intro field member value found
  have fit := shaped _ _ found
  simp only [baseFields, List.mem_cons, List.not_mem_nil, or_false] at member
  rcases member with rfl | rfl | rfl | rfl | rfl | rfl | rfl | rfl | rfl | rfl | rfl | rfl | rfl |
    rfl | rfl | rfl
  · exact decoded.taskId.same TaskStore.text found readText_inverse
  · exact decoded.status.same TaskStore.text found readText_inverse
  · exact decoded.question.same TaskStore.text found readText_inverse
  · exact decoded.dbId.same TaskStore.text found readText_inverse
  · exact decoded.databaseUrl.same TaskStore.text found readText_inverse
  · exact decoded.progress.same Json.int found fun read => readInt_inverse read fit
  · exact decoded.node.same TaskStore.text found readText_inverse
  · exact decoded.sql.same TaskStore.text found readText_inverse
  · exact decoded.execResult.same id found fun read => (Option.some.inj read).symm
  · exact decoded.tokenUsage.same writeFields found readFields_inverse
  · exact decoded.nodeTimings.same writeFields found readFields_inverse
  · exact decoded.retryCount.same Json.int found fun read => readInt_inverse read fit
  · exact decoded.error.same id found fun read => (Option.some.inj read).symm
  · exact decoded.createdAt.same TaskStore.text found readText_inverse
  · exact decoded.updatedAt.same TaskStore.text found readText_inverse
  · exact decoded.conversationTurns.same id found fun read => (Option.some.inj read).symm

theorem cache_same (decoded : Decoded d s) (shaped : Shaped d)
    (found : d.lookup "cache_hit" = some value) : ("cache_hit", value) ∈ cacheField s := by
  have fit : Kind.admits .flag value = true := shaped _ _ found
  cases decoded.cacheHit with
  | missing absent =>
    rw [absent] at found
    contradiction
  | present other there accepted =>
    obtain rfl := Option.some.inj (there.symm.trans found)
    cases other with
    | bool b => simp [cacheField, (Option.some.inj accepted).symm]
    | _ => simp [Kind.admits] at fit

/-- The keys an encoded object has. -/
def classKeys : List String := kinds.map Prod.fst

theorem encode_keys (s : TaskState) :
    ((baseFields s ++ cacheField s).map Prod.fst).Nodup ∧
      ∀ key ∈ (baseFields s ++ cacheField s).map Prod.fst, key ∈ classKeys := by
  cases flag : s.cacheHit with
  | none =>
    have keys : (baseFields s ++ cacheField s).map Prod.fst = classKeys.take 16 := by
      simp [cacheField, flag, baseFields, classKeys, kinds]
    rw [keys]
    exact ⟨by decide, fun key => List.mem_of_mem_take⟩
  | some b =>
    have keys : (baseFields s ++ cacheField s).map Prod.fst = classKeys := by
      simp [cacheField, flag, baseFields, classKeys, kinds]
    rw [keys]
    exact ⟨by decide, fun key member => member⟩

theorem encode_lookup (member : (key, value) ∈ baseFields s ++ cacheField s) :
    (encode s).lookup key = some value :=
  Doc.lookup_update_mem ∅ _ key value (encode_keys s).1 member

/-- The class has no place for the feedback context. -/
theorem encode_context (s : TaskState) (context : key ∈ TaskStore.contextKeys) :
    (encode s).lookup key = none := by
  have outside : ∀ key ∈ TaskStore.contextKeys, key ∉ classKeys := by decide
  cases found : (encode s).lookup key with
  | none => rfl
  | some value =>
    rcases Doc.lookup_update_cases ∅ _ key value found with member | ⟨-, old⟩
    · exact absurd ((encode_keys s).2 key (List.mem_map_of_mem member)) (outside key context)
    · simp at old

/-- What an operation writes is the decoded object but for the fields it means to change. -/
inductive Saved (d : Doc) : Operation → Doc → Prop where
  | feedback (s : TaskState) (now : String) (decoded : decode d = some s) :
      Saved d .feedback (encode (feedbackSaved now s))
  | scanStale (s : TaskState) (now : String) (decoded : decode d = some s) :
      Saved d .scanStale (encode (staleSaved now s))

theorem apply_saved (applied : Operation.apply now d operation = some d') : Saved d operation d' := by
  cases operation with
  | feedback =>
    simp only [Operation.apply, Option.bind_eq_bind, Option.bind_eq_some_iff, Option.pure_def]
      at applied
    obtain ⟨s, decoded, -, -, -, -, same⟩ := applied
    obtain rfl := Option.some.inj same
    exact .feedback s now decoded
  | scanStale =>
    simp only [Operation.apply, Option.bind_eq_bind, Option.bind_eq_some_iff, Option.pure_def]
      at applied
    obtain ⟨s, decoded, -, -, same⟩ := applied
    obtain rfl := Option.some.inj same
    exact .scanStale s now decoded

theorem base_saved_feedback (now : String) (s : TaskState) (field : String × Json)
    (member : field ∈ baseFields s) (unmeant : field.1 ∉ Operation.meant .feedback) :
    field ∈ baseFields (feedbackSaved now s) := by
  simp only [baseFields, List.mem_cons, List.not_mem_nil, or_false] at member
  rcases member with rfl | rfl | rfl | rfl | rfl | rfl | rfl | rfl | rfl | rfl | rfl | rfl | rfl |
    rfl | rfl | rfl
  all_goals first
    | (simp [baseFields, feedbackSaved]; done)
    | simp [Operation.meant] at unmeant

theorem base_saved_stale (now : String) (s : TaskState) (field : String × Json)
    (member : field ∈ baseFields s) (unmeant : field.1 ∉ Operation.meant .scanStale) :
    field ∈ baseFields (staleSaved now s) := by
  simp only [baseFields, List.mem_cons, List.not_mem_nil, or_false] at member
  rcases member with rfl | rfl | rfl | rfl | rfl | rfl | rfl | rfl | rfl | rfl | rfl | rfl | rfl |
    rfl | rfl | rfl
  all_goals first
    | (simp [baseFields, staleSaved]; done)
    | simp [Operation.meant] at unmeant

theorem shaped_taskCreate (taskId question dbId databaseUrl now : String) :
    Shaped (TaskStore.taskCreate taskId question dbId databaseUrl now) := by
  apply shaped_ofFields
  intro field member
  simp only [List.mem_cons, List.not_mem_nil, or_false] at member
  rcases member with rfl | rfl | rfl | rfl | rfl | rfl | rfl | rfl | rfl | rfl | rfl | rfl | rfl |
    rfl | rfl
  all_goals rfl

theorem shaped_merged (shaped : Shaped d) (write : TaskStore.Write) (now : String) :
    Shaped (TaskStore.merged now d write.fields) := by
  apply shaped_update shaped
  intro field member
  rcases List.mem_append.mp member with new | stamp
  · exact fits_write write field new
  · rw [List.mem_singleton.mp stamp]
    rfl

theorem shaped_saved (progress : isInt s.progress = true) (retries : isInt s.retryCount = true)
    (operation : Operation) (now : String) : Shaped (encode (operation.saved now s)) := by
  cases operation with
  | feedback => exact shaped_encode _ rfl retries
  | scanStale => exact shaped_encode _ progress retries

theorem written_shaped (written : Written d) : Shaped d := by
  induction written with
  | submitted taskId question dbId databaseUrl now =>
    exact shaped_taskCreate taskId question dbId databaseUrl now
  | created => exact shaped_encode _ rfl rfl
  | cached => exact shaped_encode _ rfl rfl
  | worker d write now _ ih => exact shaped_merged ih write now
  | gateway d d' operation now _ applied _ =>
    cases apply_saved applied with
    | feedback s now decoded =>
      have fields := decode_decoded decoded
      exact shaped_saved (read_isInt fields.progress) (read_isInt fields.retryCount) .feedback now
    | scanStale s now decoded =>
      have fields := decode_decoded decoded
      exact shaped_saved (read_isInt fields.progress) (read_isInt fields.retryCount) .scanStale now

theorem field_isSome (accepts : ∀ value, d.lookup key = some value → (read value).isSome = true) :
    ∃ a, field d key initial read = some a := by
  unfold field
  cases found : d.lookup key with
  | none => exact ⟨initial, rfl⟩
  | some value => exact Option.isSome_iff_exists.mp (accepts value found)

theorem shaped_admits (shaped : Shaped d) (found : d.lookup key = some value) (kind : Kind)
    (listed : kinds.lookup key = some kind) : kind.admits value = true := by
  simpa [fits, listed] using shaped key value found

theorem text_accepts (key : String) (shaped : Shaped d) (listed : kinds.lookup key = some .text) :
    ∃ t, field d key none readText = some t := by
  apply field_isSome
  intro value found
  have admitted := shaped_admits shaped found _ listed
  cases value <;> first | rfl | (simp [Kind.admits] at admitted)

theorem int_accepts (key : String) (shaped : Shaped d) (listed : kinds.lookup key = some .int) :
    ∃ n, field d key 0 readInt = some n := by
  apply field_isSome
  intro value found
  have admitted := shaped_admits shaped found _ listed
  cases value with
  | int n =>
    have bounds : -2147483648 ≤ n ∧ n < 2147483648 := by simpa [Kind.admits, isInt] using admitted
    simp [readInt, bounds]
  | _ => simp [Kind.admits] at admitted

theorem map_accepts (key : String) (shaped : Shaped d) (listed : kinds.lookup key = some .map) :
    ∃ fields, field d key (some []) readFields = some fields := by
  apply field_isSome
  intro value found
  have admitted := shaped_admits shaped found _ listed
  cases value <;> first | rfl | (simp [Kind.admits] at admitted)

theorem any_accepts (d : Doc) (key : String) (initial : Json) :
    ∃ value, field d key initial some = some value :=
  field_isSome fun _ _ => rfl

/-- The gateway can read every document of the writers' kinds without a number that is no
JSON. -/
theorem shaped_decodes (shaped : Shaped d) (strict : d.strict = true) :
    ∃ s, decode d = some s := by
  obtain ⟨taskId, readTaskId⟩ := text_accepts "task_id" shaped rfl
  obtain ⟨status, readStatus⟩ := text_accepts "status" shaped rfl
  obtain ⟨question, readQuestion⟩ := text_accepts "question" shaped rfl
  obtain ⟨dbId, readDbId⟩ := text_accepts "db_id" shaped rfl
  obtain ⟨databaseUrl, readDatabaseUrl⟩ := text_accepts "database_url" shaped rfl
  obtain ⟨progress, readProgress⟩ := int_accepts "progress" shaped rfl
  obtain ⟨node, readNode⟩ := text_accepts "node" shaped rfl
  obtain ⟨sql, readSql⟩ := text_accepts "sql" shaped rfl
  obtain ⟨execResult, readExecResult⟩ := any_accepts d "exec_result" .null
  obtain ⟨tokenUsage, readTokenUsage⟩ := map_accepts "token_usage" shaped rfl
  obtain ⟨nodeTimings, readNodeTimings⟩ := map_accepts "node_timings" shaped rfl
  obtain ⟨retryCount, readRetryCount⟩ := int_accepts "retry_count" shaped rfl
  obtain ⟨error, readError⟩ := any_accepts d "error" .null
  obtain ⟨createdAt, readCreatedAt⟩ := text_accepts "created_at" shaped rfl
  obtain ⟨updatedAt, readUpdatedAt⟩ := text_accepts "updated_at" shaped rfl
  obtain ⟨conversationTurns, readTurns⟩ := any_accepts d "conversation_turns" (.obj [])
  have readCache : ∃ cacheHit, field d "cache_hit" none readFlag = some cacheHit := by
    apply field_isSome
    intro value found
    have admitted := shaped_admits shaped found .flag rfl
    cases value <;> first | rfl | (simp [Kind.admits] at admitted)
  obtain ⟨cacheHit, readCacheHit⟩ := readCache
  simp [decode, strict, readTaskId, readStatus, readQuestion, readDbId, readDatabaseUrl, readProgress,
    readNode, readSql, readExecResult, readTokenUsage, readNodeTimings, readRetryCount, readError,
    readCreatedAt, readUpdatedAt, readTurns, readCacheHit]

/-- Every field that the class has and the operation does not mean to change is kept. -/
theorem saved_keeps (shaped : Shaped d) (saved : Saved d operation d')
    (unmeant : key ∉ operation.meant) (inClass : key ∈ classKeys)
    (found : d.lookup key = some value) : d'.lookup key = some value := by
  have split : key = "cache_hit" ∨ ∃ s, key ∈ (baseFields s).map Prod.fst := by
    have parts : ∀ key ∈ classKeys, key = "cache_hit" ∨ key ∈ classKeys.take 16 := by decide
    rcases parts key inClass with cache | base
    · exact .inl cache
    · exact .inr ⟨{}, base⟩
  have keys (s t : TaskState) : (baseFields s).map Prod.fst = (baseFields t).map Prod.fst := rfl
  cases saved with
  | feedback s now decoded =>
    have fields := decode_decoded decoded
    apply encode_lookup
    rcases split with rfl | ⟨t, base⟩
    · have cache : ("cache_hit", value) ∈ cacheField s := cache_same fields shaped found
      exact List.mem_append_right _ cache
    · rw [keys t s] at base
      obtain ⟨⟨_, old⟩, member, rfl⟩ := List.mem_map.mp base
      obtain rfl := base_same fields shaped _ member value found
      exact List.mem_append_left _ (base_saved_feedback now s _ member unmeant)
  | scanStale s now decoded =>
    have fields := decode_decoded decoded
    apply encode_lookup
    rcases split with rfl | ⟨t, base⟩
    · have cache : ("cache_hit", value) ∈ cacheField s := cache_same fields shaped found
      exact List.mem_append_right _ cache
    · rw [keys t s] at base
      obtain ⟨⟨_, old⟩, member, rfl⟩ := List.mem_map.mp base
      obtain rfl := base_same fields shaped _ member value found
      exact List.mem_append_left _ (base_saved_stale now s _ member unmeant)

theorem shaped_key (shaped : Shaped d) (found : d.lookup key = some value) :
    key ∈ classKeys ∨ key ∈ TaskStore.contextKeys := by
  have fit := shaped key value found
  simp only [fits] at fit
  split at fit
  next kind declared =>
    exact .inl (List.mem_map_of_mem (mem_of_lookup declared))
  next => exact .inr (by simpa using fit)

/-- An operation keeps every field that it does not mean to change exactly for the
documents that hold no feedback context. -/
theorem write_back_keeps_iff (written : Written d)
    (saved : Operation.apply now d operation = some d') :
    (∀ key value, key ∉ operation.meant → d.lookup key = some value →
      d'.lookup key = some value) ↔ ∀ key ∈ TaskStore.contextKeys, d.lookup key = none := by
  have shaped := written_shaped written
  constructor
  · intro keeps key context
    cases found : d.lookup key with
    | none => rfl
    | some value =>
      have unmeant : key ∉ operation.meant := by
        have disjoint : ∀ key ∈ TaskStore.contextKeys,
            key ∉ Operation.meant .feedback ∧ key ∉ Operation.meant .scanStale := by decide
        cases operation with
        | feedback => exact (disjoint key context).1
        | scanStale => exact (disjoint key context).2
      have kept := keeps key value unmeant found
      cases apply_saved saved with
      | feedback s now _ =>
        rw [encode_context _ context] at kept
        contradiction
      | scanStale s now _ =>
        rw [encode_context _ context] at kept
        contradiction
  · intro without key value unmeant found
    rcases shaped_key shaped found with inClass | context
    · exact saved_keeps shaped (apply_saved saved) unmeant inClass found
    · rw [without key context] at found
      contradiction

/-- A task that the gateway created and one graph run finished. -/
def finished : Doc :=
  let created := encode (create "t1" "How many orders?" "shop" "sqlite:///shop.db" "08:00")
  let running := TaskStore.merged "08:01" created (TaskStore.Write.running 0).fields
  let done := TaskStore.merged "08:02" running (TaskStore.Write.graphDone (some "SELECT COUNT(*) FROM orders")
    (.obj [("success", .bool true)]) [] [] "CREATE TABLE orders(id)" "" "" []).fields
  TaskStore.merged "08:02" done (TaskStore.Write.ended "SUCCESS" none).fields

theorem finished_written : Written finished :=
  .worker _ (.ended "SUCCESS" none) _ (.worker _ (.graphDone ..) _
    (.worker _ (.running 0) _ (.created ..)))

theorem finished_saved : ∃ d', Operation.apply "08:05" finished .feedback = some d' :=
  Option.isSome_iff_exists.mp (by decide)

theorem write_back_keeps_finished :
    ∃ d', Operation.apply "08:05" finished .feedback = some d' ∧
      ((∀ key value, key ∉ Operation.meant .feedback → finished.lookup key = some value →
        d'.lookup key = some value) ↔ ∀ key ∈ TaskStore.contextKeys, finished.lookup key = none) := by
  obtain ⟨d', saved⟩ := finished_saved
  exact ⟨d', saved, write_back_keeps_iff finished_written saved⟩

/-- Feedback on that task loses the schema text that the feedback graph would read. -/
theorem feedback_drops_schema :
    ∃ d', Written finished ∧ Operation.apply "08:05" finished .feedback = some d' ∧
      "_schema_text" ∉ Operation.meant .feedback ∧
      finished.lookup "_schema_text" = some (.str "CREATE TABLE orders(id)") ∧
      d'.lookup "_schema_text" = none := by
  obtain ⟨d', saved⟩ := finished_saved
  refine ⟨d', finished_written, saved, by decide, rfl, ?_⟩
  cases apply_saved saved with
  | feedback s now _ => exact encode_context _ (by decide)

end JavaTaskState
end Nl2SqlAgent

import Nl2SqlAgent.FeedbackRounds
import Nl2SqlAgent.JavaWriteBack

/-! What is stored for a task under the keys that a feedback round reads, and what the
feedback messages carry of it: whatever the threads do, a history is a list of completed
rounds, numbered from one and at most ten. -/
namespace Nl2SqlAgent

open Lib

namespace FeedbackRounds

open JavaTaskState (TaskState)

inductive Kind where
  | text
  | optional
  | outcome
  | history
  | any
  deriving DecidableEq, Repr

def Kind.Admits : Kind → Json → Prop
  | .text, value => ∃ s, value = .str s
  | .optional, value => ∃ t, value = TaskStore.text t
  | .outcome, value => ∃ held : Held, value = held.json
  | .history, value => value = .obj [] ∨
      ∃ rounds, rounds.length ≤ JavaTaskState.feedbackMaxTurns ∧ value = .arr (numbered rounds)
  | .any, _ => True

def kinds : List (String × Kind) :=
  [("question", .text), ("db_id", .optional), ("database_url", .optional), ("sql", .optional),
    ("exec_result", .outcome), ("conversation_turns", .history), ("_schema_text", .text),
    ("_notes_text", .text), ("_fewshot_text", .text)]

def kindOf (key : String) : Kind := (kinds.lookup key).getD .any

/-- A value that the writers put under the key. -/
def Fits (field : String × Json) : Prop := (kindOf field.1).Admits field.2

/-- A document with such values, as the API, the gateway and the worker store it. -/
structure Stored (d : Doc) : Prop where
  fits : ∀ key value, d.lookup key = some value → Fits (key, value)
  question : (d.lookup "question").isSome = true

/-- A payload with such values; its history leaves room for one more round. -/
structure Carried (payload : Doc) : Prop where
  stored : Stored payload
  sql : (payload.lookup "sql").isSome = true
  feedback : ∃ t, payload.lookup "feedback" = some (TaskStore.text t)
  history : ∃ rounds, FeedbackRounds.history payload = some (numbered rounds) ∧
    rounds.length + 1 ≤ JavaTaskState.feedbackMaxTurns
  bare : ∀ key ∈ ["rag_schema","rag_domain","rag_k","fewshot_enabled"], payload.lookup key = none

variable {d : Doc} {s : TaskState} {key : String} {value : Json}

@[simp] theorem numbered_nil : numbered [] = [] := rfl

@[simp] theorem numbered_length (rounds : List Round) :
    (numbered rounds).length = rounds.length := by
  simp [numbered]

theorem numbered_concat (rounds : List Round) (round : Round) :
    numbered (rounds ++ [round]) = numbered rounds ++ [round.turn (rounds.length + 1)] := by
  simp [numbered, List.mapIdx_append]

theorem Stored.admits (stored : Stored d) (found : d.lookup key = some value) :
    (kindOf key).Admits value := stored.fits key value found

theorem isSome_update (fields : List (String × Json)) (there : (d.lookup key).isSome = true) :
    ((d.update fields).lookup key).isSome = true := by
  induction fields generalizing d with
  | nil => exact there
  | cons field rest ih =>
    apply ih
    by_cases same : key = field.1
    · rw [same, AList.lookup_insert]
      rfl
    · rwa [AList.lookup_insert_ne same]

theorem Stored.update (stored : Stored d) {fields : List (String × Json)}
    (new : ∀ field ∈ fields, Fits field) : Stored (d.update fields) := by
  refine ⟨?_, isSome_update fields stored.question⟩
  intro key value found
  rcases Doc.lookup_update_cases d fields key value found with member | ⟨-, old⟩
  · exact new _ member
  · exact stored.fits key value old

theorem stored_ofFields {fields : List (String × Json)} (new : ∀ field ∈ fields, Fits field)
    (question : "question" ∈ fields.map Prod.fst) : Stored (Doc.ofFields fields) := by
  constructor
  · intro key value found
    rcases Doc.lookup_update_cases ∅ fields key value found with member | ⟨-, old⟩
    · exact new _ member
    · simp at old
  · induction fields using List.reverseRecOn with
    | nil => simp at question
    | append_singleton rest field ih =>
      simp only [Doc.ofFields, Doc.update, List.foldl_append, List.foldl_cons, List.foldl_nil]
      by_cases same : "question" = field.1
      · rw [same, AList.lookup_insert]
        rfl
      · rw [AList.lookup_insert_ne same]
        refine ih (fun other member => new other (List.mem_append_left _ member)) ?_
        simpa [same] using question

/-- The state the gateway decodes from a stored document, and those it makes itself. -/
structure Sound (s : TaskState) : Prop where
  question : ∃ q, s.question = some q
  execResult : Kind.Admits .outcome s.execResult
  turns : Kind.Admits .history s.conversationTurns

theorem Sound.encode (sound : Sound s) : Stored (JavaTaskState.encode s) := by
  obtain ⟨⟨q, question⟩, held, turns⟩ := sound
  refine stored_ofFields ?_ (by simp [JavaTaskState.baseFields])
  intro field member
  rcases List.mem_append.mp member with base | cache
  · simp only [JavaTaskState.baseFields, List.mem_cons, List.not_mem_nil, or_false] at base
    rcases base with rfl | rfl | rfl | rfl | rfl | rfl | rfl | rfl | rfl | rfl | rfl | rfl | rfl |
      rfl | rfl | rfl
    · trivial
    · trivial
    · exact ⟨q, by rw [question]; rfl⟩
    · exact ⟨_, rfl⟩
    · exact ⟨_, rfl⟩
    · trivial
    · trivial
    · exact ⟨_, rfl⟩
    · exact held
    · trivial
    · trivial
    · trivial
    · trivial
    · trivial
    · trivial
    · exact turns
  · cases flag : s.cacheHit with
    | none => simp [JavaTaskState.cacheField, flag] at cache
    | some b =>
      obtain rfl : field = ("cache_hit", .bool b) := by
        simpa [JavaTaskState.cacheField, flag] using cache
      trivial

theorem Stored.decoded (stored : Stored d) (decoded : JavaTaskState.decode d = some s) :
    Sound s := by
  have fields := JavaTaskState.decode_decoded decoded
  refine ⟨?_, ?_, ?_⟩
  · cases fields.question with
    | missing absent =>
      have there := stored.question
      simp [absent] at there
    | present value found accepted =>
      obtain ⟨q, rfl⟩ := stored.admits found
      exact ⟨q, (Option.some.inj accepted).symm⟩
  · cases fields.execResult with
    | missing _ same => exact ⟨.nothing, same⟩
    | present value found accepted =>
      obtain rfl := Option.some.inj accepted
      exact stored.admits found
  · cases fields.conversationTurns with
    | missing _ same => exact .inl same
    | present value found accepted =>
      obtain rfl := Option.some.inj accepted
      exact stored.admits found

theorem Sound.saved (sound : Sound s) (now : String) (operation : JavaTaskState.Operation) :
    Stored (JavaTaskState.encode (operation.saved now s)) := by
  cases operation with
  | feedback => exact Sound.encode ⟨sound.question, sound.execResult, sound.turns⟩
  | scanStale => exact Sound.encode ⟨sound.question, sound.execResult, sound.turns⟩

theorem Held.admits (held : Held) : Kind.Admits .outcome held.json := ⟨held, rfl⟩

/-- The documents that submits make. -/
theorem submitted_stored (submission : Submission) (now : String) :
    Stored (submission.stored.document now) := by
  cases submission with
  | api taskId question dbId databaseUrl =>
    refine stored_ofFields ?_ (by simp)
    intro field member
    simp only [List.mem_cons, List.not_mem_nil, or_false] at member
    rcases member with rfl | rfl | rfl | rfl | rfl | rfl | rfl | rfl | rfl | rfl | rfl | rfl | rfl |
      rfl | rfl
    · trivial
    · trivial
    · exact ⟨_, rfl⟩
    · exact ⟨some dbId, rfl⟩
    · exact ⟨some databaseUrl, rfl⟩
    · trivial
    · trivial
    · exact ⟨none, rfl⟩
    · exact Held.nothing.admits
    all_goals trivial
  | gateway taskId question dbId databaseUrl =>
    exact Sound.encode ⟨⟨_, rfl⟩, Held.nothing.admits, .inl rfl⟩
  | cached taskId question dbId sql execResult tokenUsage nodeTimings =>
    exact Sound.encode ⟨⟨_, rfl⟩, execResult.admits, .inl rfl⟩

/-- The write stores nothing but values of their kind. -/
def SoundWrite (write : TaskStore.Write) : Prop := ∀ field ∈ write.fields, Fits field

theorem sound_running (retryCount : Fin 4) : SoundWrite (.running retryCount) := by
  intro field member
  simp only [TaskStore.Write.fields, List.mem_cons, List.not_mem_nil, or_false] at member
  rcases member with rfl | rfl <;> trivial

theorem sound_ended (status : String) (error : Option String) :
    SoundWrite (.ended status error) := by
  intro field member
  rcases List.mem_cons.mp member with rfl | reason
  · trivial
  · cases error with
    | none => simp at reason
    | some e =>
      obtain rfl : field = ("error", .str e) := by simpa using reason
      trivial

theorem sound_retried (retryCount : Fin 4) (error : String) :
    SoundWrite (.retried retryCount error) := by
  intro field member
  simp only [TaskStore.Write.fields, List.mem_cons, List.not_mem_nil, or_false] at member
  rcases member with rfl | rfl <;> trivial

theorem sound_feedbackStarted : SoundWrite .feedbackStarted := by
  intro field member
  simp only [TaskStore.Write.fields, List.mem_cons, List.not_mem_nil, or_false] at member
  rcases member with rfl | rfl | rfl <;> trivial

theorem sound_node (n : TaskThreads.NodeDone) : SoundWrite n.write := by
  intro field member
  simp only [TaskThreads.NodeDone.write, TaskStore.Write.fields, List.mem_cons, List.not_mem_nil,
    or_false] at member
  rcases member with rfl | rfl | rfl | rfl | rfl
  · trivial
  · trivial
  · exact ⟨n.sql, rfl⟩
  · trivial
  · trivial

/-- The last update of a request's graph. -/
theorem sound_graphDone (y : Yield) (c : TaskThreads.Context) :
    SoundWrite (.graphDone y.final.sql y.final.execResult y.final.tokenUsage y.final.nodeTimings
      c.schemaText c.notesText c.fewshotText c.payload) := by
  intro field member
  simp only [TaskStore.Write.fields, List.mem_cons, List.not_mem_nil, or_false] at member
  rcases member with rfl | rfl | rfl | rfl | rfl | rfl | rfl | rfl
  · exact ⟨some y.sql, rfl⟩
  · exact y.execResult.admits
  · trivial
  · trivial
  · exact ⟨_, rfl⟩
  · exact ⟨_, rfl⟩
  · exact ⟨_, rfl⟩
  · trivial

/-- The last update of a round, where the history leaves room for it. -/
theorem sound_completion {rounds : List Round} (round : Round)
    (room : rounds.length + 1 ≤ JavaTaskState.feedbackMaxTurns)
    (tokenUsage nodeTimings : List (String × Json)) :
    SoundWrite (completion (numbered rounds) round tokenUsage nodeTimings) := by
  intro field member
  simp only [completion, TaskStore.Write.fields, List.mem_cons, List.not_mem_nil, or_false] at member
  rcases member with rfl | rfl | rfl | rfl | rfl | rfl
  · exact ⟨some round.sql, rfl⟩
  · exact round.execResult.admits
  · trivial
  · trivial
  · refine .inr ⟨rounds ++ [round], by simpa using room, ?_⟩
    rw [numbered_concat, numbered_length]
  · trivial

theorem Stored.merged (stored : Stored d) {write : TaskStore.Write} (sound : SoundWrite write)
    (now : String) : Stored (TaskStore.merged now d write.fields) := by
  apply stored.update
  intro field member
  rcases List.mem_append.mp member with new | stamp
  · exact sound field new
  · rw [List.mem_singleton.mp stamp]
    trivial

theorem Stored.get (stored : Stored d) (key : String) {initial : Json}
    (fallback : (kindOf key).Admits initial) :
    (kindOf key).Admits (get d key initial) := by
  unfold FeedbackRounds.get
  cases found : d.lookup key with
  | none => exact fallback
  | some value => exact stored.admits found

/-- The API counts the turns that the worker will find in the message. -/
theorem history_of_turnCount {turns : Nat} (stored : Stored d)
    (counted : TaskThreads.turnCount d = some turns)
    (room : turns + 1 ≤ JavaTaskState.feedbackMaxTurns) :
    ∃ rounds, pyList (get d "conversation_turns" (.arr [])) = some (numbered rounds) ∧
      rounds.length + 1 ≤ JavaTaskState.feedbackMaxTurns := by
  unfold FeedbackRounds.get
  cases found : d.lookup "conversation_turns" with
  | none => exact ⟨[], rfl, by decide⟩
  | some value =>
    rcases stored.admits found with rfl | ⟨rounds, -, rfl⟩
    · exact ⟨[], rfl, by decide⟩
    · simp only [TaskThreads.turnCount, found, numbered_length, Option.some.injEq] at counted
      exact ⟨rounds, rfl, by omega⟩

theorem apiPayload_feedback (text : Option String) (turns : Nat) (d : Doc) :
    (apiPayload text turns d).lookup "feedback" = some (TaskStore.text text) :=
  Doc.lookup_update_mem _ _ _ _ (by simp) (by simp)

theorem apiPayload_sql (text : Option String) (turns : Nat) (d : Doc) :
    (apiPayload text turns d).lookup "sql" = some (get d "sql" (.str "")) :=
  Doc.lookup_update_mem _ _ _ _ (by simp) (by simp)

theorem apiPayload_turns (text : Option String) (turns : Nat) (d : Doc) :
    (apiPayload text turns d).lookup "conversation_turns" =
      some (get d "conversation_turns" (.arr [])) :=
  Doc.lookup_update_mem _ _ _ _ (by simp) (by simp)

theorem apiPayload_carried (text : Option String) {turns : Nat} (stored : Stored d)
    (counted : TaskThreads.turnCount d = some turns)
    (room : turns + 1 ≤ JavaTaskState.feedbackMaxTurns) : Carried (apiPayload text turns d) := by
  refine ⟨stored_ofFields ?_ (by simp), ?_, ⟨text, apiPayload_feedback text turns d⟩, ?_, ?_⟩
  · intro field member
    simp only [List.mem_cons, List.not_mem_nil, or_false] at member
    rcases member with rfl | rfl | rfl | rfl | rfl | rfl | rfl | rfl | rfl | rfl
    · trivial
    · trivial
    · exact stored.get "question" ⟨_, rfl⟩
    · exact stored.get "db_id" ⟨some "", rfl⟩
    · exact stored.get "database_url" ⟨some "", rfl⟩
    · exact stored.get "sql" ⟨some "", rfl⟩
    · exact stored.get "exec_result" Held.nothing.admits
    · exact stored.get "conversation_turns" (.inr ⟨[], by decide, rfl⟩)
    · trivial
    · trivial
  · rw [apiPayload_sql]
    rfl
  · rw [history, FeedbackRounds.get, apiPayload_turns]
    exact history_of_turnCount stored counted room
  · intro key member
    apply Doc.lookup_update_other _ _ _
    simp only [List.mem_cons, List.not_mem_nil, or_false] at member
    rcases member with rfl | rfl | rfl | rfl <;> simp

theorem turns_numbered (sound : Sound s) : ∃ rounds, turns s = numbered rounds := by
  rcases sound.turns with empty | ⟨rounds, -, list⟩
  · exact ⟨[], by simp [turns, empty]⟩
  · exact ⟨rounds, by simp [turns, list]⟩

theorem gatewayPayload_feedback (text : Option String) (s : TaskState) :
    (gatewayPayload text s).lookup "feedback" = some (TaskStore.text text) :=
  Doc.lookup_update_mem _ _ _ _ (by simp) (by simp)

theorem gatewayPayload_sql (text : Option String) (s : TaskState) :
    (gatewayPayload text s).lookup "sql" = some (TaskStore.text s.sql) :=
  Doc.lookup_update_mem _ _ _ _ (by simp) (by simp)

theorem gatewayPayload_turns (text : Option String) (s : TaskState) :
    (gatewayPayload text s).lookup "conversation_turns" = some (.arr (turns s)) :=
  Doc.lookup_update_mem _ _ _ _ (by simp) (by simp)

theorem gatewayPayload_carried (text : Option String) (sound : Sound s)
    (room : (turns s).length + 1 ≤ JavaTaskState.feedbackMaxTurns) :
    Carried (gatewayPayload text s) := by
  obtain ⟨q, question⟩ := sound.question
  obtain ⟨rounds, list⟩ := turns_numbered sound
  rw [list, numbered_length] at room
  refine ⟨stored_ofFields ?_ (by simp), ?_, ⟨text, gatewayPayload_feedback text s⟩,
    ⟨rounds, ?_, room⟩, ?_⟩
  · intro field member
    simp only [List.mem_cons, List.not_mem_nil, or_false] at member
    rcases member with rfl | rfl | rfl | rfl | rfl | rfl | rfl | rfl | rfl | rfl
    · trivial
    · trivial
    · exact ⟨q, by rw [question]; rfl⟩
    · exact ⟨_, rfl⟩
    · exact ⟨_, rfl⟩
    · exact ⟨_, rfl⟩
    · exact sound.execResult
    · exact .inr ⟨rounds, by omega, by rw [list]⟩
    · trivial
    · trivial
  · rw [gatewayPayload_sql]
    rfl
  · rw [history, FeedbackRounds.get, gatewayPayload_turns, list]
    rfl
  · intro key member
    apply Doc.lookup_update_other _ _ _
    simp only [List.mem_cons, List.not_mem_nil, or_false] at member
    rcases member with rfl | rfl | rfl | rfl <;> simp

def Effect.Sound : Effect → Prop
  | .task (.create submission) => ∀ now, Stored (submission.document now)
  | .task (.update _ basis write) => Stored basis ∧ SoundWrite write
  | .task (.save s _) => FeedbackRounds.Sound s
  | .task _ => True
  | .publish payload => Carried payload
  | .startRound payload => Carried payload
  | .complete basis history _ _ _ => Stored basis ∧
      ∃ rounds, history = numbered rounds ∧ rounds.length + 1 ≤ JavaTaskState.feedbackMaxTurns

/-- What is read of the document is stored. -/
def Answered : (e : Effect) → e.Answer → Prop
  | .task .read, r => ∀ d ∈ (show Option Doc from r), Stored d
  | _, _ => True

/-- As long as what it reads is stored, a program stores only what fits. -/
def careful : Prog.Protocol Effect Effect.Answer Unit where
  allows _ e := e.Sound
  next _ e r _ := Answered e r
  final _ := True

/-- A part of the code as `TaskThreads` has it keeps to that, with `post` of its result. -/
def Safe (p : TaskThreads.Task α) (post : α → Prop) : Prop :=
  p.Keeps (careful.comap Effect.task fun _ r => r) (fun a _ => post a) ()

section Programs

variable {α β : Type} {p : TaskThreads.Task α} {post : α → Prop} {later : β → Prop}
  {f : α → TaskThreads.Task β} {e : TaskThreads.Effect} {write : TaskStore.Write}

/-- The program keeps to that, with `post` of its result. -/
def Careful (p : Task α) (post : α → Prop) : Prop := p.Keeps careful (fun a _ => post a) ()

theorem Safe.calls (safe : Safe p post) : Careful (calls p) post :=
  Prog.keeps_embed Effect.task (fun _ r => r) safe

theorem Safe.bind (first : Safe p post) (rest : ∀ a, post a → Safe (f a) later) :
    Safe (p >>= f) later :=
  Prog.keeps_bind first fun a _ holds => rest a holds

theorem safe_pure {a : α} (holds : post a) : Safe (pure a) post := holds

theorem safe_ask (sound : (Effect.task e).Sound) : Safe (TaskThreads.ask e) fun _ => True :=
  ⟨sound, fun _ _ _ => trivial⟩

theorem Safe.ite {q : TaskThreads.Task α} {c : Prop} [Decidable c] (yes : Safe p post)
    (no : Safe q post) : Safe (if c then p else q) post := by
  by_cases holds : c
  · rwa [if_pos holds]
  · rwa [if_neg holds]

theorem safe_taskGet : Safe TaskThreads.taskGet fun r => ∀ d ∈ r, Stored d :=
  ⟨trivial, fun _ _ ⟨_, same, next⟩ => same ▸ next⟩

theorem safe_isCancelled : Safe TaskThreads.taskIsCancelled fun _ => True :=
  safe_ask (e := .isCancelled) trivial

theorem safe_clearCancel : Safe TaskThreads.taskClearCancel fun _ => True :=
  safe_ask (e := .clearCancel) trivial

theorem safe_taskUpdate (seen : List String) (sound : SoundWrite write) :
    Safe (TaskThreads.taskUpdate seen write) fun _ => True := by
  apply safe_taskGet.bind
  intro current stored
  cases current with
  | none => exact safe_pure trivial
  | some d => exact safe_ask ⟨stored d rfl, sound⟩

theorem safe_taskTransition (sound : SoundWrite write) :
    Safe (TaskThreads.taskTransition write) fun _ => True :=
  safe_taskGet.bind fun _ _ => .ite (safe_taskUpdate _ sound) (safe_pure trivial)

theorem safe_decided (status : String) (error : Option String) :
    Safe (TaskThreads.taskTransition (.ended status error)) fun _ => True :=
  safe_taskTransition (sound_ended status error)

theorem safe_feedbackTransition : Safe TaskThreads.feedbackTransition fun _ => True := by
  apply safe_taskGet.bind
  intro current _
  cases current with
  | none => exact safe_pure trivial
  | some d => exact .ite (safe_taskUpdate _ sound_feedbackStarted) (safe_pure trivial)

theorem safe_gatewayGet : Safe TaskThreads.gatewayGet fun r => ∀ s ∈ r, Sound s := by
  refine safe_taskGet.bind fun current stored => safe_pure ?_
  intro s member
  obtain ⟨d, there, decoded⟩ := Option.bind_eq_some_iff.mp member
  exact (stored d there).decoded decoded

theorem safe_submit (submission : Submission) :
    Safe (TaskThreads.submit submission.stored) fun _ => True := by
  have created : Safe (TaskThreads.ask (.create submission.stored)) fun _ => True :=
    safe_ask fun now => submitted_stored submission now
  apply created.bind
  intro _ _
  cases submission with
  | cached => exact safe_pure trivial
  | api => exact safe_ask (e := .publishRequest 0) trivial
  | gateway => exact safe_ask (e := .publishRequest 0) trivial

theorem safe_taskCancel (endpoint : TaskThreads.Endpoint) :
    Safe (TaskThreads.taskCancel endpoint) fun _ => True := by
  have requested : Safe (TaskThreads.ask .requestCancel) fun _ => True :=
    safe_ask (e := .requestCancel) trivial
  cases endpoint with
  | api =>
    apply safe_taskGet.bind
    intro current _
    cases current with
    | none => exact safe_pure trivial
    | some d => exact .ite (safe_pure trivial) requested
  | gateway =>
    apply safe_gatewayGet.bind
    intro current _
    cases current with
    | none => exact safe_pure trivial
    | some s => exact .ite (safe_pure trivial) requested

theorem safe_scanStale (endpoint : TaskThreads.Endpoint) :
    Safe (TaskThreads.scanStale endpoint) fun _ => True := by
  have looked : Safe (TaskThreads.ask .heartbeat) fun _ => True :=
    safe_ask (e := .heartbeat) trivial
  cases endpoint with
  | api =>
    apply safe_taskGet.bind
    intro current _
    cases current with
    | none => exact safe_pure trivial
    | some d =>
      refine .ite (looked.bind fun heartbeat _ => ?_) (safe_pure trivial)
      cases TaskThreads.Heartbeat.lost heartbeat with
      | none => exact safe_pure trivial
      | some reason => exact safe_decided _ _
  | gateway =>
    apply safe_gatewayGet.bind
    intro current sound
    cases current with
    | none => exact safe_pure trivial
    | some s =>
      refine .ite (looked.bind fun heartbeat _ => ?_) (safe_pure trivial)
      cases TaskThreads.Heartbeat.lost heartbeat with
      | none => exact safe_pure trivial
      | some reason => exact safe_ask (e := .save s .scanStale) (sound s rfl)

theorem safe_stepDone (step : List TaskThreads.NodeDone) :
    Safe (TaskThreads.stepDone step) fun _ => True := by
  induction step with
  | nil => exact safe_pure trivial
  | cons n rest ih => exact (safe_taskUpdate [] (sound_node n)).bind fun _ _ => ih

theorem safe_settle (run : Nat) (result : TaskThreads.Result) :
    Safe (TaskThreads.ask (.settle run result)) fun _ => True :=
  safe_ask (e := .settle run result) trivial

theorem safe_graphLoop (run : Nat) {ending : Except String TaskStore.Write}
    (sound : ∀ write, ending = .ok write → SoundWrite write)
    (steps : List (List TaskThreads.NodeDone)) :
    Safe (TaskThreads.graphLoop run ending steps) fun _ => True := by
  induction steps with
  | nil =>
    cases ending with
    | error error => exact safe_settle run _
    | ok done => exact (safe_taskUpdate [] (sound done rfl)).bind fun _ _ => safe_settle run _
  | cons step rest ih =>
    refine safe_isCancelled.bind fun cancelled _ => .ite ?_ ?_
    · exact (safe_decided _ _).bind fun _ _ => safe_clearCancel.bind fun _ _ => safe_settle run _
    · exact (safe_stepDone step).bind fun _ _ => ih

theorem safe_runGraph (run : Nat) (graph : Graph TaskThreads.Context) :
    Safe (TaskThreads.runGraph run graph.run) fun _ => True := by
  refine safe_graphLoop run (fun write done => ?_) _
  obtain ⟨steps, ending⟩ := graph
  cases ending with
  | error error => contradiction
  | ok result =>
    obtain rfl := Except.ok.inj done
    exact sound_graphDone result.1 result.2

theorem safe_handleTask (retryCount : Fin 4) :
    Safe (TaskThreads.handleTask retryCount) fun _ => True := by
  refine safe_isCancelled.bind fun cancelled _ => .ite (safe_decided _ _) ?_
  apply (safe_taskTransition (sound_running retryCount)).bind
  intro _ _
  have started : Safe (TaskThreads.ask .startGraph) fun _ => True :=
    safe_ask (e := .startGraph) trivial
  have waits (run : Nat) : Safe (TaskThreads.ask (.await run)) fun _ => True :=
    safe_ask (e := .await run) trivial
  have withdrawn (error : String) : Safe (do
      TaskThreads.taskTransition (.ended "CANCELLED" (some error))
      TaskThreads.taskClearCancel) fun _ => True :=
    (safe_decided _ _).bind fun _ _ => safe_clearCancel
  refine started.bind fun run _ => (waits run).bind fun waited _ => ?_
  cases (waited : TaskThreads.Waited) with
  | timedOut =>
    exact safe_isCancelled.bind fun cancelled _ => .ite (withdrawn _) (safe_decided _ _)
  | done result =>
    cases result with
    | returned cancelled => exact .ite (safe_pure trivial) (safe_decided _ _)
    | raised error =>
      refine safe_isCancelled.bind fun cancelled _ => .ite (withdrawn _) (.ite ?_ (safe_decided _ _))
      have again : Safe (TaskThreads.ask (.publishRequest (retryCount + 1))) fun _ => True :=
        safe_ask (e := .publishRequest (retryCount + 1)) trivial
      exact again.bind fun _ _ => safe_taskUpdate [] (sound_retried _ _)

theorem Careful.bind {p : Task α} {f : α → Task β} (first : Careful p post)
    (rest : ∀ a, post a → Careful (f a) later) : Careful (p >>= f) later :=
  Prog.keeps_bind first fun a _ holds => rest a holds

theorem careful_pure {a : α} (holds : post a) : Careful (pure a) post := holds

theorem Careful.ite {p q : Task α} {c : Prop} [Decidable c] (yes : c → Careful p post)
    (no : Careful q post) : Careful (if c then p else q) post := by
  by_cases holds : c
  · rw [if_pos holds]
    exact yes holds
  · rwa [if_neg holds]

theorem careful_publish {payload : Doc} (carried : Carried payload) :
    Careful (ask (.publish payload)) fun _ => True := ⟨carried, fun _ _ _ => trivial⟩

theorem careful_taskFeedback (text : Option String) (endpoint : TaskThreads.Endpoint) :
    Careful (taskFeedback text endpoint) fun _ => True := by
  cases endpoint with
  | api =>
    apply safe_taskGet.calls.bind
    intro current stored
    cases current with
    | none => exact careful_pure trivial
    | some d =>
      refine .ite (fun _ => ?_) (careful_pure trivial)
      cases counted : TaskThreads.turnCount d with
      | none => exact careful_pure trivial
      | some turns =>
        refine .ite (fun room => ?_) (careful_pure trivial)
        exact (careful_publish (apiPayload_carried text (stored d rfl) counted room)).bind
          fun _ _ => safe_feedbackTransition.calls
  | gateway =>
    apply safe_gatewayGet.calls.bind
    intro current sound
    cases current with
    | none => exact careful_pure trivial
    | some s =>
      refine .ite (fun accepted => ?_) (careful_pure trivial)
      refine (careful_publish (gatewayPayload_carried text (sound s rfl) accepted.2)).bind
        fun raised _ => ?_
      cases (raised : Bool) with
      | true => exact careful_pure trivial
      | false => exact (safe_ask (e := .save s .feedback) (sound s rfl)).calls

theorem careful_completeRound {rounds : List Round}
    (room : rounds.length < JavaTaskState.feedbackMaxTurns) (round : Round)
    (tokenUsage nodeTimings : List (String × Json)) :
    Careful (completeRound (numbered rounds) round tokenUsage nodeTimings) fun _ => True := by
  apply safe_taskGet.calls.bind
  intro current stored
  cases current with
  | none => exact careful_pure trivial
  | some d => exact ⟨⟨stored d rfl, rounds, rfl, room⟩, fun _ _ _ => trivial⟩

theorem careful_finishRound (run : Nat) {payload : Doc} (carried : Carried payload)
    (ending : Except String (Yield × String)) :
    Careful (finishRound run payload ending) fun _ => True := by
  cases ending with
  | error error => exact (safe_settle run _).calls
  | ok result =>
    obtain ⟨rounds, sent, room⟩ := carried.history
    simp only [finishRound, sent]
    exact (careful_completeRound room _ _ _).bind fun _ _ => (safe_settle run _).calls

theorem careful_runFeedbackGraph (run : Nat) {payload : Doc} (carried : Carried payload)
    (graph : Graph String) : Careful (runFeedbackGraph run payload graph) fun _ => True := by
  apply safe_taskGet.calls.bind
  intro _ _
  induction graph.steps with
  | nil => exact careful_finishRound run carried _
  | cons step rest ih =>
    refine safe_isCancelled.calls.bind fun cancelled _ => .ite (fun _ => ?_) ?_
    · exact (safe_decided _ _).calls.bind fun _ _ =>
        safe_clearCancel.calls.bind fun _ _ => (safe_settle run _).calls
    · exact (safe_stepDone step).calls.bind fun _ _ => ih

theorem careful_handleFeedback {payload : Doc} (carried : Carried payload) :
    Careful (handleFeedback payload) fun _ => True := by
  refine safe_taskGet.calls.bind fun existing _ => .ite (fun _ => careful_pure trivial) ?_
  apply safe_feedbackTransition.calls.bind
  intro _ _
  have started : Careful (ask (.startRound payload)) fun _ => True :=
    ⟨carried, fun _ _ _ => trivial⟩
  have waits (run : Nat) : Safe (TaskThreads.ask (.await run)) fun _ => True :=
    safe_ask (e := .await run) trivial
  refine started.bind fun run _ => (waits run).calls.bind fun waited _ => ?_
  cases (waited : TaskThreads.Waited) with
  | timedOut => exact (safe_decided _ _).calls
  | done result =>
    cases result with
    | returned cancelled =>
      exact .ite (fun _ => careful_pure trivial) (safe_decided _ _).calls
    | raised error => exact (safe_decided _ _).calls

end Programs

/-- The message that the thread works on was published. -/
def Desc.Fine : Desc → Prop
  | .handleFeedback payload => Carried payload
  | .runFeedbackGraph _ payload _ => Carried payload
  | _ => True

theorem body_careful {d : Desc} (fine : d.Fine) : (body d).Follows careful () := by
  have ends {p : Task Unit} (keeps : Careful p fun _ => True) : p.Follows careful () :=
    Prog.Keeps.follows keeps fun _ _ _ => trivial
  cases d with
  | submit submission => exact ends (safe_submit submission).calls
  | cancel endpoint => exact ends (safe_taskCancel endpoint).calls
  | scanStale endpoint => exact ends (safe_scanStale endpoint).calls
  | feedback endpoint text => exact ends (careful_taskFeedback text endpoint)
  | handleTask retryCount => exact ends (safe_handleTask retryCount).calls
  | runGraph run graph => exact ends (safe_runGraph run graph).calls
  | handleFeedback payload => exact ends (careful_handleFeedback fine)
  | runFeedbackGraph run payload graph => exact ends (careful_runFeedbackGraph run fine graph)

/-- The document and every published payload hold what fits. -/
structure Kept (w : World) : Prop where
  doc : ∀ d ∈ w.task.doc, Stored d
  payloads : ∀ payload ∈ w.payloads, Carried payload

theorem Kept.after {w : World} (kept : Kept w) {c : Choice} {e : Effect} {r : e.Answer}
    (sound : e.Sound) (replied : reply w c e = some r) : Kept (w.after c e) := by
  have stores {d : Doc} (stored : Stored d) : ∀ d' ∈ some d, Stored d' := by
    rintro d' ⟨⟩
    exact stored
  cases e with
  | publish payload => exact ⟨kept.doc, List.forall_mem_cons.mpr ⟨sound, kept.payloads⟩⟩
  | startRound payload => exact ⟨kept.doc, kept.payloads⟩
  | complete basis history round tokenUsage nodeTimings =>
    obtain ⟨stored, rounds, rfl, room⟩ := sound
    exact ⟨stores (stored.merged (sound_completion round room _ _) _), kept.payloads⟩
  | task e =>
    cases e with
    | create submission => exact ⟨stores (sound c.now), kept.payloads⟩
    | update seen basis write => exact ⟨stores (sound.1.merged sound.2 _), kept.payloads⟩
    | save s operation => exact ⟨stores (FeedbackRounds.Sound.saved sound _ _), kept.payloads⟩
    | _ => exact ⟨kept.doc, kept.payloads⟩

theorem Kept.answered {w : World} (kept : Kept w) {c : Choice} {e : Effect} {r : e.Answer}
    (replied : reply w c e = some r) : Answered e r := by
  cases e with
  | task e =>
    cases e with
    | read =>
      obtain rfl := Option.some.inj replied
      exact kept.doc
    | _ => trivial
  | _ => trivial

/-- Whatever the threads do, only what fits is stored and sent. -/
def storing : Threads.Outline system fun _ _ _ _ => True where
  inv := Kept
  ok _ t := t.rest.Follows careful ()
  apart _ _ := True
  own := by
    intro w choice d e k w' r forks kept follows _ performed
    obtain ⟨rfl, replied, rfl⟩ := perform_after performed
    refine ⟨kept.after follows.1 replied, follows.2 r () (kept.answered replied), ?_⟩
    intro f forked
    apply body_careful
    cases e with
    | startRound payload =>
      obtain rfl := List.mem_singleton.mp forked
      exact follows.1
    | task e =>
      cases e with
      | startGraph =>
        obtain rfl := List.mem_singleton.mp forked
        trivial
      | _ => simp [World.starts] at forked
    | _ => simp [World.starts] at forked
  stable := fun _ _ _ _ follows _ => follows
  fork_apart := by
    intro w choice d e k w' r forks _ _ performed
    refine ⟨fun _ _ _ _ => ⟨trivial, trivial⟩, List.pairwise_of_forall fun _ _ => ⟨trivial, trivial⟩⟩
  arrive := by
    intro w d w' kept arrived
    have same : w' = w ∧ d.Fine := by
      cases d with
      | feedback endpoint text =>
        obtain ⟨-, same⟩ := Option.ite_none_right_eq_some.mp arrived
        exact ⟨(Option.some.inj same).symm, trivial⟩
      | handleTask retryCount =>
        obtain ⟨-, same⟩ := Option.ite_none_right_eq_some.mp arrived
        exact ⟨(Option.some.inj same).symm, trivial⟩
      | handleFeedback payload =>
        obtain ⟨published, same⟩ := Option.ite_none_right_eq_some.mp arrived
        exact ⟨(Option.some.inj same).symm, kept.payloads payload published⟩
      | runGraph run graph => contradiction
      | runFeedbackGraph run payload graph => contradiction
      | _ => exact ⟨(Option.some.inj arrived).symm, trivial⟩
    obtain ⟨rfl, fine⟩ := same
    exact ⟨kept, body_careful fine, fun _ follows => ⟨follows, trivial, trivial⟩⟩
  ambient := fun {_ x} => nomatch x

theorem start_kept : storing.Holds start :=
  storing.holds_empty (w := start.world)
    ⟨fun _ member => (nomatch member), fun _ member => (nomatch member)⟩

theorem run_kept (events : List (Event Desc Choice Empty))
    {c : Config Effect Effect.Answer World Desc}
    (run : system.machine.exec start events = some c) : storing.Holds c :=
  storing.run start_kept (Machine.Along.mono Machine.along_true
    fun s e t _ => Threads.meets_true system s t e) run

end FeedbackRounds
end Nl2SqlAgent

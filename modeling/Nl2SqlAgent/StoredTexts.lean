import Nl2SqlAgent.Lib.JsonText
import Nl2SqlAgent.Lib.Simulation
import Nl2SqlAgent.TaskStore

/-! The JSON texts at `task:{id}` (`infrastructure/task_store.py`). Any number of callers create,
read and update the states, one Redis command at a time, and the keys expire; the texts do what
the documents of `TaskStore` do in the same run. -/
namespace Nl2SqlAgent

open Lib

namespace StoredTexts

/-- A state as Python holds it, its keys in the order in which they were set. -/
abbrev State := PyDict String Json

/-- `_ttl_for_status`, in milliseconds. -/
def ttlForStatus (status : Json) : Nat :=
  if status ∈ [.str "PENDING", .str "RUNNING"] then 7200000
  else if status = .str "TIMEOUT" then 3600000
  else if status ∈ [.str "SUCCESS", .str "FAILED", .str "CANCELLED"] then 86400000
  else 7200000

/-- `state.get("status", "PENDING")`. -/
def statusOf (state : State) : Json := (state.lookup "status").getD (.str "PENDING")

/-- What a call ends with. -/
inductive Outcome (A : Type) where
  | returned (state : Option A)
  | raised

/-- The commands on the keys, by what is stored (`S`) and read (`A`) there, and the end of a
call. -/
inductive Effect (S A : Type) where
  | get (taskId : String)
  | setex (taskId : String) (state : S)
  | done (outcome : Outcome A)

def Answer {S A : Type} : Effect S A → Type
  | .get _ => Option A
  | _ => Unit

abbrev Task (S A α : Type) := Prog (Effect S A) Answer α

def ask {S A : Type} (e : Effect S A) : Task S A (Answer e) := Prog.perform e

/-- The state that `task_create` initialises. -/
def initialised (taskId question dbId databaseUrl created updated : String) : State := [
  ("task_id", .str taskId),
  ("status", .str "PENDING"),
  ("question", .str (Py.take 200 question)),
  ("db_id", .str dbId),
  ("database_url", .str databaseUrl),
  ("progress", .int 0),
  ("node", .null),
  ("sql", .null),
  ("exec_result", .null),
  ("token_usage", .obj []),
  ("node_timings", .obj []),
  ("retry_count", .int 0),
  ("error", .null),
  ("created_at", .str created),
  ("updated_at", .str updated)]

def taskCreate (taskId question dbId databaseUrl created updated : String) :
    Task State Json (Outcome Json) := do
  let state := initialised taskId question dbId databaseUrl created updated
  let _ ← ask (.setex taskId state)
  return .returned (some (.obj state))

def taskGet (taskId : String) : Task State Json (Outcome Json) := do
  let found : Option Json ← ask (.get taskId)
  return .returned found

/-- `task_update`; what is no dictionary has no `update`. -/
def taskUpdate (taskId : String) (fields : List (String × Json)) (now : String) :
    Task State Json (Outcome Json) := do
  match ← ask (.get taskId) with
  | none => return .returned none
  | some (.obj state) => do
    let state := PyDict.set (PyDict.update state fields) "updated_at" (.str now)
    let _ ← ask (.setex taskId state)
    return .returned (some (.obj state))
  | some _ => return .raised

/-- `_valid_transition` from a state; a list or a dictionary is no key of the table. -/
def validTransition (current : State) (next : String) : Option Bool :=
  match statusOf current with
  | .str cur => some (next ∈ TaskStore.allowed cur)
  | .arr _ | .obj _ => none
  | _ => some false

/-- `task_transition`. -/
def taskTransition (taskId status : String) (extra : List (String × Json)) (now : String) :
    Task State Json (Outcome Json) := do
  match ← ask (.get taskId) with
  | none =>
    if status = "PENDING" then taskUpdate taskId (("status", .str status) :: extra) now
    else return .returned none
  | some (.obj current) =>
    match validTransition current status with
    | none => return .raised
    | some false => return .returned (some (.obj current))
    | some true => taskUpdate taskId (("status", .str status) :: extra) now
  | some _ => return .raised

/-- `feedback_transition`. -/
def feedbackTransition (taskId now : String) : Task State Json (Outcome Json) := do
  match ← ask (.get taskId) with
  | none => return .returned none
  | some (.obj current) =>
    if current.lookup "status" ∈ [some (.str "SUCCESS"), some (.str "FAILED")] then
      taskUpdate taskId [("status", .str "RUNNING"), ("node", .null), ("progress", .int 0)] now
    else return .returned (some (.obj current))
  | some _ => return .raised

/-- A call of the store's functions, with its time stamps. -/
inductive Call where
  | create (taskId question dbId databaseUrl created updated : String)
  | get (taskId : String)
  | update (taskId : String) (fields : List (String × Json)) (now : String)
  | transition (taskId status : String) (extra : List (String × Json)) (now : String)
  | feedback (taskId now : String)

def Call.run : Call → Task State Json (Outcome Json)
  | .create taskId question dbId databaseUrl created updated =>
    taskCreate taskId question dbId databaseUrl created updated
  | .get taskId => taskGet taskId
  | .update taskId fields now => taskUpdate taskId fields now
  | .transition taskId status extra now => taskTransition taskId status extra now
  | .feedback taskId now => feedbackTransition taskId now

/-- The keys, each with what is stored and the time at which it expires, and how the calls have
ended, the latest first. -/
structure World (S A : Type) where
  clock : Nat := 0
  cells : String → Option (S × Nat) := fun _ => none
  log : List (Outcome A) := []

/-- What is stored, while it lives. -/
def World.live {S A : Type} (w : World S A) (taskId : String) : Option S :=
  ((w.cells taskId).filter fun cell => w.clock < cell.2).map Prod.fst

def World.put {S A : Type} (w : World S A) (taskId : String) (stored : S) (ttl : Nat) : World S A :=
  { w with cells := Function.update w.cells taskId (some (stored, w.clock + ttl)) }

def World.ended {S A : Type} (w : World S A) (outcome : Outcome A) : World S A :=
  { w with log := outcome :: w.log }

/-- What is no JSON is answered like a key that is missing. An ambient move is the time that
passes. -/
def texts (num : JsonText.Numerals) :
    Threads (Effect State Json) Answer (World (List Char) Json) Call Unit Nat where
  body call := do
    let outcome ← call.run
    let _ ← ask (.done outcome)
  perform w _ e := some <| match e with
    | .get taskId => (w, (w.live taskId).bind (JsonText.read num), [])
    | .setex taskId state =>
      (w.put taskId (JsonText.write num (.obj state)) (ttlForStatus (statusOf state)), (), [])
    | .done outcome => (w.ended outcome, (), [])
  arrive w _ := some w
  ambient w ms := some { w with clock := w.clock + ms }

/-- The state of a new task, which reads the clock twice. -/
def created (taskId question dbId databaseUrl created updated : String) : Doc :=
  (TaskStore.taskCreate taskId question dbId databaseUrl created).insert "updated_at" (.str updated)

def docUpdate (taskId : String) (fields : List (String × Json)) (now : String) :
    Task Doc Doc (Outcome Doc) := do
  match ← ask (.get taskId) with
  | none => return .returned none
  | some d => do
    let _ ← ask (.setex taskId (TaskStore.merged now d fields))
    return .returned (some (TaskStore.merged now d fields))

def docTransition (taskId status : String) (extra : List (String × Json)) (now : String) :
    Task Doc Doc (Outcome Doc) := do
  let current : Option Doc ← ask (.get taskId)
  if TaskStore.validTransition current status then
    docUpdate taskId (("status", .str status) :: extra) now
  else return .returned current

def docFeedback (taskId now : String) : Task Doc Doc (Outcome Doc) := do
  match ← ask (.get taskId) with
  | none => return .returned none
  | some d =>
    if TaskStore.status d ∈ ["SUCCESS", "FAILED"] then
      docUpdate taskId TaskStore.Write.feedbackStarted.fields now
    else return .returned (some d)

def Call.document : Call → Task Doc Doc (Outcome Doc)
  | .create taskId question dbId databaseUrl created updated => do
    let d := StoredTexts.created taskId question dbId databaseUrl created updated
    let _ ← ask (.setex taskId d)
    return .returned (some d)
  | .get taskId => do
    let found : Option Doc ← ask (.get taskId)
    return .returned found
  | .update taskId fields now => docUpdate taskId fields now
  | .transition taskId status extra now => docTransition taskId status extra now
  | .feedback taskId now => docFeedback taskId now

def documents : Threads (Effect Doc Doc) Answer (World Doc Doc) Call Unit Nat where
  body call := do
    let outcome ← call.document
    let _ ← ask (.done outcome)
  perform w _ e := some <| match e with
    | .get taskId => (w, w.live taskId, [])
    | .setex taskId d => (w.put taskId d (ttlForStatus (.str (TaskStore.status d))), (), [])
    | .done outcome => (w.ended outcome, (), [])
  arrive w _ := some w
  ambient w ms := some { w with clock := w.clock + ms }

variable {num : JsonText.Numerals}

/-- Every field can be written, and a status is a text. -/
def Fit (num : JsonText.Numerals) (fields : List (String × Json)) : Prop :=
  ∀ field ∈ fields, JsonText.Writable num field.2 ∧ (field.1 = "status" → ∃ s, field.2 = .str s)

/-- The state can be written, and has the fields of the document. -/
structure Sound (num : JsonText.Numerals) (state : State) (d : Doc) : Prop where
  alike : ∀ key, state.lookup key = d.lookup key
  distinct : (state.map Prod.fst).Nodup
  fit : Fit num state

section Fields

variable {state : State} {d : Doc}

theorem Fit.writable (fit : Fit num state) : JsonText.WritableFields num state := by
  induction state with
  | nil => trivial
  | cons field rest ih =>
    obtain ⟨first, others⟩ := List.forall_mem_cons.mp fit
    exact ⟨first.1, ih others⟩

theorem Sound.writable (sound : Sound num state d) : JsonText.Writable num (.obj state) :=
  ⟨sound.distinct, sound.fit.writable⟩

theorem Sound.set (sound : Sound num state d) {key : String} {value : Json}
    (fit : JsonText.Writable num value ∧ (key = "status" → ∃ s, value = .str s)) :
    Sound num (PyDict.set state key value) (d.insert key value) := by
  refine ⟨fun k => ?_, ?_, fun field member => ?_⟩
  · rw [PyDict.lookup_set]
    by_cases same : k = key
    · rw [if_pos same, same, AList.lookup_insert]
    · rw [if_neg same, AList.lookup_insert_ne same, sound.alike]
  · rw [PyDict.keys_set]
    by_cases known : key ∈ state.map Prod.fst
    · rw [if_pos known]
      exact sound.distinct
    · rw [if_neg known]
      exact sound.distinct.append (List.nodup_singleton _) (List.disjoint_singleton.mpr known)
  · rcases PyDict.mem_set member with rfl | old
    · exact fit
    · exact sound.fit field old

/-- By induction on the fields, which are set one after the other. -/
theorem Sound.update (sound : Sound num state d) {fields : List (String × Json)}
    (fit : Fit num fields) : Sound num (PyDict.update state fields) (d.update fields) := by
  induction fields generalizing state d with
  | nil => exact sound
  | cons field rest ih =>
    obtain ⟨first, others⟩ := List.forall_mem_cons.mp fit
    exact ih (sound.set first) others

theorem fit_text (key s : String) :
    JsonText.Writable num (.str s) ∧ (key = "status" → ∃ s', Json.str s = .str s') :=
  ⟨trivial, fun _ => ⟨s, rfl⟩⟩

/-- What `task_update` writes is the merged document. -/
theorem Sound.merged (sound : Sound num state d) {fields : List (String × Json)}
    (fit : Fit num fields) (now : String) :
    Sound num (PyDict.set (PyDict.update state fields) "updated_at" (.str now))
      (TaskStore.merged now d fields) := by
  have both := (sound.update fit).set (fit_text "updated_at" now)
  rw [TaskStore.merged, Doc.update, List.foldl_append]
  exact both

theorem sound_empty : Sound num [] ∅ :=
  ⟨fun _ => rfl, List.nodup_nil, fun _ member => nomatch member⟩

theorem initialised_fit (taskId question dbId databaseUrl first last : String) :
    Fit num (initialised taskId question dbId databaseUrl first last) := by
  simp [Fit, initialised, JsonText.Writable, JsonText.WritableFields]

/-- What `task_create` writes is the document of a new task. -/
theorem sound_created (taskId question dbId databaseUrl first last : String) :
    Sound num (initialised taskId question dbId databaseUrl first last)
      (created taskId question dbId databaseUrl first last) := by
  have fields : PyDict.update [] (initialised taskId question dbId databaseUrl first first) =
      initialised taskId question dbId databaseUrl first first :=
    JsonText.update_distinct [] _ (by simp [initialised])
  have clock : PyDict.set (initialised taskId question dbId databaseUrl first first) "updated_at"
      (.str last) = initialised taskId question dbId databaseUrl first last := by
    simp [initialised, PyDict.set]
  have sound : Sound num _ (created taskId question dbId databaseUrl first last) :=
    (sound_empty.update (initialised_fit taskId question dbId databaseUrl first first)).set
      (fit_text "updated_at" last)
  rwa [fields, clock] at sound

theorem Sound.status (sound : Sound num state d) : statusOf state = .str (TaskStore.status d) := by
  have alike := sound.alike "status"
  rw [statusOf, TaskStore.status, ← alike]
  cases found : state.lookup "status" with
  | none => rfl
  | some value =>
    obtain ⟨s, rfl⟩ := (sound.fit _ (mem_of_lookup found)).2 rfl
    rfl

theorem Sound.valid (sound : Sound num state d) (next : String) :
    validTransition state next = some (TaskStore.validTransition (some d) next) := by
  rw [validTransition, sound.status]
  rfl

/-- A state without a status is not ready either, though its document counts as pending. -/
theorem Sound.ready (sound : Sound num state d) :
    state.lookup "status" ∈ [some (.str "SUCCESS"), some (.str "FAILED")] ↔
      TaskStore.status d ∈ ["SUCCESS", "FAILED"] := by
  rw [TaskStore.status, ← sound.alike]
  cases found : state.lookup "status" with
  | none => simp
  | some value =>
    obtain ⟨s, rfl⟩ := (sound.fit _ (mem_of_lookup found)).2 rfl
    simp

end Fields

/-- What `json.loads` gives for a state, and its document. -/
def SameState (num : JsonText.Numerals) (j : Json) (d : Doc) : Prop :=
  ∃ state, j = .obj state ∧ Sound num state d

/-- Both calls return, and the same state; none raises. -/
def SameOutcome (num : JsonText.Numerals) : Outcome Json → Outcome Doc → Prop
  | .returned j, .returned d => Option.Rel (SameState num) j d
  | _, _ => False

def bridge (num : JsonText.Numerals) :
    Bridge (Effect State Json) Answer (Effect Doc Doc) Answer where
  effects
    | .get taskId, .get taskId' => taskId = taskId'
    | .setex taskId state, .setex taskId' d => taskId = taskId' ∧ Sound num state d
    | .done outcome, .done outcome' => SameOutcome num outcome outcome'
    | _, _ => False
  answers
    | .get _, .get _, r, r' => Option.Rel (SameState num) r r'
    | _, _, _, _ => True

section Calls

variable {fields extra : List (String × Json)}

theorem get_matches (taskId : String) :
    (taskGet taskId).Matches (bridge num) (SameOutcome num) (Call.get taskId).document :=
  ⟨rfl, fun _ _ same => same⟩

theorem create_matches (taskId question dbId databaseUrl first last : String) :
    (taskCreate taskId question dbId databaseUrl first last).Matches (bridge num) (SameOutcome num)
      (Call.create taskId question dbId databaseUrl first last).document := by
  have sound : Sound num _ _ := sound_created taskId question dbId databaseUrl first last
  exact ⟨⟨rfl, sound⟩, fun _ _ _ => .some ⟨_, rfl, sound⟩⟩

theorem update_matches (fit : Fit num fields) (taskId now : String) :
    (taskUpdate taskId fields now).Matches (bridge num) (SameOutcome num)
      (docUpdate taskId fields now) := by
  refine ⟨rfl, fun r r' same => ?_⟩
  rcases rel_cases same with ⟨rfl, rfl⟩ | ⟨j, d, rfl, rfl, state, rfl, sound⟩
  · exact .none
  · have merged := sound.merged fit now
    exact ⟨⟨rfl, merged⟩, fun _ _ _ => .some ⟨_, rfl, merged⟩⟩

theorem fit_status (status : String) (fit : Fit num extra) :
    Fit num (("status", .str status) :: extra) :=
  List.forall_mem_cons.mpr ⟨fit_text "status" status, fit⟩

theorem transition_matches (fit : Fit num extra) (taskId status now : String) :
    (taskTransition taskId status extra now).Matches (bridge num) (SameOutcome num)
      (docTransition taskId status extra now) := by
  refine ⟨rfl, fun r r' same => ?_⟩
  have update := update_matches (fit_status status fit) taskId now
  rcases rel_cases same with ⟨rfl, rfl⟩ | ⟨j, d, rfl, rfl, state, rfl, sound⟩
  · dsimp only [Prog.bind]
    have valid : TaskStore.validTransition none status = true ↔ status = "PENDING" :=
      decide_eq_true_iff
    by_cases pending : status = "PENDING"
    · rw [if_pos pending, if_pos (valid.mpr pending)]
      exact update
    · rw [if_neg pending, if_neg (mt valid.mp pending)]
      exact .none
  · dsimp only [Prog.bind]
    rw [sound.valid status]
    cases TaskStore.validTransition (some d) status with
    | false => exact .some ⟨state, rfl, sound⟩
    | true => exact update

theorem feedback_matches (taskId now : String) :
    (feedbackTransition taskId now).Matches (bridge num) (SameOutcome num)
      (docFeedback taskId now) := by
  refine ⟨rfl, fun r r' same => ?_⟩
  have fit : Fit num TaskStore.Write.feedbackStarted.fields := by
    simp [Fit, TaskStore.Write.fields, JsonText.Writable]
  have update := update_matches fit taskId now
  rcases rel_cases same with ⟨rfl, rfl⟩ | ⟨j, d, rfl, rfl, state, rfl, sound⟩
  · exact .none
  · dsimp only [Prog.bind]
    have same := sound.ready
    by_cases ready : TaskStore.status d ∈ ["SUCCESS", "FAILED"]
    · rw [if_pos (same.mpr ready), if_pos ready]
      exact update
    · rw [if_neg (mt same.mp ready), if_neg ready]
      exact .some ⟨state, rfl, sound⟩

/-- The fields that a call brings are fit to be stored. -/
def Call.Ready (num : JsonText.Numerals) : Call → Prop
  | .update _ fields _ => Fit num fields
  | .transition _ _ extra _ => Fit num extra
  | .create .. | .get _ | .feedback .. => True

theorem call_matches {call : Call} (ready : call.Ready num) :
    call.run.Matches (bridge num) (SameOutcome num) call.document := by
  cases call with
  | create taskId question dbId databaseUrl first last => exact create_matches ..
  | get taskId => exact get_matches taskId
  | update taskId fields now => exact update_matches ready taskId now
  | transition taskId status extra now => exact transition_matches ready taskId status now
  | feedback taskId now => exact feedback_matches taskId now

end Calls

/-- A text and a document that expire together: the text is the JSON of a state with the fields of
the document. -/
def SameCell (num : JsonText.Numerals) (cell : List Char × Nat) (cell' : Doc × Nat) : Prop :=
  cell.2 = cell'.2 ∧ ∃ state, cell.1 = JsonText.write num (.obj state) ∧ Sound num state cell'.1

structure SameWorld (num : JsonText.Numerals) (w : World (List Char) Json) (v : World Doc Doc) :
    Prop where
  clock : w.clock = v.clock
  cells : ∀ taskId, Option.Rel (SameCell num) (w.cells taskId) (v.cells taskId)
  log : List.Forall₂ (SameOutcome num) w.log v.log

section Worlds

variable {w : World (List Char) Json} {v : World Doc Doc}

/-- A text that lives is read back as the state that was written. -/
theorem SameWorld.live (same : SameWorld num w v) (taskId : String) :
    Option.Rel (SameState num) ((w.live taskId).bind (JsonText.read num)) (v.live taskId) := by
  rw [World.live, World.live, same.clock]
  rcases rel_cases (same.cells taskId) with
    ⟨none, none'⟩ | ⟨⟨text, expires⟩, ⟨d, expires'⟩, stored, stored', eq, state, rfl, sound⟩
  · rw [none, none']
    exact .none
  · obtain rfl : expires = expires' := eq
    rw [stored, stored', Option.filter_some, Option.filter_some]
    by_cases lives : v.clock < expires
    · rw [if_pos (decide_eq_true lives), if_pos (decide_eq_true lives)]
      change Option.Rel _ (JsonText.read num (JsonText.write num (.obj state))) (some d)
      rw [JsonText.read_write sound.writable]
      exact .some ⟨state, rfl, sound⟩
    · rw [if_neg (by simpa using lives), if_neg (by simpa using lives)]
      exact .none

theorem put_self {S A : Type} (w : World S A) (taskId : String) (stored : S) (ttl : Nat) :
    (w.put taskId stored ttl).cells taskId = some (stored, w.clock + ttl) := Function.update_self ..

theorem put_other {S A : Type} (w : World S A) {taskId other : String} (stored : S) (ttl : Nat)
    (distinct : other ≠ taskId) : (w.put taskId stored ttl).cells other = w.cells other :=
  Function.update_of_ne distinct ..

theorem SameWorld.put (same : SameWorld num w v) {state : State} {d : Doc}
    (sound : Sound num state d) (taskId : String) :
    SameWorld num (w.put taskId (JsonText.write num (.obj state)) (ttlForStatus (statusOf state)))
      (v.put taskId d (ttlForStatus (.str (TaskStore.status d)))) := by
  refine ⟨same.clock, fun other => ?_, same.log⟩
  by_cases eq : other = taskId
  · subst eq
    rw [put_self, put_self, sound.status, same.clock]
    exact .some ⟨rfl, state, rfl, sound⟩
  · rw [put_other w _ _ eq, put_other v _ _ eq]
    exact same.cells other

end Worlds

def simulation (num : JsonText.Numerals) : Threads.Simulation (texts num) documents where
  bridge := bridge num
  world := SameWorld num
  desc call call' := call' = call ∧ call.Ready num
  body {call call'} related := by
    obtain ⟨rfl, ready⟩ := related
    exact Prog.matches_bind (call_matches ready) fun outcome outcome' same =>
      ⟨same, fun _ _ _ => trivial⟩
  perform {w v e e'} same related _ := by
    cases e with
    | get taskId =>
      cases e' with
      | get taskId' =>
        obtain rfl : taskId = taskId' := related
        exact .some ⟨same, same.live taskId, .nil⟩
      | _ => exact absurd related id
    | setex taskId state =>
      cases e' with
      | setex taskId' d =>
        obtain ⟨rfl, sound⟩ := related
        exact .some ⟨same.put sound taskId, trivial, .nil⟩
      | _ => exact absurd related id
    | done outcome =>
      cases e' with
      | done outcome' => exact .some ⟨⟨same.clock, same.cells, .cons related same.log⟩,
          trivial, .nil⟩
      | _ => exact absurd related id
  arrive same _ := .some same
  ambient {w v ms} same := .some ⟨congrArg (· + ms) same.clock, same.cells, same.log⟩

/-- **The stored texts are the documents.** In every run of the store's functions, one Redis command
at a time in any order and with any time between them, whose fields can be written, the store of
texts takes the turns that the store of documents takes: each key holds the JSON of a state with
the fields of the document and expires with it, and each call returns (none raises, and no text
fails to be read) with the fields that it returns on the documents. -/
theorem texts_are_documents {events : List (Event Call Unit Nat)}
    (ready : ∀ event ∈ events, ∀ call, event = .arrive call → call.Ready num) :
    Option.Rel (fun c c' => SameWorld num c.world c'.world)
      ((texts num).machine.exec ⟨{}, []⟩ events) (documents.machine.exec ⟨{}, []⟩ events) := by
  have started : (simulation num).Same ⟨{}, []⟩ ⟨{}, []⟩ := ⟨⟨rfl, fun _ => .none, .nil⟩, .nil⟩
  have related : List.Forall₂ (simulation num).SameEvent events events := by
    refine List.forall₂_same.mpr fun event member => ?_
    cases event with
    | run => exact ⟨rfl, rfl⟩
    | arrive call => exact ⟨rfl, ready _ member call rfl⟩
    | ambient => exact rfl
  exact rel_mono ((simulation num).same_exec started related) fun _ _ same => same.world

/-- A task is created and started; an update reads the state before another one has written it. -/
def overlapping : List (Event Call Unit Nat) :=
  [.arrive (.create "1" "How many orders?" "shop" "" "09:00:00" "09:00:01"), .run 0 (), .run 0 (),
    .arrive (.transition "1" "RUNNING" [("retry_count", .int 0)] "09:00:02"), .run 1 (), .run 1 (),
    .run 1 (), .run 1 (),
    .arrive (.update "1" [("node", .str "generator"), ("progress", .int 40)] "09:00:03"),
    .arrive (.update "1" [("sql", .str "SELECT 1")] "09:00:03"), .run 2 (), .run 3 (), .run 2 (),
    .run 3 (), .run 2 (), .run 3 (), .ambient 7200000, .arrive (.get "1"), .run 4 (), .run 4 ()]

theorem texts_are_documents_overlapping :
    (documents.machine.exec ⟨{}, []⟩ overlapping).isSome = true ∧
      Option.Rel (fun c c' => SameWorld JsonText.tenths c.world c'.world)
        ((texts JsonText.tenths).machine.exec ⟨{}, []⟩ overlapping)
        (documents.machine.exec ⟨{}, []⟩ overlapping) := by
  refine ⟨by rfl, texts_are_documents ?_⟩
  simp [overlapping, Call.Ready, Fit, JsonText.Writable, or_imp, forall_and]

end StoredTexts
end Nl2SqlAgent

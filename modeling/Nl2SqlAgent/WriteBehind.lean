import Nl2SqlAgent.TaskProgress

/-! The rows that the recorder keeps of the tasks. An event only marks its task; the row is
written from what Redis holds when the mark is worked off, so a row is right in the end if
every change of the task is followed by an event. -/
namespace Nl2SqlAgent

open Lib

namespace TaskEvents

open TaskThreads (Submission Message NodeDone GraphRun Context)
open JavaTaskState (TaskState)

variable {w w' : World} {c : Choice} {e : Effect} {r : e.Answer} {forks : List Desc} {n : Nat}
  {α β : Type}

def Effect.announces : Effect → Bool
  | .publish _ => true
  | .markDirty => true
  | _ => false

/-- Whatever the answers, the program comes to an event or a mark. -/
def Announces : Task α → Prop
  | .ret _ => False
  | .act e k => e.announces = true ∨ ∀ r, Announces (k r)

/-- The command is noted as one that an event follows. -/
def Effect.announced : Effect → Bool
  | .task note _ => note.announced
  | .send note _ => note.announced
  | _ => false

/-- Every command that is noted so is followed by an event. -/
def Honest : Task α → Prop
  | .ret _ => True
  | .act e k => (e.announced = true → ∀ r, Announces (k r)) ∧ ∀ r, Honest (k r)

theorem announces_first {p : Task α} {f : α → Task β} (first : Announces p) :
    Announces (p >>= f) := by
  induction p with
  | ret a => exact first.elim
  | act e k ih =>
    rcases first with event | later
    · exact .inl event
    · exact .inr fun r => ih r (later r)

theorem announces_after (p : Task α) {f : α → Task β} (after : ∀ a, Announces (f a)) :
    Announces (p >>= f) := by
  induction p with
  | ret a => exact after a
  | act e k ih => exact .inr ih

theorem honest_bind {p : Task α} {f : α → Task β} (first : Honest p) (rest : ∀ a, Honest (f a)) :
    Honest (p >>= f) := by
  induction p with
  | ret a => exact rest a
  | act e k ih => exact ⟨fun noted r => announces_first (first.1 noted r), fun r => ih r (first.2 r)⟩

/-- A part of the code that is noted as announced is, by what comes after it. -/
theorem honest_calls {note : Note} (p : TaskThreads.Task α) {f : α → Task β}
    (after : note.announced = true → ∀ a, Announces (f a)) (rest : ∀ a, Honest (f a)) :
    Honest (calls note p >>= f) := by
  induction p with
  | ret a => exact rest a
  | act e k ih =>
    have noted : (place note e).announced = note.announced := by cases e <;> rfl
    refine ⟨fun promised r => ?_, fun r => ih (placed note e r)⟩
    exact announces_after _ (after (noted.symm.trans promised))

theorem calls_honest (note : Note) (quiet : note.announced = false) (p : TaskThreads.Task α) :
    Honest (calls note p) := by
  rw [← Prog.bind_ret (calls note p)]
  exact honest_calls p (fun noted => absurd noted (by simp [quiet])) fun _ => trivial

theorem publish_announces (event : EventName) {f : Unit → Task α} :
    Announces (publish event >>= f) := .inl rfl

theorem publish_honest (event : EventName) : Honest (publish event) := ⟨nofun, fun _ => trivial⟩

theorem concluded_honest {announced : Bool} {status : String} {error : Option String}
    {f : Unit → Task β} (after : announced = true → Announces (f ())) (rest : Honest (f ())) :
    Honest (conclude n announced status error >>= f) :=
  honest_calls _ (fun noted _ => after noted) fun _ => rest

theorem conclude_honest {status : String} {error : Option String} :
    Honest (conclude n false status error) := calls_honest _ rfl _

theorem submit_honest (submission : Submission) : Honest (submit submission) := by
  cases submission with
  | cached taskId question dbId sql execResult tokenUsage nodeTimings =>
    exact honest_calls _ (fun _ _ => .inl rfl) fun _ => ⟨nofun, fun _ => trivial⟩
  | _ => exact honest_calls _ nofun fun _ => calls_honest _ rfl _

theorem stepDone_honest {more : Bool} {rest : Task Unit} (nodes : List NodeDone)
    (after : more = true → Announces rest) (honest : Honest rest) :
    Honest (stepDone n more nodes >>= fun _ => rest) := by
  induction nodes with
  | nil => exact honest
  | cons node later ih =>
    refine ⟨nofun, fun _ => ?_⟩
    change Honest ((calls _ _ >>= fun _ => stepDone n more later) >>= fun _ => rest)
    rw [Prog.bind_assoc]
    refine honest_calls _ (fun noted _ => ?_) fun _ => ih
    cases later with
    | nil => exact announces_after _ fun _ => after (by simpa using noted)
    | cons node' later' => exact .inl rfl

theorem graphLoop_announces (run : Nat) (ending : Except String TaskStore.Write)
    (steps : List (List NodeDone)) (goes : goesOn ending steps = true) :
    Announces (graphLoop n run ending steps) := by
  induction steps with
  | nil =>
    cases ending with
    | error error => contradiction
    | ok done => exact announces_after _ fun _ => publish_announces _
  | cons step rest ih =>
    apply announces_after _
    intro cancelled
    cases cancelled with
    | true => exact announces_after _ fun _ => publish_announces _
    | false =>
      cases step with
      | nil =>
        refine announces_after _ fun _ => ih ?_
        simpa [goesOn] using goes
      | cons node later => exact .inl rfl

theorem graphLoop_honest (run : Nat) (ending : Except String TaskStore.Write)
    (steps : List (List NodeDone)) : Honest (graphLoop n run ending steps) := by
  induction steps with
  | nil =>
    cases ending with
    | error error => exact calls_honest _ rfl _
    | ok done =>
      apply honest_calls _ (fun _ _ => publish_announces _)
      intro _
      exact honest_bind (publish_honest _) fun _ => calls_honest _ rfl _
  | cons step rest ih =>
    apply honest_calls _ nofun
    intro cancelled
    cases cancelled with
    | true =>
      refine concluded_honest (fun _ => publish_announces _) ?_
      apply honest_bind (publish_honest _)
      intro _
      exact honest_calls _ nofun fun _ => calls_honest _ rfl _
    | false => exact stepDone_honest step (graphLoop_announces run ending rest) ih

theorem taskWaited_honest (retryCount : Fin 4) (waited : TaskThreads.Waited) :
    Honest (taskWaited n retryCount waited) := by
  cases waited with
  | timedOut =>
    apply honest_calls _ nofun
    intro cancelled
    cases cancelled with
    | true => exact concluded_honest nofun (calls_honest _ rfl _)
    | false => exact concluded_honest (fun _ => .inl rfl) (publish_honest _)
  | done result =>
    cases result with
    | returned cancelled =>
      cases cancelled with
      | true => trivial
      | false => exact conclude_honest
    | raised error =>
      apply honest_calls _ nofun
      intro cancelled
      cases cancelled with
      | true => exact concluded_honest nofun (calls_honest _ rfl _)
      | false =>
        by_cases again : retryCount < 3
        · simp only [again, if_true]
          apply honest_calls _ nofun
          intro _
          exact honest_calls _ (fun _ _ => .inl rfl) fun _ => publish_honest _
        · simp only [again, if_false]
          refine concluded_honest (fun _ => publish_announces _) ?_
          exact honest_bind (publish_honest _) fun _ => ⟨nofun, fun _ => trivial⟩

theorem handleTask_honest (retryCount : Fin 4) : Honest (handleTask n retryCount) := by
  apply honest_calls _ nofun
  intro cancelled
  cases cancelled with
  | true => exact conclude_honest
  | false =>
    apply honest_calls _ (fun _ _ => publish_announces _)
    intro _
    refine honest_bind (publish_honest _) fun _ => honest_calls _ nofun fun run => ?_
    exact honest_calls _ nofun fun waited => taskWaited_honest retryCount waited

theorem feedbackWaited_honest (m : Message) (waited : TaskThreads.Waited) :
    Honest (feedbackWaited n m waited) := by
  cases waited with
  | timedOut => exact concluded_honest (fun _ => .inl rfl) (publish_honest _)
  | done result =>
    cases result with
    | returned cancelled =>
      cases cancelled with
      | true => trivial
      | false => exact conclude_honest
    | raised error => exact concluded_honest (fun _ => .inl rfl) (publish_honest _)

theorem handleFeedback_honest (m : Message) (delivery : Nat) :
    Honest (handleFeedback n m delivery) := by
  apply honest_calls _ nofun
  intro existing
  by_cases running : TaskThreads.isRunning existing = true
  · simp only [running, if_true]
    trivial
  · simp only [running]
    apply honest_calls _ (fun _ _ => publish_announces _)
    intro _
    refine honest_bind (publish_honest _) fun _ => honest_calls _ nofun fun run => ?_
    exact honest_calls _ nofun fun waited => feedbackWaited_honest m waited

theorem body_honest (d : Desc) : Honest (body d) := by
  obtain ⟨task, number, again⟩ := d
  cases task with
  | submit submission => exact submit_honest submission
  | handleTask retryCount => exact handleTask_honest retryCount
  | runGraph run graph => exact graphLoop_honest run _ _
  | handleFeedback m delivery => exact handleFeedback_honest m delivery
  | runFeedbackGraph run graph => exact honest_calls _ nofun fun _ => graphLoop_honest run _ _
  | _ => exact calls_honest _ rfl _

/-- The columns that every upsert sets, but for the times. -/
structure TaskRecord where
  status : Option String
  sqlText : Option String
  rowCount : Option Int
  retryCount : Int
  error : Option String
  cacheHit : Nat
  nodeTimings : Json
  tokenUsage : Json

/-- `Number.intValue`: the low 32 bits of an integer, the nearest value of a double. -/
def intValue : Json → Option Int
  | .int n => some ((n + 2147483648) % 4294967296 - 2147483648)
  | .float q => some (max (-2147483648) (min 2147483647 (q.num.tdiv q.den)))
  | _ => none

/-- `m.get("row_count")`, where the result is a map. -/
def rowCountIn : Json → Option Json
  | .obj fields => fields.lookup "row_count"
  | _ => none

/-- The row of a state, as `record` assembles it; `valueOf` prints errors that are no texts. -/
def record (valueOf : Json → String) (s : TaskState) : TaskRecord where
  status := s.status
  sqlText := s.sql
  rowCount := (rowCountIn s.execResult).bind intValue
  retryCount := s.retryCount
  error :=
    match s.error with
    | .null => none
    | .str text => some text
    | error => some (valueOf error)
  cacheHit := if s.cacheHit = some true then 1 else 0
  nodeTimings := JavaTaskState.writeFields s.nodeTimings
  tokenUsage := JavaTaskState.writeFields s.tokenUsage

/-- The row says of the task what Redis says. -/
structure Agrees (row : TaskRecord) (d : Doc) : Prop where
  status : TaskStore.text row.status = (d.lookup "status").getD .null
  sql : TaskStore.text row.sqlText = (d.lookup "sql").getD .null
  rowCount : row.rowCount.map Json.int = rowCountIn ((d.lookup "exec_result").getD .null)
  retryCount : Json.int row.retryCount = (d.lookup "retry_count").getD (.int 0)
  error : TaskStore.text row.error = (d.lookup "error").getD .null

/-- A row count, where there is one, fits the column. -/
def countFits (execResult : Json) : Bool :=
  match rowCountIn execResult with
  | none => true
  | some (.int n) => JavaTaskState.isInt n
  | some _ => false

theorem intValue_fits {n : Int} (fits : JavaTaskState.isInt n = true) :
    intValue (.int n) = some n := by
  have bounds : -2147483648 ≤ n ∧ n < 2147483648 := by simpa [JavaTaskState.isInt] using fits
  simp only [intValue, Option.some.injEq]
  omega

theorem record_agrees (valueOf : Json → String) {d : Doc} {s : TaskState} (formed : Formed d)
    (decoded : JavaTaskState.decode d = some s) (fits : countFits s.execResult = true) :
    Agrees (record valueOf s) d where
  status := JavaTaskState.read_text (JavaTaskState.decode_decoded decoded).status
  sql := JavaTaskState.read_text (JavaTaskState.decode_decoded decoded).sql
  rowCount := by
    rw [← JavaTaskState.read_any (JavaTaskState.decode_decoded decoded).execResult]
    simp only [record]
    cases counted : rowCountIn s.execResult with
    | none => rfl
    | some value =>
      simp only [countFits, counted] at fits
      cases value with
      | int n => simp [intValue_fits fits]
      | _ => contradiction
  retryCount := by
    cases (JavaTaskState.decode_decoded decoded).retryCount with
    | missing absent same => simp [record, absent, same]
    | present value found accepted =>
      have admitted := JavaTaskState.shaped_admits formed.shaped found .int rfl
      simp [record, found, JavaTaskState.readInt_inverse accepted admitted]
  error := by
    have reading := JavaTaskState.read_any (JavaTaskState.decode_decoded decoded).error
    rw [← reading]
    have textual : Textual s.error := (decoded_readable formed decoded).error
    obtain ⟨t, same⟩ := textual
    cases t <;> simp [record, same, TaskStore.text]

/-- Either no event has come at all, or an event or a mark is not worked off. -/
def Recorder.unflushed (r : Recorder) : Bool :=
  !r.evented || r.events ≠ 0 || r.dirty || r.batch

/-- The row, or the state that it is about to be written from, is that of the document. -/
def Current (w : World) : Prop :=
  ∃ s, w.task.doc.bind JavaTaskState.decode = some s ∧ w.recorder.read.or w.recorder.row = some s ∧
    countFits s.execResult = true

/-- The row is right, or something will make the recorder write it again. -/
def Covered (config : Config Effect Effect.Answer World Desc) : Prop :=
  config.world.recorder.unflushed = true ∨ Current config.world ∨
    ∃ t ∈ config.pool, Announces t.rest

/-- An event arrives, and a write is followed by one, unless the recorder has still to look
at the task anyway. -/
def Followed (w : World) (_ : Desc) : (e : Effect) → e.Answer → Prop
  | .publish _, sent => Sent.arrived sent = true ∨ w.recorder.unflushed = true
  | .task note (.update ..), _ => note.announced = true ∨ w.recorder.unflushed = true
  | .task note (.save ..), _ => note.announced = true ∨ w.recorder.unflushed = true
  | _, _ => True

instance (w : World) (d : Desc) : (e : Effect) → (r : e.Answer) → Decidable (Followed w d e r)
  | .publish _, sent =>
    inferInstanceAs (Decidable (Sent.arrived sent = true ∨ w.recorder.unflushed = true))
  | .task note (.update ..), _ | .task note (.save ..), _ =>
    inferInstanceAs (Decidable (note.announced = true ∨ w.recorder.unflushed = true))
  | .task _ (.create _), _ | .task _ .read, _ | .task _ (.inspect _), _ | .task _ .requestCancel, _
  | .task _ .isCancelled, _ | .task _ .clearCancel, _ | .task _ .heartbeat, _
  | .task _ (.publishRequest _), _ | .task _ (.publishFeedback _), _ | .task _ (.answer _), _
  | .task _ .startGraph, _ | .task _ (.startFeedbackGraph _), _ | .task _ (.await _), _
  | .task _ (.settle ..), _ | .send .., _ | .deadLetter, _ | .markDirty, _ => .isTrue trivial

/-- The recorder can read the document, and its row count fits the column. -/
def legible (d : Doc) : Bool := d.strict && countFits ((d.lookup "exec_result").getD .null)

def readsTask : Event Desc Choice Move → Bool
  | .ambient .read => true
  | _ => false

/-- The condition on a run's steps. -/
def Recordable (config : Config Effect Effect.Answer World Desc) (event : Event Desc Choice Move)
    (config' : Config Effect Effect.Answer World Desc) : Prop :=
  system.Meets Followed config event config' ∧
    (readsTask event = true → config.world.task.doc.all legible = true)

instance (config config' : Config Effect Effect.Answer World Desc) (event : Event Desc Choice Move) :
    Decidable (Recordable config event config') :=
  inferInstanceAs (Decidable (system.Meets Followed config event config' ∧ (_ → _)))

theorem unflushed_after {task : TaskThreads.World} (unflushed : w.recorder.unflushed = true) :
    (w.after c task e).recorder.unflushed = true := by
  cases e with
  | publish event =>
    simp only [World.after, Recorder.after]
    split
    · exact unflushed
    · simp [Recorder.unflushed]
  | markDirty => simp [World.after, Recorder.after, Recorder.unflushed]
  | _ => exact unflushed

/-- An event that arrives leaves the recorder something to do, and so does a mark. -/
theorem announced_unflushed {d : Desc} (announces : e.announces = true)
    (followed : Followed w d e r) (performed : perform w c e = some (w', r, forks)) :
    w'.recorder.unflushed = true := by
  cases e with
  | publish event =>
    obtain ⟨rfl, rest⟩ := Prod.mk.inj (Option.some.inj performed)
    obtain ⟨rfl, -⟩ := Prod.mk.inj rest
    rcases followed with arrived | unflushed
    · have kept : ¬ c.lost = true := by simpa [Choice.sent] using arrived
      simp only [World.after, Recorder.after, if_neg kept]
      simp [Recorder.unflushed]
    · exact unflushed_after unflushed
  | markDirty =>
    obtain rfl := perform_after performed
    simp [World.after, Recorder.after, Recorder.unflushed]
  | _ => contradiction

/-- A command that stores the task. -/
def Effect.stores : Effect → Bool
  | .task _ (.create _) => true
  | .task _ (.update ..) => true
  | .task _ (.save ..) => true
  | _ => false

theorem after_doc (stores : e.stores = false) : (w.taskAfter c e).doc = w.task.doc := by
  cases e with
  | task note e => cases e <;> first | rfl | contradiction
  | send note item => cases item <;> rfl
  | _ => rfl

theorem after_recorder (task : TaskThreads.World) (silent : e.announces = false) :
    (w.after c task e).recorder = w.recorder := by
  cases e <;> first | rfl | contradiction

/-- Before a task is stored no event of it has come. -/
theorem creates_unflushed {note : Note} {submission : Submission}
    {r : (Effect.task note (.create submission)).Answer} (sound : Sound w)
    (performed : perform w c (.task note (.create submission)) = some (w', r, forks)) :
    w.recorder.unflushed = true := by
  obtain ⟨started, replied, -⟩ := perform_task performed
  obtain ⟨missing, -⟩ := Option.ite_none_right_eq_some.mp replied
  have unevented : w.recorder.evented = false := by
    by_contra evented
    have stored := sound.evented (by simpa using evented)
    rw [Option.isNone_iff_eq_none] at missing
    simp [Stored, missing] at stored
  simp [Recorder.unflushed, unevented]

/-- A write leaves the recorder something to do, or its thread comes to an event. -/
theorem stores_covered {d : Desc} (stores : e.stores = true) (sound : Sound w)
    (followed : Followed w d e r) (performed : perform w c e = some (w', r, forks)) :
    w'.recorder.unflushed = true ∨ e.announced = true := by
  have after (unflushed : w.recorder.unflushed = true) : w'.recorder.unflushed = true := by
    rw [perform_after performed]
    exact unflushed_after unflushed
  cases e with
  | task note e =>
    cases e with
    | create submission => exact .inl (after (creates_unflushed sound performed))
    | update seen basis write => exact (followed.imp id after).symm
    | save s operation => exact (followed.imp id after).symm
    | _ => contradiction
  | _ => contradiction

/-- What a run keeps: the rows are covered, and every thread's notes are true. -/
structure Behind (config : Config Effect Effect.Answer World Desc) : Prop where
  tracked : progress.Holds config
  honest : ∀ t ∈ config.pool, Honest t.rest
  covered : Covered config

theorem run_covered {config : Config Effect Effect.Answer World Desc} {pid : Nat} {d : Desc}
    {k : e.Answer → Task Unit} {more : List (Thread Effect Effect.Answer Desc)}
    (behind : Behind config) (fetched : config.pool[pid]? = some ⟨d, .act e k⟩)
    (followed : Followed config.world d e r)
    (performed : perform config.world c e = some (w', r, forks)) :
    Covered ⟨w', config.pool.set pid ⟨d, k r⟩ ++ more⟩ := by
  have bound := (List.getElem?_eq_some_iff.mp fetched).1
  have acting : (⟨d, k r⟩ : Thread Effect Effect.Answer Desc) ∈ config.pool.set pid ⟨d, k r⟩ ++ more :=
    List.mem_append_left _ (List.mem_set bound _)
  by_cases announces : e.announces = true
  · exact .inl (announced_unflushed announces followed performed)
  by_cases stores : e.stores = true
  · rcases stores_covered stores behind.tracked.world followed performed with unflushed | noted
    · exact .inl unflushed
    · have honest := behind.honest _ (List.mem_of_getElem? fetched)
      exact .inr (.inr ⟨_, acting, honest.1 noted r⟩)
  obtain rfl := perform_after performed
  have doc := after_doc (w := config.world) (c := c) (by simpa using stores)
  have recorder := after_recorder (w := config.world) (c := c)
    (config.world.taskAfter c e) (by simpa using announces)
  rcases behind.covered with unflushed | ⟨s, decoded, written, fits⟩ | ⟨t, member, coming⟩
  · exact .inl (unflushed_after unflushed)
  · refine .inr (.inl ⟨s, ?_, ?_, fits⟩)
    · exact (congrArg (Option.bind · JavaTaskState.decode) doc).trans decoded
    · rw [recorder]
      exact written
  · obtain ⟨i, there⟩ := List.mem_iff_getElem?.mp member
    by_cases same : pid = i
    · subst same
      obtain rfl := Option.some.inj (fetched.symm.trans there)
      rcases coming with event | later
      · exact absurd event announces
      · exact .inr (.inr ⟨_, acting, later r⟩)
    · have kept : (config.pool.set pid ⟨d, k r⟩)[i]? = some t := by
        rw [List.getElem?_set_ne same, there]
      exact .inr (.inr ⟨t, List.mem_append_left _ (List.mem_of_getElem? kept), coming⟩)

theorem move_unflushed {recorder recorder' : Recorder} {doc : Option Doc} {move : Move}
    (moved : recorder.move doc move = some recorder') (other : move ≠ .read)
    (unflushed : recorder.unflushed = true) : recorder'.unflushed = true := by
  rcases move_cases moved with ⟨-, rfl⟩ | ⟨-, rfl⟩ | ⟨-, rfl⟩ | ⟨reads, -⟩ | ⟨-, s, -, rfl⟩
  · simp [Recorder.unflushed]
  · simp [Recorder.unflushed]
  · simp [Recorder.unflushed]
  · exact absurd reads other
  · exact unflushed

/-- No move but a read changes what the row is about to be. -/
theorem move_row {recorder recorder' : Recorder} {doc : Option Doc} {move : Move}
    (moved : recorder.move doc move = some recorder') (other : move ≠ .read) :
    recorder'.read.or recorder'.row = recorder.read.or recorder.row := by
  rcases move_cases moved with ⟨-, rfl⟩ | ⟨-, rfl⟩ | ⟨-, rfl⟩ | ⟨reads, -⟩ | ⟨-, s, taken, rfl⟩
  · rfl
  · rfl
  · rfl
  · exact absurd reads other
  · rw [taken]
    rfl

theorem read_current {recorder : Recorder} {d : Doc} (sound : Sound w) (stored : w.task.doc = some d)
    (readable : w.task.doc.all legible = true)
    (moved : w.recorder.move w.task.doc .read = some recorder) :
    Current { w with recorder := recorder } := by
  obtain ⟨-, same⟩ := Option.ite_none_right_eq_some.mp moved
  obtain rfl := Option.some.inj same
  rw [stored, Option.all_some, legible, Bool.and_eq_true] at readable
  obtain ⟨s, decoded⟩ := JavaTaskState.shaped_decodes (sound.known d stored).formed.shaped readable.1
  have found : w.task.doc.bind JavaTaskState.decode = some s := by
    rw [stored]
    exact decoded
  refine ⟨s, found, ?_, ?_⟩
  · change (w.task.doc.bind JavaTaskState.decode).or _ = some s
    rw [found]
    rfl
  · rw [JavaTaskState.read_any (JavaTaskState.decode_decoded decoded).execResult]
    exact readable.2

theorem move_covered {config : Config Effect Effect.Answer World Desc} {recorder : Recorder}
    {move : Move} (behind : Behind config)
    (readable : move = .read → config.world.task.doc.all legible = true)
    (moved : config.world.recorder.move config.world.task.doc move = some recorder) :
    Covered ⟨{ config.world with recorder := recorder }, config.pool⟩ := by
  by_cases reads : move = .read
  · subst reads
    by_cases evented : config.world.recorder.evented = true
    · obtain ⟨d, stored⟩ := Option.isSome_iff_exists.mp (behind.tracked.world.evented evented)
      exact .inr (.inl (read_current behind.tracked.world stored (readable rfl) moved))
    · have unevented : recorder.evented = false := by
        rw [move_evented moved]
        simpa using evented
      exact .inl (by simp [Recorder.unflushed, unevented])
  · rcases behind.covered with unflushed | ⟨s, decoded, written, fits⟩ | coming
    · exact .inl (move_unflushed moved reads unflushed)
    · exact .inr (.inl ⟨s, decoded, (move_row moved reads).trans written, fits⟩)
    · exact .inr (.inr coming)

theorem Behind.step {config config' : Config Effect Effect.Answer World Desc}
    {event : Event Desc Choice Move} (behind : Behind config)
    (stepped : system.machine.step config event = some config')
    (recordable : Recordable config event config') : Behind config' := by
  have tracked := progress.step behind.tracked stepped (system.meets_true _ _ _)
  rcases Threads.step_cases stepped with
    ⟨pid, choice, d, e, k, w, r, forks, rfl, fetched, performed, rfl⟩ |
    ⟨d, w, rfl, arrived, rfl⟩ | ⟨move, w, rfl, moved, rfl⟩
  · have followed := recordable.1 d e k w r forks fetched performed
    refine ⟨tracked, ?_, run_covered behind fetched followed performed⟩
    intro t member
    rcases List.mem_append.mp member with old | new
    · rcases List.mem_or_eq_of_mem_set old with kept | rfl
      · exact behind.honest t kept
      · exact (behind.honest _ (List.mem_of_getElem? fetched)).2 r
    · obtain ⟨f, -, rfl⟩ := List.mem_map.mp new
      exact body_honest f
  · have arrives := arrive_arrives behind.tracked.world arrived
    refine ⟨tracked, ?_, ?_⟩
    · intro t member
      rcases List.mem_append.mp member with old | new
      · exact behind.honest t old
      · rw [List.mem_singleton.mp new]
        exact body_honest d
    · rcases behind.covered with unflushed | ⟨s, decoded, written, fits⟩ | ⟨t, member, coming⟩
      · refine .inl ?_
        rw [arrives.recorder]
        exact unflushed
      · refine .inr (.inl ⟨s, ?_, ?_, fits⟩)
        · rw [arrives.doc]
          exact decoded
        · rw [arrives.recorder]
          exact written
      · exact .inr (.inr ⟨t, List.mem_append_left _ member, coming⟩)
  · obtain ⟨recorder, recorded, rfl⟩ := Option.map_eq_some_iff.mp moved
    refine ⟨tracked, behind.honest, move_covered behind (fun reads => ?_) recorded⟩
    subst reads
    exact recordable.2 rfl

/-- Every thread has ended, the topics are drained and nothing is marked or in a batch. -/
structure Quiescent (config : Config Effect Effect.Answer World Desc) : Prop where
  ended : ∀ t ∈ config.pool, t.rest.ended = true
  events : config.world.recorder.events = 0
  clean : config.world.recorder.dirty = false
  batch : config.world.recorder.batch = false
  written : config.world.recorder.read = none

/-- In the end a task that has had an event has a row that agrees with Redis, along every
run in which each change is followed by an event or comes before the recorder's last look. -/
theorem write_behind (valueOf : Json → String) (events : List (Event Desc Choice Move))
    {config : Config Effect Effect.Answer World Desc}
    (recordable : system.machine.Along Recordable start events)
    (run : system.machine.exec start events = some config) (quiescent : Quiescent config)
    (evented : config.world.recorder.evented = true) :
    ∃ d s, config.world.task.doc = some d ∧ config.world.recorder.row = some s ∧
      Agrees (record valueOf s) d := by
  have initially : Behind start := ⟨progress.holds_empty start_sound, nofun, .inl rfl⟩
  have behind := Machine.invariant_along Behind
    (fun _ _ _ behind stepped meets => behind.step stepped meets) initially recordable run
  rcases behind.covered with unflushed | ⟨s, decoded, written, fits⟩ | ⟨t, member, coming⟩
  · simp [Recorder.unflushed, evented, quiescent.events, quiescent.clean, quiescent.batch] at unflushed
  · obtain ⟨d, stored, decoded⟩ := Option.bind_eq_some_iff.mp decoded
    rw [quiescent.written, Option.none_or] at written
    have formed := (behind.tracked.world.known d stored).formed
    exact ⟨d, s, stored, written, record_agrees valueOf formed decoded fits⟩
  · have ended := quiescent.ended t member
    cases rest : t.rest with
    | ret a =>
      rw [rest] at coming
      exact coming.elim
    | act e k =>
      rw [rest] at ended
      contradiction

def yielding : Choice where
  graph := ⟨[], .ok (⟨some "SELECT 1", .null, [], []⟩, ⟨"", "", "", []⟩)⟩

/-- A task is handled up to the end of its graph: thread 1 is the handler. -/
def worked : List (Event Desc Choice Move) :=
  [.arrive { task := .submit (.api "t1" "How many orders?" "shop" "") }, .run 0 {}, .run 0 {},
    .arrive { task := .handleTask 0 }, .run 1 {}, .run 1 {}, .run 1 {}, .run 1 {}, .run 1 {},
    .run 1 yielding, .run 2 {}, .run 2 {}, .run 2 {}, .run 2 {}]

/-- The handler makes its last transition. -/
def succeeding : List (Event Desc Choice Move) := [.run 1 {}, .run 1 {}, .run 1 {}, .run 1 {}]

/-- The recorder takes the two events and writes the row. -/
def flushing : List (Event Desc Choice Move) :=
  [.ambient .consume, .ambient .consume, .ambient .drain, .ambient .read, .ambient .upsert]

def isQuiescent (config : Config Effect Effect.Answer World Desc) : Bool :=
  config.pool.all (fun t => t.rest.ended) && config.world.recorder.events = 0 &&
    !config.world.recorder.dirty && !config.world.recorder.batch && config.world.recorder.read.isNone

theorem isQuiescent_sound {config : Config Effect Effect.Answer World Desc}
    (quiet : isQuiescent config = true) : Quiescent config := by
  simp only [isQuiescent, Bool.and_eq_true, List.all_eq_true, decide_eq_true_eq,
    Bool.not_eq_eq_eq_not, Bool.not_true, Option.isNone_iff_eq_none] at quiet
  obtain ⟨⟨⟨⟨ended, events⟩, clean⟩, batch⟩, written⟩ := quiet
  exact ⟨ended, events, clean, batch, written⟩

theorem write_behind_flushed_last : ∃ config,
    system.machine.exec start (worked ++ succeeding ++ flushing) = some config ∧
      config.world.task.doc.map TaskStore.status = some "SUCCESS" ∧
      ∃ d s, config.world.task.doc = some d ∧ config.world.recorder.row = some s ∧
        Agrees (record (fun _ => "") s) d := by
  have ends : (system.machine.exec start (worked ++ succeeding ++ flushing)).any (fun config =>
      config.world.task.doc.map TaskStore.status = some "SUCCESS" ∧
      config.world.recorder.evented = true ∧ isQuiescent config = true) = true := by decide +kernel
  obtain ⟨config, run, final⟩ := (Option.any_eq_true _ _).mp ends
  obtain ⟨succeeded, evented, quiet⟩ := of_decide_eq_true final
  exact ⟨config, run, succeeded, write_behind (fun _ => "") (worked ++ succeeding ++ flushing)
    (by decide +kernel) run (isQuiescent_sound quiet) evented⟩

/-- The recorder is done with the last event before the handler writes SUCCESS. -/
theorem success_unrecorded : ∃ config,
    system.machine.exec start (worked ++ flushing ++ succeeding) = some config ∧
      Quiescent config ∧ config.world.recorder.evented = true ∧
      config.world.task.doc.map TaskStore.status = some "SUCCESS" ∧
      config.world.recorder.row.map TaskState.status = some (some "RUNNING") ∧
      ∀ valueOf, ¬ ∃ d s, config.world.task.doc = some d ∧ config.world.recorder.row = some s ∧
        Agrees (record valueOf s) d := by
  have ends : (system.machine.exec start (worked ++ flushing ++ succeeding)).any (fun config =>
      isQuiescent config = true ∧ config.world.recorder.evented = true ∧
      config.world.task.doc.map TaskStore.status = some "SUCCESS" ∧
      config.world.recorder.row.map TaskState.status = some (some "RUNNING")) = true := by
    decide +kernel
  obtain ⟨config, run, final⟩ := (Option.any_eq_true _ _).mp ends
  obtain ⟨quiet, evented, succeeded, stale⟩ := of_decide_eq_true final
  refine ⟨config, run, isQuiescent_sound quiet, evented, succeeded, stale, ?_⟩
  rintro valueOf ⟨d, s, stored, written, agrees⟩
  rw [stored, Option.map_some, Option.some.injEq] at succeeded
  rw [written, Option.map_some, Option.some.injEq] at stale
  have same : TaskStore.text (some "RUNNING") = (d.lookup "status").getD .null := by
    rw [← stale]
    exact agrees.status
  rw [TaskStore.status] at succeeded
  cases found : d.lookup "status" with
  | none => simp [found] at succeeded
  | some value =>
    rw [found, Option.getD_some] at same
    subst same
    simp [found, TaskStore.text] at succeeded

end TaskEvents
end Nl2SqlAgent

import Nl2SqlAgent.TaskPhases

/-! What every thread's command finds of its task holds along every run. -/
namespace Nl2SqlAgent

open Lib

namespace TaskEvents

open TaskThreads (Submission Message NodeDone GraphRun Context)
open JavaTaskState (TaskState)

variable {w w' : World} {c : Choice} {e : Effect} {r : e.Answer} {forks : List Desc} {role : Role}
  {p : Point} {n : Nat}

/-- The task's keys after the effect. -/
def World.taskAfter (w : World) (c : Choice) : Effect → TaskThreads.World
  | .task _ e => w.task.after c.toChoice e
  | .send _ item => w.task.after c.toChoice item.effect
  | _ => w.task

theorem perform_after (performed : perform w c e = some (w', r, forks)) :
    w' = w.after c (w.taskAfter c e) e := by
  cases e with
  | task note e =>
    obtain ⟨⟨task, answer, started⟩, replied, same⟩ := Option.map_eq_some_iff.mp performed
    obtain ⟨rfl, -⟩ := TaskThreads.perform_after replied
    exact (Prod.mk.inj same).1.symm
  | _ => exact (Prod.mk.inj (Option.some.inj performed)).1.symm

theorem perform_task {note : Note} {e : TaskThreads.Effect} {r : e.Answer}
    (performed : perform w c (.task note e) = some (w', r, forks)) :
    ∃ started, TaskThreads.reply w.task c.toChoice e = some (r, started) ∧
      forks = started.map fun d => { task := d, handler := note.handler.getD 0 } := by
  obtain ⟨⟨task, answer, started⟩, replied, same⟩ := Option.map_eq_some_iff.mp performed
  obtain ⟨-, replied⟩ := TaskThreads.perform_after replied
  obtain ⟨-, rfl, rfl⟩ := Prod.mk.inj same |>.imp_right Prod.mk.inj
  exact ⟨started, replied, rfl⟩

theorem api_status {taskId question dbId databaseUrl now : String} :
    TaskStore.status ((Submission.api taskId question dbId databaseUrl).document now) = "PENDING" := by
  simp [TaskThreads.Submission.document, TaskStore.status, TaskStore.taskCreate, Doc.ofFields]

theorem gateway_status {taskId question dbId databaseUrl now : String} :
    TaskStore.status ((Submission.gateway taskId question dbId databaseUrl).document now) =
      "PENDING" := by
  have stored : ("status", Json.str "PENDING") ∈ JavaTaskState.baseFields
      (JavaTaskState.create taskId question dbId databaseUrl now) := by
    simp [JavaTaskState.baseFields, JavaTaskState.create, TaskStore.text]
  simp [TaskThreads.Submission.document, TaskStore.status,
    JavaTaskState.encode_lookup (List.mem_append_left _ stored)]

theorem cached_status {taskId question dbId now : String} {sql : Option String} {execResult : Json}
    {tokenUsage nodeTimings : JavaTaskState.Fields} :
    TaskStore.status ((Submission.cached taskId question dbId sql execResult tokenUsage
      nodeTimings).document now) = "SUCCESS" := by
  have stored : ("status", Json.str "SUCCESS") ∈ JavaTaskState.baseFields
      (JavaTaskState.createFromCache taskId question dbId now sql execResult tokenUsage nodeTimings) := by
    simp [JavaTaskState.baseFields, JavaTaskState.createFromCache, TaskStore.text]
  simp [TaskThreads.Submission.document, TaskStore.status,
    JavaTaskState.encode_lookup (List.mem_append_left _ stored)]

theorem base_error {s : TaskState} (error : Textual s.error) :
    ∀ value, (JavaTaskState.encode s).lookup "error" = some value → Textual value := by
  intro value found
  have stored : ("error", s.error) ∈ JavaTaskState.baseFields s := by simp [JavaTaskState.baseFields]
  rw [JavaTaskState.encode_lookup (List.mem_append_left _ stored)] at found
  exact Option.some.inj found ▸ error

theorem write_error (write : TaskStore.Write) {value : Json} (held : ("error", value) ∈ write.fields) :
    Textual value := by
  cases write with
  | ended status error =>
    rcases List.mem_cons.mp held with same | reason
    · simp at same
    · cases error with
      | none => simp at reason
      | some text =>
        obtain rfl : value = .str text := by simpa using reason
        exact ⟨some text, rfl⟩
  | retried retryCount error =>
    obtain rfl : value = .str error := by simpa [TaskStore.Write.fields] using held
    exact ⟨some error, rfl⟩
  | _ => simp [TaskStore.Write.fields] at held

theorem formed_merged {d : Doc} (formed : Formed d) (write : TaskStore.Write) (now : String) :
    Formed (TaskStore.merged now d write.fields) where
  shaped := JavaTaskState.shaped_merged formed.shaped write now
  error value found := by
    rcases Doc.lookup_update_cases d _ _ value found with new | ⟨-, old⟩
    · rcases List.mem_append.mp new with field | stamp
      · exact write_error write field
      · simp at stamp
    · exact formed.error value old

theorem formed_saved {s : TaskState} (readable : Readable s) (operation : JavaTaskState.Operation)
    (now : String) : Formed (JavaTaskState.encode (operation.saved now s)) where
  shaped := JavaTaskState.shaped_saved readable.progress readable.retries operation now
  error := by
    apply base_error
    cases operation with
    | feedback => exact readable.error
    | scanStale => exact ⟨some "Worker lost (heartbeat stale)", rfl⟩

theorem created_known (submission : Submission) (now : String) :
    Known (submission.document now) := by
  cases submission with
  | api taskId question dbId databaseUrl =>
    refine ⟨.inl api_status,
      JavaTaskState.shaped_taskCreate taskId question dbId databaseUrl now, fun value found => ?_⟩
    have null : value = .null := by
      simpa [TaskThreads.Submission.document, TaskStore.taskCreate, Doc.ofFields, eq_comm] using found
    exact ⟨none, null⟩
  | gateway taskId question dbId databaseUrl =>
    exact ⟨.inl gateway_status, JavaTaskState.shaped_encode _ rfl rfl, base_error ⟨none, rfl⟩⟩
  | cached taskId question dbId sql execResult tokenUsage nodeTimings =>
    refine ⟨.inr ?_, JavaTaskState.shaped_encode _ rfl rfl, base_error ⟨none, rfl⟩⟩
    rw [Later, cached_status]
    decide

/-- The document stays, is created, or is replaced by one with a status after PENDING. -/
theorem taskAfter_doc (c : Choice) (allowed : allows role p e) :
    (w.taskAfter c e).doc = w.task.doc ∨
      (∃ d, (w.taskAfter c e).doc = some d ∧ Known d ∧ Later d) ∨
      ∃ note submission, e = .task note (.create submission) := by
  cases e with
  | task note e =>
    cases e with
    | create submission => exact .inr (.inr ⟨note, submission, rfl⟩)
    | update seen basis write =>
      obtain ⟨-, -, -, updates⟩ := allowed
      have later : Later (TaskStore.merged c.now basis write.fields) := by
        rw [Later, TaskStore.status_merged]
        exact updates.later
      exact .inr (.inl ⟨_, rfl, ⟨.inr later, formed_merged updates.formed write c.now⟩, later⟩)
    | save s operation =>
      obtain ⟨-, -, -, readable⟩ := allowed
      have later : Later (JavaTaskState.encode (operation.saved c.now s)) := by
        cases operation with
        | feedback =>
          rw [Later, JavaTaskState.Operation.saved, TaskThreads.status_feedbackSaved]
          decide
        | scanStale =>
          rw [Later, JavaTaskState.Operation.saved, TaskThreads.status_staleSaved]
          decide
      exact .inr (.inl ⟨_, rfl, ⟨.inr later, formed_saved readable operation c.now⟩, later⟩)
    | _ => exact .inl rfl
  | send note item =>
    cases item <;> exact .inl rfl
  | _ => exact .inl rfl

/-- What an effect, an arrival or a move of the recorder cannot take back. -/
structure Grows (w w' : World) : Prop where
  stored : Stored w → Stored w'
  left : Left w → Left w'
  submitting : Stored w → w.submitting = false → w'.submitting = false
  graphs : ∀ run n : Nat, w.graphs[run]? = some n → w'.graphs[run]? = some n
  handlers : w.handlers ≤ w'.handlers
  charge : ∀ n ∈ w'.inCharge, n < w.handlers → n ∈ w.inCharge

/-- A handler's number was given out, and the graph is its own. -/
def Role.bound (w : World) : Role → Prop
  | .handler n => n < w.handlers
  | .graph n run => n < w.handlers ∧ w.graphs[run]? = some n
  | _ => True

theorem Role.bound.number (bound : role.bound w) (mine : n ∈ role.number) : n < w.handlers := by
  cases role with
  | handler m =>
    obtain rfl := Option.some.inj mine
    exact bound
  | graph m run =>
    obtain rfl := Option.some.inj mine
    exact bound.1
  | _ => contradiction

theorem Role.bound.grows (bound : role.bound w) (grows : Grows w w') : role.bound w' := by
  cases role with
  | handler m => exact Nat.lt_of_lt_of_le bound grows.handlers
  | graph m run => exact ⟨Nat.lt_of_lt_of_le bound.1 grows.handlers, grows.graphs run m bound.2⟩
  | _ => trivial

theorem Left.stored (left : Left w) : Stored w := by
  obtain ⟨d, stored, -⟩ := left
  simp [Stored, stored]

theorem At.grows (at_point : At w role p) (bound : role.bound w) (grows : Grows w w') :
    At w' role p := by
  cases p with
  | missing => trivial
  | accepting => exact ⟨grows.stored at_point.1, at_point.2⟩
  | stored =>
    exact ⟨grows.stored at_point.1, fun mine => grows.submitting at_point.1 (at_point.2 mine)⟩
  | left =>
    refine ⟨grows.left at_point.1, fun mine => ?_⟩
    exact grows.submitting at_point.1.stored (at_point.2 mine)
  | running run =>
    exact ⟨grows.left at_point.1, fun n mine => grows.graphs run n (at_point.2 n mine)⟩
  | done =>
    refine ⟨grows.left at_point.1, fun n mine charged => ?_⟩
    exact at_point.2 n mine (grows.charge n charged (bound.number mine))

theorem chargeAfter_subset (w : World) (e : Effect) : ∀ n ∈ chargeAfter w e, n ∈ w.inCharge := by
  intro n charged
  unfold chargeAfter at charged
  split at charged
  all_goals try split at charged
  all_goals first
    | exact charged
    | exact List.mem_of_mem_filter charged

theorem after_graphs {task : TaskThreads.World} (run n : Nat) (held : w.graphs[run]? = some n) :
    (w.after c task e).graphs[run]? = some n := by
  have append (m : Nat) : (w.graphs ++ [m])[run]? = some n := by
    rw [List.getElem?_append_left (List.getElem?_eq_some_iff.mp held).1, held]
  cases e with
  | task note e => cases e <;> first | exact held | exact append _
  | _ => exact held

theorem after_submitting (task : TaskThreads.World) (created : ∀ note submission,
    e ≠ .task note (.create submission)) (quiet : w.submitting = false) :
    (w.after c task e).submitting = false := by
  cases e with
  | task note e =>
    cases e with
    | create submission => exact absurd rfl (created note submission)
    | _ => exact quiet
  | send note item => cases item <;> simp [World.after, submittingAfter, quiet]
  | _ => exact quiet

theorem perform_grows (allowed : allows role p e)
    (performed : perform w c e = some (w', r, forks)) : Grows w w' := by
  obtain rfl := perform_after performed
  have absent (note : Note) (submission : Submission) (created : e = .task note (.create submission)) :
      w.task.doc = none := by
    subst created
    obtain ⟨started, replied, -⟩ := perform_task performed
    obtain ⟨missing, -⟩ := Option.ite_none_right_eq_some.mp replied
    simpa using missing
  have document := taskAfter_doc (w := w) c allowed
  refine ⟨?_, ?_, ?_, after_graphs, le_refl _, fun n charged _ => chargeAfter_subset w e n charged⟩
  · intro stored
    rcases document with same | ⟨d, replaced, -⟩ | ⟨note, submission, created⟩
    · exact (congrArg Option.isSome same).trans stored
    · exact congrArg Option.isSome replaced
    · simp [Stored, absent note submission created] at stored
  · rintro ⟨d, stored, later⟩
    rcases document with same | ⟨d', replaced, -, later'⟩ | ⟨note, submission, created⟩
    · exact ⟨d, same.trans stored, later⟩
    · exact ⟨d', replaced, later'⟩
    · simp [absent note submission created] at stored
  · intro stored quiet
    refine after_submitting _ (fun note submission created => ?_) quiet
    simp [Stored, absent note submission created] at stored

/-- What the task's keys, the topics and the handlers have to do with one another. -/
structure Sound (w : World) : Prop where
  known : ∀ d ∈ w.task.doc, Known d
  topic : ∀ item ∈ w.broker.topic, Stored w
  feedback : ∀ m, .feedback m ∈ w.broker.topic → Left w
  unread : ∀ item ∈ w.broker.unread, item ∈ w.broker.topic
  evented : w.recorder.evented = true → Stored w
  submitting : w.submitting = true → Stored w
  length : w.graphs.length = w.task.runs
  results : ∀ run result, (run, result) ∈ w.task.results → run < w.graphs.length
  returned : ∀ run n : Nat, (run, .returned true) ∈ w.task.results → w.graphs[run]? = some n →
    n ∉ w.inCharge
  charge : ∀ n ∈ w.inCharge, n < w.handlers
  graphs : ∀ n ∈ w.graphs, n < w.handlers

theorem At.stored (at_point : At w role p) (known : p ≠ .missing) : Stored w := by
  cases p with
  | missing => exact absurd rfl known
  | accepting => exact at_point.1
  | stored => exact at_point.1
  | _ => exact at_point.1.stored

theorem after_topic {task : TaskThreads.World} {item : Item}
    (held : item ∈ (w.after c task e).broker.topic) :
    item ∈ w.broker.topic ∨ ∃ note, e = .send note item := by
  cases e with
  | send note sent =>
    simp only [World.after, Broker.after] at held
    split at held
    · exact .inl held
    · rcases List.mem_cons.mp held with rfl | old
      · exact .inr ⟨note, rfl⟩
      · exact .inl old
  | _ => exact .inl held

theorem after_unread {task : TaskThreads.World} {item : Item}
    (unread : ∀ item ∈ w.broker.unread, item ∈ w.broker.topic)
    (held : item ∈ (w.after c task e).broker.unread) : item ∈ (w.after c task e).broker.topic := by
  cases e with
  | send note sent =>
    simp only [World.after, Broker.after] at held ⊢
    split at held
    next lost =>
      rw [if_pos lost]
      exact unread item held
    next arrived =>
      rw [if_neg arrived]
      rcases List.mem_cons.mp held with rfl | old
      · exact List.mem_cons_self
      · exact List.mem_cons_of_mem _ (unread item old)
  | _ => exact unread item held

theorem after_evented {task : TaskThreads.World}
    (evented : (w.after c task e).recorder.evented = true) :
    w.recorder.evented = true ∨ ∃ event, e = .publish event := by
  cases e with
  | publish event => exact .inr ⟨event, rfl⟩
  | _ => exact .inl evented

theorem after_length (length : w.graphs.length = w.task.runs) :
    (w.after c (w.taskAfter c e) e).graphs.length = (w.taskAfter c e).runs := by
  have append (m : Nat) : (w.graphs ++ [m]).length = w.task.runs + 1 := by
    rw [List.length_append, length, List.length_singleton]
  cases e with
  | task note e => cases e <;> first | exact length | exact append _
  | send note item => cases item <;> exact length
  | _ => exact length

/-- A graph that the effect starts is the acting handler's. -/
theorem after_started {m : Nat} (allowed : allows role p e)
    (held : m ∈ (w.after c (w.taskAfter c e) e).graphs) : m ∈ w.graphs ∨ m ∈ role.number := by
  have append {note : Note} (mine : note.handler = role.number)
      (handler : ∃ n, role = .handler n ∧ p = .left)
      (held : m ∈ w.graphs ++ [note.handler.getD 0]) : m ∈ w.graphs ∨ m ∈ role.number := by
    obtain ⟨n, rfl, -⟩ := handler
    rcases List.mem_append.mp held with old | new
    · exact .inl old
    · rw [mine] at new
      exact .inr (congrArg some (List.mem_singleton.mp new).symm)
  cases e with
  | task note e =>
    cases e with
    | startGraph => exact append allowed.2.1 allowed.2.2 held
    | startFeedbackGraph => exact append allowed.2.1 allowed.2.2 held
    | _ => exact .inl held
  | _ => exact .inl held

/-- Only a graph settles its own result. -/
theorem after_results {run : Nat} {result : TaskThreads.Result} (allowed : allows role p e)
    (held : (run, result) ∈ (w.taskAfter c e).results) :
    (run, result) ∈ w.task.results ∨
      ∃ n, role = .graph n run ∧ (result = .returned true → p = .done) := by
  cases e with
  | task note e =>
    cases e with
    | settle other settled =>
      obtain ⟨-, -, n, graph, done⟩ := allowed
      rcases List.mem_cons.mp held with new | old
      · obtain ⟨rfl, rfl⟩ := Prod.mk.inj new
        exact .inr ⟨n, graph, done⟩
      · exact .inl old
    | _ => exact .inl held
  | send note item => cases item <;> exact .inl held
  | _ => exact .inl held

theorem perform_sound (sound : Sound w) (bound : role.bound w) (at_point : At w role p)
    (allowed : allows role p e) (performed : perform w c e = some (w', r, forks)) : Sound w' := by
  have grows := perform_grows allowed performed
  obtain rfl := perform_after performed
  have longer : w.graphs.length ≤ (w.after c (w.taskAfter c e) e).graphs.length := by
    by_contra shorter
    have held := List.getElem?_eq_getElem (l := w.graphs)
      (i := (w.after c (w.taskAfter c e) e).graphs.length) (by omega)
    have kept := grows.graphs _ _ held
    exact absurd (List.getElem?_eq_some_iff.mp kept).1 (by omega)
  refine {
    known := ?_, topic := ?_, feedback := ?_, unread := fun _ => after_unread sound.unread,
    evented := ?_, submitting := ?_, length := after_length sound.length, results := ?_,
    returned := ?_, charge := ?_, graphs := ?_ }
  · intro d stored
    rcases taskAfter_doc (w := w) c allowed with same | ⟨d', replaced, known, -⟩ |
      ⟨note, submission, rfl⟩
    · exact sound.known d (same.symm.trans stored)
    · obtain rfl : d' = d := Option.some.inj (replaced.symm.trans stored)
      exact known
    · obtain rfl : submission.document c.now = d := Option.some.inj stored
      exact created_known submission c.now
  · intro item held
    rcases after_topic held with old | ⟨note, rfl⟩
    · exact grows.stored (sound.topic item old)
    · apply grows.stored
      cases item with
      | request retryCount =>
        obtain ⟨-, ⟨-, rfl⟩ | ⟨n, -, rfl⟩⟩ := allowed
        · exact at_point.stored nofun
        · exact at_point.stored nofun
      | feedback m =>
        obtain ⟨-, -, rfl⟩ := allowed
        exact at_point.stored nofun
  · intro m held
    rcases after_topic held with old | ⟨note, rfl⟩
    · exact grows.left (sound.feedback m old)
    · obtain ⟨-, -, rfl⟩ := allowed
      exact grows.left at_point.1
  · intro evented
    rcases after_evented evented with old | ⟨event, rfl⟩
    · exact grows.stored (sound.evented old)
    · exact grows.stored (at_point.stored allowed)
  · intro submitting
    by_cases created : ∃ note submission, e = .task note (.create submission)
    · obtain ⟨note, submission, rfl⟩ := created
      rfl
    · apply grows.stored
      by_contra absent
      have quiet : w.submitting = false := by
        by_contra busy
        exact absent (sound.submitting (by simpa using busy))
      have kept := after_submitting (c := c) (w.taskAfter c e)
        (fun note submission same => created ⟨note, submission, same⟩) quiet
      rw [kept] at submitting
      contradiction
  · intro run result held
    rcases after_results allowed held with old | ⟨n, rfl, -⟩
    · exact Nat.lt_of_lt_of_le (sound.results run result old) longer
    · exact (List.getElem?_eq_some_iff.mp (grows.graphs run n bound.2)).1
  · intro run n held graph charged
    have before := chargeAfter_subset w e n charged
    rcases after_results allowed held with old | ⟨m, rfl, done⟩
    · have there := List.getElem?_eq_getElem (sound.results run _ old)
      have same := (grows.graphs run _ there).symm.trans graph
      exact sound.returned run n old (there.trans same) before
    · have same := (grows.graphs run m bound.2).symm.trans graph
      obtain rfl := Option.some.inj same
      obtain rfl := done rfl
      exact at_point.2 m rfl before
  · intro n charged
    exact sound.charge n (chargeAfter_subset w e n charged)
  · intro n held
    rcases after_started allowed held with old | mine
    · exact sound.graphs n old
    · exact bound.number mine

theorem later_at (left : Left w') (apart : role ≠ .submit) (bound : role.bound w) (at_point : At w role p)
    (grows : Grows w w') : At w' role p.later := by
  have place : p = .done ∨ p.later = .left := by cases p <;> simp [Point.later]
  rcases place with rfl | same
  · exact at_point.grows bound grows
  · rw [same]
    exact ⟨left, fun mine => absurd mine apart⟩

/-- Where a read leads. -/
theorem reads_next {ends : Doc → Bool} (sound : Sound w) (apart : role ≠ .submit)
    (bound : role.bound w) (at_point : At w role p) (grows : Grows w w')
    (ended : ∀ d, w.task.doc = some d → ends d = true → ∀ n ∈ role.number, n ∉ w'.inCharge) :
    ∃ p', Reads ends p w.task.doc p' ∧ At w' role p' := by
  cases stored : w.task.doc with
  | none =>
    have missing : p = .missing := by
      by_contra known
      have held := at_point.stored known
      simp [Stored, stored] at held
    exact ⟨.missing, ⟨missing, rfl⟩, trivial⟩
  | some d =>
    have known := sound.known d stored
    have here : Stored w := by simp [Stored, stored]
    by_cases pending : TaskStore.status d = "PENDING"
    · have early : ¬ Later d := by
        rw [Later, pending]
        decide
      have point : p = .missing ∨ p = .stored := by
        have notLeft : ¬ Left w := by
          rintro ⟨d', stored', later⟩
          obtain rfl : d = d' := Option.some.inj (stored.symm.trans stored')
          exact early later
        cases p with
        | missing => exact .inl rfl
        | stored => exact .inr rfl
        | accepting => exact absurd at_point.2 apart
        | _ => exact absurd at_point.1 notLeft
      refine ⟨.stored, ⟨known, fun _ => ⟨point, rfl⟩, fun later => absurd later early⟩, ?_⟩
      exact ⟨grows.stored here, fun mine => absurd mine apart⟩
    · have later := known.status.resolve_left pending
      have left : Left w' := grows.left ⟨d, stored, later⟩
      refine ⟨_, ⟨known, fun status => absurd status pending, fun _ => rfl⟩, ?_⟩
      by_cases final : ends d = true
      · rw [if_pos final]
        exact ⟨left, ended d stored final⟩
      · rw [if_neg final]
        exact later_at left apart bound at_point grows

theorem filtered {numbers : List Nat} {handler : Option Nat} (mine : n ∈ handler) :
    n ∉ numbers.filter fun m => some m ≠ handler := by
  intro member
  have other := (List.mem_filter.mp member).2
  simp [Option.mem_def.mp mine] at other

theorem started_graph {handler : Option Nat} (sound : Sound w) (mine : n ∈ handler) :
    (w.graphs ++ [handler.getD 0])[w.task.runs]? = some n := by
  rw [← sound.length, List.getElem?_append_right (le_refl _), Nat.sub_self]
  simp [Option.mem_def.mp mine]

/-- The answer leads to a point of the protocol that holds afterwards. -/
theorem perform_next (sound : Sound w) (bound : role.bound w) (at_point : At w role p)
    (allowed : allows role p e) (performed : perform w c e = some (w', r, forks)) :
    ∃ p', next role p e r p' ∧ At w' role p' := by
  have grows := perform_grows allowed performed
  cases e with
  | task note e =>
    obtain ⟨started, replied, -⟩ := perform_task performed
    obtain rfl := perform_after performed
    cases e with
    | create submission =>
      obtain ⟨rfl, rfl, -⟩ := allowed
      obtain ⟨missing, -⟩ := Option.ite_none_right_eq_some.mp replied
      have quiet : w.submitting = false := by
        by_contra busy
        have stored := sound.submitting (by simpa using busy)
        rw [Option.isNone_iff_eq_none] at missing
        simp [Stored, missing] at stored
      cases submission with
      | cached taskId question dbId sql execResult tokenUsage nodeTimings =>
        refine ⟨.left, rfl, ⟨_, rfl, ?_⟩, fun _ => quiet⟩
        rw [Later, cached_status]
        decide
      | _ => exact ⟨.accepting, rfl, rfl, rfl⟩
    | read =>
      obtain ⟨apart, mine, -⟩ := allowed
      obtain ⟨rfl, -⟩ := Prod.mk.inj (Option.some.inj replied)
      apply reads_next sound apart bound at_point grows
      intro d stored finished m number
      have finished : note.decides = true ∧ isOver w.task.doc = true := by
        rw [stored]
        simpa using finished
      change m ∉ if note.decides = true ∧ isOver w.task.doc = true then _ else _
      rw [if_pos finished]
      exact filtered (mine ▸ number)
    | inspect delivery =>
      obtain ⟨apart, mine, -⟩ := allowed
      obtain ⟨rfl, -⟩ := Prod.mk.inj (Option.some.inj replied)
      apply reads_next sound apart bound at_point grows
      intro d stored running m number
      change m ∉ if TaskThreads.isRunning w.task.doc = true then _ else _
      rw [stored, if_pos running]
      exact filtered (mine ▸ number)
    | update seen basis write =>
      obtain ⟨apart, mine, -, updates⟩ := allowed
      have left : Left (w.after c (w.taskAfter c (.task note (.update seen basis write)))
          (.task note (.update seen basis write))) := by
        refine ⟨_, rfl, ?_⟩
        rw [Later, TaskStore.status_merged]
        exact updates.later
      refine ⟨_, rfl, ?_⟩
      cases decides : note.decides with
      | true =>
        refine ⟨left, fun m number => ?_⟩
        change m ∉ if note.decides = true then _ else _
        rw [if_pos decides]
        exact filtered (mine ▸ number)
      | false => exact later_at left apart bound at_point grows
    | startGraph =>
      obtain ⟨apart, mine, n, rfl, rfl⟩ := allowed
      obtain ⟨rfl, -⟩ := Prod.mk.inj (Option.some.inj replied)
      refine ⟨_, rfl, grows.left at_point.1, fun m number => ?_⟩
      exact started_graph sound (mine ▸ number)
    | startFeedbackGraph delivery =>
      obtain ⟨apart, mine, n, rfl, rfl⟩ := allowed
      obtain ⟨rfl, -⟩ := Prod.mk.inj (Option.some.inj replied)
      refine ⟨_, rfl, grows.left at_point.1, fun m number => ?_⟩
      exact started_graph sound (mine ▸ number)
    | await run =>
      obtain ⟨apart, mine, rfl⟩ := allowed
      refine ⟨_, rfl, ?_⟩
      have left := grows.left at_point.1
      by_cases cancelled : r = TaskThreads.Waited.done (.returned true)
      · subst cancelled
        refine ⟨left, fun m number charged => ?_⟩
        obtain ⟨-, late | ⟨result, same, found⟩⟩ := TaskThreads.reply_await replied
        · contradiction
        · obtain rfl := TaskThreads.Waited.done.inj same
          have held := mem_of_lookup found
          exact sound.returned run m held (at_point.2 m number) charged
      · have place : Point.awaited r = .left := awaited_left cancelled
        rw [place]
        exact ⟨left, fun same => absurd same apart⟩
    | _ => exact ⟨p, rfl, at_point.grows bound grows⟩
  | send note item =>
    cases item with
    | request retryCount =>
      obtain rfl := perform_after performed
      obtain ⟨mine, ⟨rfl, rfl⟩ | ⟨n, rfl, rfl⟩⟩ := allowed
      · have quiet : note.handler.isSome = false := by rw [mine]; rfl
        refine ⟨.stored, rfl, grows.stored at_point.1, fun _ => ?_⟩
        change (w.submitting && note.handler.isSome) = false
        rw [quiet, Bool.and_false]
      · exact ⟨.done, rfl, grows.left at_point.1, fun m number => filtered (mine ▸ number)⟩
    | feedback m => exact ⟨p, rfl, at_point.grows bound grows⟩
  | _ => exact ⟨p, rfl, at_point.grows bound grows⟩

/-- A thread keeps to its role's protocol from a point that holds. -/
def OnTrack (w : World) (role : Role) (q : Task Unit) : Prop :=
  role.bound w ∧ ∃ p, At w role p ∧ q.Follows (protocol role) p

theorem OnTrack.grows {q : Task Unit} (track : OnTrack w role q) (grows : Grows w w') :
    OnTrack w' role q := by
  obtain ⟨bound, p, at_point, follows⟩ := track
  exact ⟨bound.grows grows, p, at_point.grows bound grows, follows⟩

theorem graph_onTrack {run : Nat} {task : TaskThreads.Desc} (left : Left w) (bound : n < w.handlers)
    (mine : w.graphs[run]? = some n)
    (kind : (∃ graph, task = .runGraph run graph) ∨ ∃ graph, task = .runFeedbackGraph run graph) :
    OnTrack w (Desc.role { task, handler := n }) (body { task, handler := n }) := by
  rcases kind with ⟨graph, rfl⟩ | ⟨graph, rfl⟩
  · exact ⟨⟨bound, mine⟩, .left, ⟨left, nofun⟩, runGraph_follows run graph⟩
  · exact ⟨⟨bound, mine⟩, .left, ⟨left, nofun⟩, runFeedbackGraph_follows run graph⟩

/-- The graphs that a handler starts are on their way. -/
theorem forks_onTrack (sound : Sound w) (bound : role.bound w) (at_point : At w role p)
    (allowed : allows role p e) (performed : perform w c e = some (w', r, forks)) :
    ∀ f ∈ forks, OnTrack w' f.role (body f) := by
  have grows := perform_grows allowed performed
  cases e with
  | task note e =>
    obtain ⟨started, replied, rfl⟩ := perform_task performed
    obtain rfl := perform_after performed
    obtain rfl := TaskThreads.reply_starts replied
    cases e with
    | startGraph =>
      obtain ⟨apart, mine, n, rfl, rfl⟩ := allowed
      have here : n < w.handlers := bound
      have graph := started_graph sound (mine ▸ rfl : n ∈ note.handler)
      simp only [TaskThreads.World.starts, List.map_cons, List.map_nil, List.mem_singleton, forall_eq,
        mine]
      exact graph_onTrack (grows.left at_point.1) here graph (.inl ⟨c.graph, rfl⟩)
    | startFeedbackGraph delivery =>
      obtain ⟨apart, mine, n, rfl, rfl⟩ := allowed
      have here : n < w.handlers := bound
      have graph := started_graph sound (mine ▸ rfl : n ∈ note.handler)
      simp only [TaskThreads.World.starts, List.map_cons, List.map_nil, List.mem_singleton, forall_eq,
        mine]
      exact graph_onTrack (grows.left at_point.1) here graph (.inr ⟨c.feedbackGraph, rfl⟩)
    | _ => exact fun f forked => absurd forked List.not_mem_nil
  | _ =>
    obtain ⟨-, same⟩ := Prod.mk.inj (Option.some.inj performed)
    obtain ⟨-, rfl⟩ := Prod.mk.inj same
    exact fun f forked => absurd forked List.not_mem_nil

/-- An arrival leaves everything but the numbers of the handlers and the messages to be
read. -/
structure Arrives (w w' : World) : Prop where
  doc : w'.task.doc = w.task.doc
  runs : w'.task.runs = w.task.runs
  results : w'.task.results = w.task.results
  topic : w'.broker.topic = w.broker.topic
  unread : ∀ item ∈ w'.broker.unread, item ∈ w.broker.unread
  recorder : w'.recorder = w.recorder
  graphs : w'.graphs = w.graphs
  submitting : w'.submitting = w.submitting
  handlers : w.handlers ≤ w'.handlers
  charge : ∀ n ∈ w'.inCharge, n ∈ w.inCharge ∨ (n = w.handlers ∧ n < w'.handlers)

theorem Arrives.grows (arrives : Arrives w w') : Grows w w' where
  stored stored := by
    rw [Stored, arrives.doc]
    exact stored
  left left := by
    obtain ⟨d, stored, later⟩ := left
    exact ⟨d, arrives.doc.trans stored, later⟩
  submitting _ quiet := arrives.submitting.trans quiet
  graphs run n held := by
    rw [arrives.graphs]
    exact held
  handlers := arrives.handlers
  charge n charged old := by
    rcases arrives.charge n charged with before | ⟨rfl, -⟩
    · exact before
    · exact absurd old (lt_irrefl _)

theorem Arrives.sound (arrives : Arrives w w') (sound : Sound w) : Sound w' where
  known := by
    rw [arrives.doc]
    exact sound.known
  topic item held := by
    rw [arrives.topic] at held
    exact arrives.grows.stored (sound.topic item held)
  feedback m held := by
    rw [arrives.topic] at held
    exact arrives.grows.left (sound.feedback m held)
  unread item held := by
    rw [arrives.topic]
    exact sound.unread item (arrives.unread item held)
  evented evented := by
    rw [arrives.recorder] at evented
    exact arrives.grows.stored (sound.evented evented)
  submitting busy := by
    rw [arrives.submitting] at busy
    exact arrives.grows.stored (sound.submitting busy)
  length := by
    rw [arrives.graphs, arrives.runs]
    exact sound.length
  results run result held := by
    rw [arrives.results] at held
    rw [arrives.graphs]
    exact sound.results run result held
  returned run n held graph charged := by
    rw [arrives.results] at held
    rw [arrives.graphs] at graph
    rcases arrives.charge n charged with before | ⟨rfl, -⟩
    · exact sound.returned run n held graph before
    · exact absurd (sound.graphs _ (List.mem_of_getElem? graph)) (lt_irrefl _)
  charge n charged := by
    rcases arrives.charge n charged with before | ⟨-, bound⟩
    · exact Nat.lt_of_lt_of_le (sound.charge n before) arrives.handlers
    · exact bound
  graphs n held := by
    rw [arrives.graphs] at held
    exact Nat.lt_of_lt_of_le (sound.graphs n held) arrives.handlers

theorem task_arrive {task task' : TaskThreads.World} {d : TaskThreads.Desc}
    (arrived : TaskThreads.arrive task d = some task') :
    task'.doc = task.doc ∧ task'.runs = task.runs ∧ task'.results = task.results := by
  cases d with
  | feedback endpoint request =>
    obtain ⟨-, same⟩ := Option.ite_none_right_eq_some.mp arrived
    obtain rfl := Option.some.inj same
    exact ⟨rfl, rfl, rfl⟩
  | handleTask retryCount =>
    obtain ⟨-, same⟩ := Option.ite_none_right_eq_some.mp arrived
    obtain rfl := Option.some.inj same
    exact ⟨rfl, rfl, rfl⟩
  | handleFeedback m delivery =>
    obtain ⟨-, same⟩ := Option.ite_none_right_eq_some.mp arrived
    obtain rfl := Option.some.inj same
    exact ⟨rfl, rfl, rfl⟩
  | runGraph run graph => contradiction
  | runFeedbackGraph run graph => contradiction
  | _ =>
    obtain rfl := Option.some.inj arrived
    exact ⟨rfl, rfl, rfl⟩

theorem deliver_topic {b b' : Broker} {again : Bool} {item : Item}
    (unread : ∀ item ∈ b.unread, item ∈ b.topic) (delivered : b.deliver again item = some b') :
    item ∈ b.topic ∧ b'.topic = b.topic ∧ ∀ other ∈ b'.unread, other ∈ b.unread := by
  unfold Broker.deliver at delivered
  split at delivered
  · obtain ⟨held, same⟩ := Option.ite_none_right_eq_some.mp delivered
    obtain rfl := Option.some.inj same
    exact ⟨held, rfl, fun _ other => other⟩
  · obtain ⟨held, same⟩ := Option.ite_none_right_eq_some.mp delivered
    obtain rfl := Option.some.inj same
    exact ⟨unread item held, rfl, fun _ other => List.mem_of_mem_erase other⟩

/-- Everything an arrival can be. -/
theorem arrive_cases {d : Desc} (arrived : arrive w d = some w') :
    (d.role = .submit ∧ w' = { w with submitted := true }) ∨
    (d.role = .outside ∧ ∃ task, TaskThreads.arrive w.task d.task = some task ∧
      w' = { w with task := task }) ∨
    (d.role = .handler d.handler ∧ d.handler = w.handlers ∧ ∃ item broker task,
      ((∃ retryCount, d.task = .handleTask retryCount ∧ item = .request retryCount) ∨
        ∃ m delivery, d.task = .handleFeedback m delivery ∧ item = .feedback m) ∧
      w.broker.deliver d.again item = some broker ∧ TaskThreads.arrive w.task d.task = some task ∧
      w' = { w with
        task := task
        broker := broker
        handlers := w.handlers + 1
        inCharge := d.handler :: w.inCharge }) := by
  obtain ⟨task, number, again⟩ := d
  cases task with
  | submit submission =>
    obtain ⟨-, same⟩ := Option.ite_none_left_eq_some.mp arrived
    exact .inl ⟨rfl, (Option.some.inj same).symm⟩
  | handleTask retryCount =>
    obtain ⟨new, opened⟩ := Option.ite_none_right_eq_some.mp arrived
    obtain ⟨broker, delivered, taken⟩ := Option.bind_eq_some_iff.mp opened
    obtain ⟨task, here, same⟩ := Option.map_eq_some_iff.mp taken
    exact .inr (.inr ⟨rfl, new, _, broker, task, .inl ⟨retryCount, rfl, rfl⟩, delivered, here, same.symm⟩)
  | handleFeedback m delivery =>
    obtain ⟨new, opened⟩ := Option.ite_none_right_eq_some.mp arrived
    obtain ⟨broker, delivered, taken⟩ := Option.bind_eq_some_iff.mp opened
    obtain ⟨task, here, same⟩ := Option.map_eq_some_iff.mp taken
    exact .inr (.inr ⟨rfl, new, _, broker, task, .inr ⟨m, delivery, rfl, rfl⟩, delivered, here, same.symm⟩)
  | runGraph run graph => contradiction
  | runFeedbackGraph run graph => contradiction
  | cancel endpoint =>
    exact .inr (.inl ⟨rfl, w.task, rfl, (Option.some.inj arrived).symm⟩)
  | scanStale endpoint =>
    exact .inr (.inl ⟨rfl, w.task, rfl, (Option.some.inj arrived).symm⟩)
  | feedback endpoint request =>
    have taken : (TaskThreads.arrive w.task (.feedback endpoint request)).map
        (fun task => { w with task := task }) = some w' := arrived
    obtain ⟨task, here, same⟩ := Option.map_eq_some_iff.mp taken
    exact .inr (.inl ⟨rfl, task, here, same.symm⟩)

theorem arrive_arrives {d : Desc} (sound : Sound w) (arrived : arrive w d = some w') :
    Arrives w w' := by
  rcases arrive_cases arrived with ⟨-, rfl⟩ | ⟨-, task, here, rfl⟩ |
    ⟨-, number, item, broker, task, -, delivered, here, rfl⟩
  · exact ⟨rfl, rfl, rfl, rfl, fun _ held => held, rfl, rfl, rfl, le_refl _, fun _ held => .inl held⟩
  · obtain ⟨doc, runs, results⟩ := task_arrive here
    exact ⟨doc, runs, results, rfl, fun _ held => held, rfl, rfl, rfl, le_refl _,
      fun _ held => .inl held⟩
  · obtain ⟨-, topic, unread⟩ := deliver_topic sound.unread delivered
    obtain ⟨doc, runs, results⟩ := task_arrive here
    refine ⟨doc, runs, results, topic, unread, rfl, rfl, rfl, Nat.le_succ _, ?_⟩
    intro n charged
    rcases List.mem_cons.mp charged with rfl | old
    · exact .inr ⟨number, Nat.lt_succ_of_le (le_of_eq number)⟩
    · exact .inl old

theorem outside_follows {task : TaskThreads.Desc} {number : Nat} {again : Bool}
    (role : Desc.role ⟨task, number, again⟩ = .outside) :
    (body ⟨task, number, again⟩).Follows (protocol .outside) .missing := by
  cases task with
  | cancel endpoint =>
    exact (Prog.keeps_embed _ _ (taskCancel_keeps endpoint)).follows fun _ _ _ => trivial
  | scanStale endpoint =>
    exact (Prog.keeps_embed _ _ (scanStale_keeps endpoint)).follows fun _ _ _ => trivial
  | feedback endpoint request =>
    exact (Prog.keeps_embed _ _ (taskFeedback_keeps request endpoint)).follows fun _ _ _ => trivial
  | _ => contradiction

theorem arrive_onTrack {d : Desc} (sound : Sound w) (arrived : arrive w d = some w') :
    OnTrack w' d.role (body d) := by
  have grows := (arrive_arrives sound arrived).grows
  rcases arrive_cases arrived with ⟨role, rfl⟩ | ⟨role, task, here, rfl⟩ |
    ⟨role, number, item, broker, task, kind, delivered, here, rfl⟩
  · obtain ⟨task, number, again⟩ := d
    cases task with
    | submit submission => exact ⟨trivial, .missing, trivial, submit_follows submission⟩
    | _ => contradiction
  · rw [role]
    exact ⟨trivial, .missing, trivial, outside_follows role⟩
  · have held := (deliver_topic sound.unread delivered).1
    rw [role]
    have bound : d.handler < w.handlers + 1 := Nat.lt_succ_of_le (le_of_eq number)
    obtain ⟨kindTask, handler, again⟩ := d
    rcases kind with ⟨retryCount, rfl, rfl⟩ | ⟨m, delivery, rfl, rfl⟩
    · exact ⟨bound, .stored, ⟨grows.stored (sound.topic _ held), nofun⟩, handleTask_follows retryCount⟩
    · exact ⟨bound, .left, ⟨grows.left (sound.feedback m held), nofun⟩,
        handleFeedback_follows m delivery⟩

/-- Everything a move of the recorder can be. -/
theorem move_cases {recorder recorder' : Recorder} {doc : Option Doc} {move : Move}
    (moved : recorder.move doc move = some recorder') :
    (move = .consume ∧ recorder' = { recorder with events := recorder.events - 1, dirty := true }) ∨
    (move = .redeliver ∧ recorder' = { recorder with dirty := true }) ∨
    (move = .drain ∧ recorder' = { recorder with dirty := false, batch := true }) ∨
    (move = .read ∧ recorder' =
      { recorder with batch := false, read := doc.bind JavaTaskState.decode }) ∨
    (move = .upsert ∧ ∃ s, recorder.read = some s ∧
      recorder' = { recorder with read := none, row := some s }) := by
  cases move with
  | consume =>
    obtain ⟨-, same⟩ := Option.ite_none_left_eq_some.mp moved
    exact .inl ⟨rfl, (Option.some.inj same).symm⟩
  | redeliver =>
    obtain ⟨-, same⟩ := Option.ite_none_right_eq_some.mp moved
    exact .inr (.inl ⟨rfl, (Option.some.inj same).symm⟩)
  | drain =>
    obtain ⟨-, same⟩ := Option.ite_none_right_eq_some.mp moved
    exact .inr (.inr (.inl ⟨rfl, (Option.some.inj same).symm⟩))
  | read =>
    obtain ⟨-, same⟩ := Option.ite_none_right_eq_some.mp moved
    exact .inr (.inr (.inr (.inl ⟨rfl, (Option.some.inj same).symm⟩)))
  | upsert =>
    cases taken : recorder.read with
    | none => simp [Recorder.move, taken] at moved
    | some s =>
      simp only [Recorder.move, taken, Option.some.injEq] at moved
      exact .inr (.inr (.inr (.inr ⟨rfl, s, rfl, moved.symm⟩)))

theorem move_evented {recorder recorder' : Recorder} {doc : Option Doc} {move : Move}
    (moved : recorder.move doc move = some recorder') : recorder'.evented = recorder.evented := by
  rcases move_cases moved with ⟨-, rfl⟩ | ⟨-, rfl⟩ | ⟨-, rfl⟩ | ⟨-, rfl⟩ | ⟨-, s, -, rfl⟩
  all_goals rfl

theorem moved_grows {recorder : Recorder} : Grows w { w with recorder := recorder } :=
  ⟨fun held => held, fun held => held, fun _ quiet => quiet, fun _ _ held => held, le_refl _,
    fun _ charged _ => charged⟩

theorem moved_sound {recorder : Recorder} {move : Move} (sound : Sound w)
    (moved : w.recorder.move w.task.doc move = some recorder) :
    Sound { w with recorder := recorder } where
  known := sound.known
  topic := sound.topic
  feedback := sound.feedback
  unread := sound.unread
  evented evented := sound.evented ((move_evented moved).symm.trans evented)
  submitting := sound.submitting
  length := sound.length
  results := sound.results
  returned := sound.returned
  charge := sound.charge
  graphs := sound.graphs

/-- In every run each thread finds its task as its protocol has it. -/
def progress : Threads.Outline system fun _ _ _ _ => True where
  inv := Sound
  ok w t := OnTrack w t.desc.role t.rest
  apart _ _ := True
  own sound track _ performed := by
    obtain ⟨bound, p, at_point, allowed, follows⟩ := track
    obtain ⟨p', reached, later⟩ := perform_next sound bound at_point allowed performed
    have bound' := bound.grows (perform_grows allowed performed)
    exact ⟨perform_sound sound bound at_point allowed performed,
      ⟨bound', p', later, follows _ p' reached⟩,
      forks_onTrack sound bound at_point allowed performed⟩
  stable _ track _ performed other _ := by
    obtain ⟨_, p, -, allowed, -⟩ := track
    exact other.grows (perform_grows allowed performed)
  fork_apart _ _ _ := ⟨fun _ _ _ _ => ⟨trivial, trivial⟩,
    List.pairwise_of_forall fun _ _ => ⟨trivial, trivial⟩⟩
  arrive sound arrived := by
    have arrives := arrive_arrives sound arrived
    exact ⟨arrives.sound sound, arrive_onTrack sound arrived,
      fun t other => ⟨other.grows arrives.grows, trivial, trivial⟩⟩
  ambient sound moved := by
    obtain ⟨recorder, recorded, rfl⟩ := Option.map_eq_some_iff.mp moved
    exact ⟨moved_sound sound recorded, fun t track => track.grows moved_grows⟩

theorem start_sound : Sound start.world where
  known d stored := by contradiction
  topic item held := by contradiction
  feedback m held := by contradiction
  unread item held := held
  evented evented := by contradiction
  submitting busy := by contradiction
  length := rfl
  results run result held := by contradiction
  returned run n held := by contradiction
  charge n held := by contradiction
  graphs n held := by contradiction

end TaskEvents
end Nl2SqlAgent

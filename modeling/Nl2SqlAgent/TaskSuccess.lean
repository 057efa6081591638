import Nl2SqlAgent.JavaWriteBack
import Nl2SqlAgent.StatusLegality
import Nl2SqlAgent.TaskLifecycle

/-! What a stored success, and an entry of the result cache, shows: the statement and
the result that a graph run reported at its end. -/
namespace Nl2SqlAgent

open Lib

namespace TaskLifecycle

variable {env : Env} {stamp : Stamp} {url : Option String} {d d' : Doc} {t t' : Task}
  {c c' : AgentGraph.Config} {v : AgentGraph.Visit}

/-- A run of one of the graphs on that database gets there. -/
def Reached (env : Env) (url : Option String) (c : AgentGraph.Config) : Prop :=
  ∃ c₀ visits, AgentGraph.Start c₀ ∧ c₀.state.databaseUrl = url ∧
    (AgentGraph.machine env).exec c₀ visits = some c

theorem Reached.step (reached : Reached env url c)
    (stepped : (AgentGraph.machine env).step c v = some c') : Reached env url c' := by
  obtain ⟨c₀, visits, start, same, run⟩ := reached
  refine ⟨c₀, visits ++ [v], start, same, ?_⟩
  rw [Machine.exec_append_some]
  exact ⟨c, run, by rw [Machine.exec_singleton, stepped]⟩

/-- The statement and the result are those of a run that got to its end. The recorder
stores an empty object where there is no result. -/
def Earned (env : Env) (url : Option String) (sql : String) (result : Json) : Prop :=
  ∃ c, Reached env url c ∧ c.node = .finish ∧ sql = finalSql c.state ∧
    (result = resultJson c.state.execResult ∨ (c.state.execResult = none ∧ result = .obj []))

/-- The document's statement and result are earned, on its own database unless it was
answered from the cache. -/
def Holds (env : Env) (url : Option String) (d : Doc) : Prop :=
  ∃ sql result origin, d.lookup "sql" = some (.str sql) ∧ d.lookup "exec_result" = some result ∧
    Earned env origin sql result ∧ (origin = url ∨ d.lookup "cache_hit" = some (.bool true))

/-- A document that the writers made, with its database. -/
structure Known (d : Doc) (url : Option String) : Prop where
  written : JavaTaskState.Written d
  address : d.lookup "database_url" = some (TaskStore.text url)

/-- No status in which feedback is accepted, SUCCESS among them. -/
def Closed (d : Doc) : Prop := TaskThreads.acceptsFeedback (TaskStore.status d) = false

/-- A graph at work for a task that is not done; its last update, when it is written, is
what the document holds. -/
structure Working (env : Env) (url : Option String) (d : Doc) (c : AgentGraph.Config) (done : Bool) :
    Prop where
  closed : Closed d
  reached : Reached env url c
  final : done = true → Holds env url d

/-- Where a task stands: its request waits or is at work, or is done; then feedback may
wait or be at work. -/
inductive Stage (env : Env) (url : Option String) (d : Doc) : List Message → Option Job → Prop where
  | queued (s : Submission) (retryCount : Fin 4) (own : (payload s).databaseUrl = url)
      (closed : Closed d) : Stage env url d [.request s retryCount] none
  | running (s : Submission) (retryCount : Fin 4) (c : AgentGraph.Config) (done : Bool)
      (own : (payload s).databaseUrl = url) (working : Working env url d c done) :
      Stage env url d [] (some ⟨.request s retryCount, c, done⟩)
  | settled (waiting : List Message) (rounds : ∀ m ∈ waiting, ∃ turn, m = .feedback url turn)
      (success : TaskStore.status d = "SUCCESS" → Holds env url d) : Stage env url d waiting none
  | correcting (waiting : List Message) (turn : Nat) (c : AgentGraph.Config) (done : Bool)
      (rounds : ∀ m ∈ waiting, ∃ turn, m = .feedback url turn)
      (working : Working env url d c done) :
      Stage env url d waiting (some ⟨.feedback url turn, c, done⟩)

structure Sound (env : Env) (url : Option String) (t : Task) : Prop where
  known : Known t.doc url
  stage : Stage env url t.doc t.waiting t.job

theorem text_inj {a b : Option String} (same : TaskStore.text a = TaskStore.text b) : a = b := by
  cases a <;> cases b <;> simp_all [TaskStore.text]

theorem Known.urlOf (known : Known d url) : urlOf d = url := by
  unfold TaskLifecycle.urlOf
  rw [known.address]
  cases url <;> rfl

theorem Known.decoded (known : Known d url) {s : JavaTaskState.TaskState}
    (decoded : JavaTaskState.decode d = some s) : s.databaseUrl = url :=
  text_inj ((JavaTaskState.decode_decoded decoded).databaseUrl.same TaskStore.text known.address
    JavaTaskState.readText_inverse)

theorem Known.update (known : Known d url) (write : TaskStore.Write) :
    Known (update stamp d write) url := by
  refine ⟨.worker d write stamp.now known.written, ?_⟩
  have other : "database_url" ∉ (write.fields ++ [("updated_at", Json.str stamp.now)]).map Prod.fst := by
    cases write with
    | ended status error => cases error <;> simp [TaskStore.Write.fields]
    | _ => simp [TaskStore.Write.fields]
  rw [TaskLifecycle.update, TaskStore.merged, Doc.lookup_update_other _ _ _ other, known.address]

theorem Known.transition (known : Known d url) (write : TaskStore.Write) :
    Known (transition stamp d write) url := by
  unfold TaskLifecycle.transition
  split
  · exact known.update write
  · exact known

theorem Known.feedbackTransition (known : Known d url) : Known (feedbackTransition stamp d) url := by
  unfold TaskLifecycle.feedbackTransition
  split
  · exact known.update .feedbackStarted
  · exact known

theorem Known.applied (known : Known d url) {operation : JavaTaskState.Operation}
    (applied : operation.apply stamp.now d = some d') : Known d' url := by
  refine ⟨.gateway d d' operation stamp.now known.written applied, ?_⟩
  have unmeant : "database_url" ∉ operation.meant := by cases operation <;> decide
  exact JavaTaskState.saved_keeps (JavaTaskState.written_shaped known.written)
    (JavaTaskState.apply_saved applied) unmeant (by decide) known.address

/-- What a document holds, another with the same three fields holds. -/
theorem Holds.kept (holds : Holds env url d)
    (same : ∀ key ∈ ["sql","exec_result","cache_hit"], ∀ value, d.lookup key = some value →
      d'.lookup key = some value) : Holds env url d' := by
  obtain ⟨sql, result, origin, stored, reported, earned, own⟩ := holds
  refine ⟨sql, result, origin, same _ (by simp) _ stored, same _ (by simp) _ reported, earned, ?_⟩
  exact own.imp_right fun cached => same _ (by simp) _ cached

/-- The write sets none of the fields that a success is known by. -/
def Aside (write : TaskStore.Write) : Prop :=
  ∀ key ∈ ["sql","exec_result","cache_hit"], key ∉ write.fields.map Prod.fst

theorem Holds.update (holds : Holds env url d) {write : TaskStore.Write} (aside : Aside write) :
    Holds env url (update stamp d write) := by
  apply holds.kept
  intro key member value found
  have stamped : key ≠ "updated_at" := by
    rintro rfl
    simp at member
  have absent : key ∉ (write.fields ++ [("updated_at", Json.str stamp.now)]).map Prod.fst := by
    simpa [stamped] using aside key member
  rw [TaskLifecycle.update, TaskStore.merged, Doc.lookup_update_other _ _ _ absent, found]

theorem aside_ended (next : String) (error : Option String) : Aside (.ended next error) := by
  intro key member
  cases error <;> simp only [TaskStore.Write.fields] <;> simp at member ⊢ <;>
    rcases member with rfl | rfl | rfl <;> simp

theorem Holds.transition (holds : Holds env url d) {write : TaskStore.Write} (aside : Aside write) :
    Holds env url (transition stamp d write) := by
  unfold TaskLifecycle.transition
  split
  · exact holds.update aside
  · exact holds

theorem Holds.feedbackTransition (holds : Holds env url d) :
    Holds env url (feedbackTransition stamp d) := by
  unfold TaskLifecycle.feedbackTransition
  split
  · apply holds.update
    intro key member
    simp only [List.mem_cons, List.not_mem_nil, or_false] at member
    rcases member with rfl | rfl | rfl <;> simp [TaskStore.Write.fields]
  · exact holds

theorem status_update (write : TaskStore.Write) :
    TaskStore.status (update stamp d write) = write.status.getD (TaskStore.status d) :=
  TaskStore.status_merged stamp.now d write

/-- A write without a status, or with one that is no end of a graph, keeps a task closed. -/
theorem Closed.update (closed : Closed d) {write : TaskStore.Write}
    (other : ∀ next ∈ write.status, TaskThreads.acceptsFeedback next = false) :
    Closed (update stamp d write) := by
  unfold Closed
  rw [status_update]
  cases status : write.status with
  | none => exact closed
  | some next => exact other next (by simp [status])

theorem Closed.transition (closed : Closed d) {write : TaskStore.Write}
    (other : ∀ next ∈ write.status, TaskThreads.acceptsFeedback next = false) :
    Closed (transition stamp d write) := by
  unfold TaskLifecycle.transition
  split
  · exact closed.update other
  · exact closed

/-- After a feedback's own transition no further feedback is accepted. -/
theorem feedbackTransition_closed : Closed (feedbackTransition stamp d) := by
  unfold feedbackTransition Closed
  split
  · rw [status_update]
    change TaskThreads.acceptsFeedback "RUNNING" = false
    decide
  · next rejected => simpa using rejected

theorem Closed.not_success (closed : Closed d) : TaskStore.status d ≠ "SUCCESS" := by
  intro success
  rw [Closed, success] at closed
  exact absurd closed (by decide)

theorem transition_not_success {write : TaskStore.Write} (before : TaskStore.status d ≠ "SUCCESS")
    (other : ∀ next ∈ write.status, next ≠ "SUCCESS") :
    TaskStore.status (transition stamp d write) ≠ "SUCCESS" := by
  unfold transition
  split
  · rw [status_update]
    cases status : write.status with
    | none => exact before
    | some next => exact other next (by simp [status])
  · exact before

/-- What is left of a feedback queue holds feedback. -/
theorem rounds_eraseIdx {waiting : List Message} (n : Nat)
    (rounds : ∀ m ∈ waiting, ∃ turn, m = .feedback url turn) :
    ∀ m ∈ waiting.eraseIdx n, ∃ turn, m = .feedback url turn :=
  fun m member => rounds m (List.mem_of_mem_eraseIdx member)

/-- A handler that ends otherwise than with a success leaves a finished task. -/
theorem settled_ended {waiting : List Message} {next : String} {error : Option String}
    (rounds : ∀ m ∈ waiting, ∃ turn, m = .feedback url turn) (closed : Closed d)
    (other : next ≠ "SUCCESS") :
    Stage env url (transition stamp d (.ended next error)) waiting none := by
  refine .settled waiting rounds fun success => ?_
  refine absurd success (transition_not_success closed.not_success ?_)
  simpa [TaskStore.Write.status] using other

/-- A job at work, whichever graph it runs. -/
structure AtWork (env : Env) (url : Option String) (d : Doc) (waiting : List Message) (job : Job) :
    Prop where
  rounds : ∀ m ∈ waiting, ∃ turn, m = .feedback url turn
  working : Working env url d job.config job.done
  again : ∀ d' c done, Working env url d' c done →
    Stage env url d' waiting (some ⟨job.message, c, done⟩)

theorem Stage.atWork {waiting : List Message} {job : Job}
    (stage : Stage env url d waiting (some job)) : AtWork env url d waiting job := by
  cases stage with
  | running s retryCount c done own working =>
    exact ⟨by simp, working, fun d' c' done' working' =>
      .running s retryCount c' done' own working'⟩
  | correcting _ turn c done rounds working =>
    exact ⟨rounds, working, fun d' c' done' working' =>
      .correcting waiting turn c' done' rounds working'⟩

/-- A request that waits is the task's only message. -/
theorem Stage.of_request {waiting : List Message} {n : Nat} {s : Submission} {retryCount : Fin 4}
    (stage : Stage env url d waiting none) (next : waiting[n]? = some (.request s retryCount)) :
    (payload s).databaseUrl = url ∧ Closed d ∧ waiting.eraseIdx n = [] := by
  cases stage with
  | queued s' retryCount' own closed =>
    cases n with
    | succ n => contradiction
    | zero =>
      obtain ⟨rfl, rfl⟩ := Message.request.inj (Option.some.inj next)
      exact ⟨own, closed, rfl⟩
  | settled _ rounds success =>
    obtain ⟨turn, same⟩ := rounds _ (List.mem_of_getElem? next)
    contradiction

theorem Stage.of_feedback {waiting : List Message} {n turn : Nat} {databaseUrl : Option String}
    (stage : Stage env url d waiting none) (next : waiting[n]? = some (.feedback databaseUrl turn)) :
    databaseUrl = url ∧ (∀ m ∈ waiting, ∃ turn, m = .feedback url turn) ∧
      (TaskStore.status d = "SUCCESS" → Holds env url d) := by
  cases stage with
  | queued s retryCount own closed =>
    cases n with
    | zero => exact absurd (Option.some.inj next) Message.noConfusion
    | succ n => contradiction
  | settled _ rounds success =>
    obtain ⟨_, same⟩ := rounds _ (List.mem_of_getElem? next)
    exact ⟨(Message.feedback.inj same).1, rounds, success⟩

theorem Working.started {c : AgentGraph.Config} (closed : Closed d) (starts : AgentGraph.Start c)
    (own : c.state.databaseUrl = url) : Working env url d c false :=
  ⟨closed, ⟨c, [], starts, own, rfl⟩, fun done => absurd done Bool.false_ne_true⟩

theorem final_holds (m : Message) (reached : Reached env url c) (ended : c.node = .finish) :
    Holds env url (update stamp d (final stamp c.state m)) := by
  have written (key : String) (value : Json)
      (member : (key, value) ∈ (final stamp c.state m).fields) :
      (update stamp d (final stamp c.state m)).lookup key = some value := by
    refine Doc.lookup_update_mem _ _ _ _ ?_ (List.mem_append_left _ member)
    cases m <;> simp [final, TaskStore.Write.fields]
  refine ⟨finalSql c.state, resultJson c.state.execResult, url, ?_, ?_,
    ⟨c, reached, ended, rfl, .inl rfl⟩, .inl rfl⟩
  · apply written _ _
    cases m <;> simp [final, TaskStore.Write.fields, TaskStore.text]
  · apply written _ _
    cases m <;> simp [final, TaskStore.Write.fields]

theorem Stage.holds {waiting : List Message} {job : Option Job}
    (stage : Stage env url d waiting job) (success : TaskStore.status d = "SUCCESS") :
    Holds env url d := by
  cases stage with
  | queued s retryCount own closed => exact absurd success closed.not_success
  | running s retryCount c done own working => exact absurd success working.closed.not_success
  | settled _ rounds holds => exact holds success
  | correcting _ turn c done rounds working => exact absurd success working.closed.not_success

/-- Feedback is accepted only for a task that is done. -/
theorem Stage.of_accepts {waiting : List Message} {job : Option Job}
    (stage : Stage env url d waiting job)
    (accepts : TaskThreads.acceptsFeedback (TaskStore.status d) = true) :
    job = none ∧ ∀ m ∈ waiting, ∃ turn, m = .feedback url turn := by
  cases stage with
  | settled _ rounds _ => exact ⟨rfl, rounds⟩
  | queued s retryCount own closed => exact absurd accepts (by simp [show _ = false from closed])
  | running s retryCount c done own working =>
    exact absurd accepts (by simp [show _ = false from working.closed])
  | correcting _ turn c done rounds working =>
    exact absurd accepts (by simp [show _ = false from working.closed])

theorem rounds_append {waiting : List Message} (turn : Nat)
    (rounds : ∀ m ∈ waiting, ∃ turn, m = .feedback url turn) :
    ∀ m ∈ waiting ++ [.feedback url turn], ∃ turn, m = Message.feedback url turn := by
  intro m member
  rcases List.mem_append.mp member with old | new
  · exact rounds m old
  · exact ⟨turn, List.mem_singleton.mp new⟩

/-- A status that the gateway decodes is the stored one. -/
theorem decoded_status {s : JavaTaskState.TaskState} (decoded : JavaTaskState.decode d = some s)
    (status : s.status = some next) : TaskStore.status d = next := by
  have reading := (JavaTaskState.decode_decoded decoded).status
  rw [status] at reading
  cases reading with
  | missing _ same => contradiction
  | present value found accepted =>
    have inverse := JavaTaskState.readText_inverse accepted
    rw [TaskStore.status, found, ← inverse]
    rfl

/-- The gateway saves feedback over a document that accepts it, and leaves it running. -/
theorem applied_feedback (applied : JavaTaskState.Operation.apply stamp.now d .feedback = some d') :
    TaskThreads.acceptsFeedback (TaskStore.status d) = true ∧ TaskStore.status d' = "RUNNING" := by
  simp only [JavaTaskState.Operation.apply, Option.bind_eq_bind, Option.bind_eq_some_iff,
    Option.guard_eq_some', Option.pure_def] at applied
  obtain ⟨s, decoded, -, accepts, -, -, same⟩ := applied
  obtain rfl := Option.some.inj same
  refine ⟨?_, TaskThreads.status_feedbackSaved stamp.now s⟩
  rcases accepts with success | failed
  · rw [decoded_status decoded success]
    decide
  · rw [decoded_status decoded failed]
    decide

/-- Another document that holds as much, is no success and accepts no feedback leaves
the stage. -/
theorem Stage.closed {waiting : List Message} {job : Option Job} (stage : Stage env url d waiting job)
    (closed : Closed d') (kept : Holds env url d → Holds env url d') :
    Stage env url d' waiting job := by
  have still (c : AgentGraph.Config) (done : Bool) (working : Working env url d c done) :
      Working env url d' c done := ⟨closed, working.reached, fun ended => kept (working.final ended)⟩
  cases stage with
  | queued s retryCount own _ => exact .queued s retryCount own closed
  | running s retryCount c done own working => exact .running s retryCount c done own (still c done working)
  | settled _ rounds _ =>
    exact .settled waiting rounds fun success => absurd success closed.not_success
  | correcting _ turn c done rounds working =>
    exact .correcting waiting turn c done rounds (still c done working)

theorem Stage.stale {waiting : List Message} {job : Option Job} (stage : Stage env url d waiting job)
    (known : Known d url) (applied : JavaTaskState.Operation.apply stamp.now d .scanStale = some d') :
    Stage env url d' waiting job := by
  have saved := JavaTaskState.apply_saved applied
  refine stage.closed ?_ fun holds => holds.kept ?_
  · cases saved with
    | scanStale s now _ =>
      rw [Closed, TaskThreads.status_staleSaved]
      decide
  · intro key member value found
    have parts : ∀ key ∈ ["sql","exec_result","cache_hit"],
        key ∉ JavaTaskState.Operation.meant .scanStale ∧ key ∈ JavaTaskState.classKeys := by decide
    obtain ⟨unmeant, inClass⟩ := parts key member
    exact JavaTaskState.saved_keeps (JavaTaskState.written_shaped known.written) saved unmeant
      inClass found

theorem Sound.step (sound : Sound env url t) {event : TaskEvent}
    (stepped : t.step env stamp event = some t') : Sound env url t' := by
  obtain ⟨known, stage⟩ := sound
  cases step_moves stepped with
  | turnedDown n input s retryCount idle next _ =>
    rw [idle] at stage
    obtain ⟨own, closed, last⟩ := stage.of_request next
    refine ⟨known.transition _, ?_⟩
    rw [idle, last]
    exact settled_ended (by simp) closed (by decide)
  | started n input s retryCount idle next _ =>
    rw [idle] at stage
    obtain ⟨own, closed, last⟩ := stage.of_request next
    refine ⟨known.transition _, ?_⟩
    rw [last]
    refine .running s retryCount _ _ own (.started (closed.transition ?_) (.full (payload s)) own)
    simp only [TaskStore.Write.status, Option.mem_some_iff, forall_eq']
    decide
  | skipped n input databaseUrl turn idle next _ =>
    rw [idle] at stage
    obtain ⟨rfl, rounds, success⟩ := stage.of_feedback next
    refine ⟨known, ?_⟩
    rw [idle]
    exact .settled _ (rounds_eraseIdx n rounds) success
  | correcting n input databaseUrl turn idle next _ own =>
    rw [idle] at stage
    obtain ⟨rfl, rounds, -⟩ := stage.of_feedback next
    exact ⟨known.feedbackTransition, .correcting _ turn _ _ (rounds_eraseIdx n rounds)
      (.started feedbackTransition_closed (.feedback input) own)⟩
  | visited v job c atWork advanced _ =>
    rw [atWork] at stage
    have work := stage.atWork
    refine ⟨known.update _, work.again _ c false ⟨work.working.closed.update ?_, ?_, ?_⟩⟩
    · simp [progress, TaskStore.Write.status]
    · exact work.working.reached.step advanced
    · exact fun done => absurd done Bool.false_ne_true
  | finished job atWork ended _ =>
    rw [atWork] at stage
    have work := stage.atWork
    refine ⟨known.update _, work.again _ _ true ⟨work.working.closed.update ?_, ?_, fun _ => ?_⟩⟩
    · cases job.message <;> simp [final, TaskStore.Write.status]
    · exact work.working.reached
    · exact final_holds job.message work.working.reached ended
  | succeeded job atWork done =>
    rw [atWork] at stage
    have work := stage.atWork
    refine ⟨known.transition _, .settled _ work.rounds fun _ => ?_⟩
    exact (work.working.final done).transition (aside_ended _ _)
  | retried job s retryCount error atWork own _ _ =>
    rw [atWork] at stage
    obtain ⟨message, config, done⟩ := job
    obtain rfl : message = .request s retryCount := own
    generalize t.waiting = waiting at stage ⊢
    cases stage with
    | running _ _ _ _ own working =>
      refine ⟨known.update _, .queued s (retryCount + 1) own (working.closed.update ?_)⟩
      simp [TaskStore.Write.status]
  | stopped _ job status error flag atWork stops =>
    rw [atWork] at stage
    have work := stage.atWork
    exact ⟨known.transition _, settled_ended work.rounds work.working.closed stops.no_success⟩
  | flagged _ => exact ⟨known, stage⟩
  | asked turns _ accepts _ =>
    obtain ⟨idle, rounds⟩ := stage.of_accepts accepts
    refine ⟨known, ?_⟩
    rw [idle, known.urlOf]
    exact .settled _ (rounds_append _ rounds) stage.holds
  | askedGateway s d decoded applied =>
    obtain ⟨accepts, running⟩ := applied_feedback applied
    obtain ⟨idle, rounds⟩ := stage.of_accepts accepts
    refine ⟨known.applied applied, ?_⟩
    rw [idle, known.decoded decoded]
    refine .settled _ (rounds_append _ rounds) fun success => ?_
    rw [running] at success
    exact absurd success (by decide)
  | accepted _ =>
    exact ⟨known.feedbackTransition,
      stage.closed feedbackTransition_closed fun holds => holds.feedbackTransition⟩
  | stale heartbeat reason _ running =>
    have closed : Closed t.doc := by
      rw [Closed, running]
      decide
    refine ⟨known.transition _, stage.closed (closed.transition ?_) fun holds => ?_⟩
    · simp only [TaskStore.Write.status, Option.mem_some_iff, forall_eq']
      decide
    · exact holds.transition (aside_ended _ _)
  | staleGateway heartbeat reason d _ applied =>
    exact ⟨known.applied applied, stage.stale known applied⟩

structure WorldSound (env : Env) (w : World) : Prop where
  tasks : ∀ id t, w.tasks id = some t → ∃ url, Sound env url t
  cache : ∀ key entry, w.qcache key = some entry →
    ∃ url, Earned env url entry.sql entry.execResult

variable {w w' : World}

/-- A task that was never taken, as the API and as the gateway store it. -/
theorem fresh_sound {id : String} {s : Submission}
    (made : d = TaskStore.taskCreate id s.question (s.dbId.getD "") (s.databaseUrl.getD "") stamp.now ∨
      d = JavaTaskState.encode (JavaTaskState.create id s.question (s.dbId.getD "")
        (s.databaseUrl.getD "") stamp.now)) :
    ∃ url, Sound env url { doc := d, waiting := [.request s 0] } := by
  have closed (stored : d.lookup "status" = some (.str "PENDING")) : Closed d := by
    rw [Closed, TaskStore.status, stored]
    decide
  refine ⟨some (s.databaseUrl.getD ""), ?_⟩
  rcases made with rfl | rfl
  · have stored (key : String) (value : Json) (member : (key, value) ∈ [("status", Json.str "PENDING"),
        ("database_url", .str (s.databaseUrl.getD ""))]) :
        (TaskStore.taskCreate id s.question (s.dbId.getD "") (s.databaseUrl.getD "") stamp.now).lookup
          key = some value := by
      apply Doc.lookup_update_mem _ _ _ _ (by simp)
      simp only [List.mem_cons, List.not_mem_nil, or_false, Prod.mk.injEq] at member
      rcases member with ⟨rfl, rfl⟩ | ⟨rfl, rfl⟩ <;> simp
    exact ⟨⟨.submitted _ _ _ _ _, stored _ _ (by simp [TaskStore.text])⟩,
      .queued s 0 rfl (closed (stored _ _ (by simp)))⟩
  · refine ⟨⟨.created _ _ _ _ _, ?_⟩, .queued s 0 rfl (closed ?_)⟩
    all_goals
      apply JavaTaskState.encode_lookup
      simp [JavaTaskState.baseFields, JavaTaskState.create, TaskStore.text]

theorem WorldSound.submitted (sound : WorldSound env w) (id : String) (s : Submission) (stamp : Stamp)
    (endpoint : TaskThreads.Endpoint) : ∃ url, Sound env url (submitted w id s stamp endpoint) := by
  cases endpoint with
  | api => exact fresh_sound (.inl rfl)
  | gateway =>
    unfold TaskLifecycle.submitted
    cases cached : w.qcache (cacheKey (some s.question) s.dbId) with
    | none => exact fresh_sound (.inr rfl)
    | some entry =>
      simp only
      obtain ⟨origin, earned⟩ := sound.cache _ entry cached
      refine ⟨none, ⟨.cached _ _ _ _ _ _ _ _, ?_⟩, .settled [] (by simp) fun _ => ?_⟩
      · apply JavaTaskState.encode_lookup
        simp [JavaTaskState.baseFields, JavaTaskState.createFromCache]
      · refine ⟨entry.sql, entry.execResult, origin, ?_, ?_, earned, .inr ?_⟩
        all_goals
          apply JavaTaskState.encode_lookup
          simp [JavaTaskState.baseFields, JavaTaskState.cacheField, JavaTaskState.createFromCache,
            TaskStore.text]

theorem resultJson_null {r : Option ExecResult} (null : resultJson r = .null) : r = none := by
  cases r with
  | none => rfl
  | some r =>
    unfold resultJson at null
    simp only at null
    split at null <;> contradiction

/-- What the recorder stores is earned, where the document's statement and result are. -/
theorem recorded_earned {key : String} {entry : Entry}
    (holds : TaskStore.status d = "SUCCESS" → Holds env url d) (stored : recorded d = some (key, entry)) :
    ∃ origin, Earned env origin entry.sql entry.execResult := by
  simp only [recorded, Option.bind_eq_bind, Option.bind_eq_some_iff, Option.guard_eq_some',
    Option.pure_def, Option.some.injEq, Prod.mk.injEq] at stored
  obtain ⟨s, decoded, sql, some_sql, usage, -, timings, -, -, ⟨success, -⟩, -, rfl⟩ := stored
  obtain ⟨sql', result, origin, sql_found, result_found, earned, -⟩ :=
    holds (decoded_status decoded success)
  have fields := JavaTaskState.decode_decoded decoded
  have same_sql := fields.sql.same TaskStore.text sql_found JavaTaskState.readText_inverse
  have same_result := fields.execResult.same id result_found fun read => (Option.some.inj read).symm
  rw [some_sql] at same_sql
  obtain rfl : sql = sql' := Json.str.inj same_sql
  obtain rfl : s.execResult = result := same_result
  refine ⟨origin, ?_⟩
  split
  next null =>
    obtain ⟨c, reached, ended, same, kept | ⟨nothing, -⟩⟩ := earned
    · exact ⟨c, reached, ended, same, .inr ⟨resultJson_null (kept.symm.trans null), rfl⟩⟩
    · exact ⟨c, reached, ended, same, .inr ⟨nothing, rfl⟩⟩
  next => exact earned

theorem WorldSound.set (sound : WorldSound env w) (id : String) (fine : Sound env url t) :
    WorldSound env (w.set id t) := by
  refine ⟨?_, sound.cache⟩
  intro other t' found
  by_cases same : other = id
  · subst same
    simp only [World.set, Function.update_self, Option.some.injEq] at found
    exact ⟨url, found ▸ fine⟩
  · simp only [World.set, Function.update_of_ne same] at found
    exact sound.tasks other t' found

theorem WorldSound.step (sound : WorldSound env w) {event : Event} (stepped : step env w event = some w') :
    WorldSound env w' := by
  cases event with
  | submit endpoint id s stamp =>
    obtain ⟨-, same⟩ := Option.ite_none_right_eq_some.mp stepped
    obtain rfl := Option.some.inj same
    obtain ⟨url, fine⟩ := sound.submitted id s stamp endpoint
    exact sound.set id fine
  | task id event stamp =>
    simp only [TaskLifecycle.step, Option.bind_eq_bind, Option.bind_eq_some_iff, Option.some.injEq]
      at stepped
    obtain ⟨t, found, t', moved, rfl⟩ := stepped
    obtain ⟨url, fine⟩ := sound.tasks id t found
    exact sound.set id (fine.step moved)
  | record id =>
    simp only [TaskLifecycle.step, Option.bind_eq_bind, Option.bind_eq_some_iff, Option.some.injEq]
      at stepped
    obtain ⟨t, found, ⟨key, entry⟩, stored, rfl⟩ := stepped
    obtain ⟨url, fine⟩ := sound.tasks id t found
    refine ⟨sound.tasks, ?_⟩
    intro other kept cached
    by_cases same : other = key
    · subst same
      simp only [Function.update_self, Option.some.injEq] at cached
      exact cached ▸ recorded_earned fine.stage.holds stored
    · simp only [Function.update_of_ne same] at cached
      exact sound.cache other kept cached

/-- A run that got to its end with this statement and result. Where its last attempt
passed the guard, the statement is one of that attempt's candidates, the first of which
was accepted, and the result is genuine or marked as a vote that rests on no execution. -/
def Shown (env : Env) (url : Option String) (sql : String) (result : Json) : Prop :=
  ∃ c, Reached env url c ∧ c.node = .finish ∧ c.state.databaseUrl = url ∧ sql = finalSql c.state ∧
    (c.state.guardPass = some true → Guard.Accepts env (AgentGraph.primary c.state) url ∧
      sql ∈ Voter.candidates c.state ∧ ∃ r, c.state.execResult = some r ∧
        result = resultJson (some r) ∧ (AgentGraph.Genuine c r ∨ AgentGraph.Voted c r))

theorem Earned.shown {sql : String} {result : Json} (earned : Earned env url sql result) :
    Shown env url sql result := by
  obtain ⟨c, reached, ended, rfl, stored⟩ := earned
  obtain ⟨c₀, visits, start, rfl, run⟩ := reached
  have consistent := AgentGraph.run_consistent start run
  have address := AgentGraph.run_databaseUrl run
  refine ⟨c, ⟨c₀, visits, start, rfl, run⟩, ended, address, rfl, fun passed => ?_⟩
  have accepts := consistent.guarded (by simp [ended, AgentGraph.settled]) passed
  obtain ⟨sql, r, reports⟩ := consistent.reported (by simp [ended, AgentGraph.settled]) passed
  refine ⟨address ▸ accepts, ?_, r, reports.outcome, ?_, reports.genuine_or_voted⟩
  · rw [finalSql, reports.statement]
    exact reports.candidate
  · rcases stored with kept | ⟨nothing, -⟩
    · rw [kept, reports.outcome]
    · rw [reports.outcome] at nothing
      contradiction

theorem start_sound : WorldSound env start :=
  ⟨fun _ _ found => (nomatch found), fun _ _ found => (nomatch found)⟩

theorem run_sound (events : List Event) (run : (machine env).exec start events = some w) :
    WorldSound env w :=
  Machine.invariant (WorldSound env) (fun _ _ _ sound stepped => sound.step stepped) start_sound run

/-- What every stored success and every entry of the result cache shows, after any run.
A success that was not answered from the cache is one on the task's own database. -/
theorem success_shown (events : List Event) (run : (machine env).exec start events = some w) :
    (∀ id t, w.tasks id = some t → TaskStore.status t.doc = "SUCCESS" →
      ∃ sql result url, t.doc.lookup "sql" = some (.str sql) ∧
        t.doc.lookup "exec_result" = some result ∧ Shown env url sql result ∧
        (t.doc.lookup "cache_hit" ≠ some (.bool true) →
          t.doc.lookup "database_url" = some (TaskStore.text url))) ∧
    ∀ key entry, w.qcache key = some entry → ∃ url, Shown env url entry.sql entry.execResult := by
  have sound := run_sound events run
  constructor
  · intro id t found success
    obtain ⟨url, fine⟩ := sound.tasks id t found
    obtain ⟨sql, result, origin, stored, reported, earned, own⟩ := fine.stage.holds success
    refine ⟨sql, result, origin, stored, reported, earned.shown, fun fresh => ?_⟩
    rcases own with same | cached
    · rw [same]
      exact fine.known.address
    · exact absurd cached fresh
  · intro key entry cached
    obtain ⟨url, earned⟩ := sound.cache key entry cached
    exact ⟨url, earned.shown⟩

/-- A submit without a database, its handling and the recording of its result. -/
def handle (visits : List AgentGraph.Visit) : List Event :=
  [.submit .api "t1" { question := "How many orders?", dbId := some "shop" } {},
    .task "t1" (.take 0 { question := "" }) {}] ++
    (visits.map fun v => .task "t1" (.visit v) {}) ++
    [.task "t1" .finish {}, .task "t1" .succeed {}, .record "t1"]

def storesSql (d : Doc) (sql : String) : Bool :=
  match d.lookup "sql" with
  | some (.str stored) => stored = sql
  | _ => false

/-- The task is a success with that statement, which the cache serves from then on. -/
def serves (visits : List AgentGraph.Visit) (sql : String) : Bool :=
  ((machine .plain).exec start (handle visits)).any fun w =>
    (w.tasks "t1").any (fun t => TaskStore.status t.doc = "SUCCESS" ∧ storesSql t.doc sql = true) ∧
    (w.qcache "How many orders?|shop").any (fun entry => entry.sql = sql)

theorem serves_success (served : serves visits sql = true) :
    ∃ w t entry, (machine .plain).exec start (handle visits) = some w ∧ w.tasks "t1" = some t ∧
      TaskStore.status t.doc = "SUCCESS" ∧ storesSql t.doc sql = true ∧
      w.qcache "How many orders?|shop" = some entry ∧ entry.sql = sql := by
  obtain ⟨w, run, final⟩ := (Option.any_eq_true _ _).mp served
  obtain ⟨stored, cached⟩ := of_decide_eq_true final
  obtain ⟨t, found, success⟩ := (Option.any_eq_true _ _).mp stored
  obtain ⟨entry, kept, same⟩ := (Option.any_eq_true _ _).mp cached
  obtain ⟨status, sql⟩ := of_decide_eq_true success
  exact ⟨w, t, entry, run, found, status, sql, kept, of_decide_eq_true same⟩

theorem offline_served : serves AgentGraph.offlineVisits "SELECT COUNT(*) FROM orders" = true := by
  decide +kernel

theorem success_shown_offline :
    ∃ w t, (machine .plain).exec start (handle AgentGraph.offlineVisits) = some w ∧
      w.tasks "t1" = some t ∧ ∃ sql result url, t.doc.lookup "sql" = some (.str sql) ∧
        t.doc.lookup "exec_result" = some result ∧ Shown .plain url sql result := by
  obtain ⟨w, t, entry, run, found, status, -⟩ := serves_success offline_served
  obtain ⟨sql, result, url, stored, reported, shown, -⟩ :=
    (success_shown (handle AgentGraph.offlineVisits) run).1 "t1" t found status
  exact ⟨w, t, run, found, sql, result, url, stored, reported, shown⟩

/-- The guard rejects every draft, until no retry is left. -/
def rejectedVisits : List AgentGraph.Visit :=
  [.router "simple" .zero, .schemaRetriever "CREATE TABLE orders(id)" "" "", .fewshotSelector ""] ++
    (List.replicate 3 [.generator fun _ => some ⟨"DROP TABLE orders", .zero⟩, .guard, .refiner none,
      .postRefiner]).flatten

/-- The executions that the voter asks for. -/
def executions : AgentGraph.Visit → List Execution
  | .voter executions _ => executions
  | _ => []

/-- The request is delivered again after its task was a success, and the second graph
stores what it has drafted so far. -/
def redelivered : List (Lib.Event TaskThreads.Desc TaskThreads.Choice Empty) :=
  let draft := ⟨"generator", 55, some "DROP TABLE orders", [], []⟩
  TaskThreads.inTime ++ [.arrive (.handleTask 0), .run 3 {}, .run 3 {},
    .run 3 { graph := ⟨[[draft]], .error ""⟩ }, .run 4 {}, .run 4 {}, .run 4 {}]

/-- A success, stored and cached, of a statement that was never executed; one of a
statement that the guard rejects; and one that holds the draft of an unfinished graph. -/
theorem success_not_shown :
    (∃ w t entry, (machine .plain).exec start (handle AgentGraph.offlineVisits) = some w ∧
      w.tasks "t1" = some t ∧ TaskStore.status t.doc = "SUCCESS" ∧
      storesSql t.doc "SELECT COUNT(*) FROM orders" = true ∧
      w.qcache "How many orders?|shop" = some entry ∧ entry.sql = "SELECT COUNT(*) FROM orders") ∧
    AgentGraph.offlineVisits.flatMap executions = [] ∧
    (∃ w t entry, (machine .plain).exec start (handle rejectedVisits) = some w ∧
      w.tasks "t1" = some t ∧ TaskStore.status t.doc = "SUCCESS" ∧
      storesSql t.doc "DROP TABLE orders" = true ∧
      w.qcache "How many orders?|shop" = some entry ∧ entry.sql = "DROP TABLE orders") ∧
    ¬ Guard.Accepts .plain "DROP TABLE orders" (some "") ∧
    ∃ c d, TaskThreads.system.machine.exec TaskThreads.start redelivered = some c ∧
      c.world.doc = some d ∧ TaskStore.status d = "SUCCESS" ∧
      storesSql d "DROP TABLE orders" = true ∧ c.world.results = [(0,.returned false)] := by
  have overtaken : (TaskThreads.system.machine.exec TaskThreads.start redelivered).any (fun c =>
      c.world.doc.any (fun d => TaskStore.status d = "SUCCESS" ∧
        storesSql d "DROP TABLE orders" = true) ∧
      c.world.results = [(0,.returned false)]) = true := by decide +kernel
  refine ⟨serves_success offline_served, rfl, serves_success (by decide +kernel), ?_, ?_⟩
  · intro accepts
    obtain ⟨verdict, checked, valid⟩ := accepts.safe
    have rejected : (SafetyRules.checkSafety Env.plain.case Env.plain.sqlglot "DROP TABLE orders"
        (SqlExecutor.dialectOf (some ""))).all (fun verdict => !verdict.valid) = true := by decide
    rw [checked] at rejected
    simp [valid] at rejected
  · obtain ⟨c, run, final⟩ := (Option.any_eq_true _ _).mp overtaken
    obtain ⟨stored, results⟩ := of_decide_eq_true final
    obtain ⟨d, found, success⟩ := (Option.any_eq_true _ _).mp stored
    obtain ⟨status, sql⟩ := of_decide_eq_true success
    exact ⟨c, d, run, found, status, sql, results⟩

end TaskLifecycle
end Nl2SqlAgent

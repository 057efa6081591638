import Nl2SqlAgent.TaskSuccess

/-! The result cache over time. Submits and the engine's work are those of the task
lifecycle; the worker's status and result events mark their task dirty when they are
published, the recorder flushes a mark within a fixed delay, and what it writes back
expires. Times are in milliseconds. -/
namespace Nl2SqlAgent

open Lib

namespace ResultCache

open TaskLifecycle (Submission Stamp Task TaskEvent Entry cacheKey recorded)

/-- `result-ttl-seconds`, and the longest time from a mark to its flush. -/
structure Timing where
  ttl : Nat
  flushDelay : Nat

/-- An engine run that ended as a success: its task, and the document and the time when
it did. -/
structure Run where
  task : String
  doc : Doc
  finished : Nat

/-- `expires` is for the keys in the cache, `dirty` for marks and when they were made.
The code keeps none of the rest: what was submitted, the runs, the run behind the result
of a task, and the run behind a cache entry with the task it was written back from. -/
structure World where
  base : TaskLifecycle.World
  now : Nat
  expires : String → Nat
  dirty : List (String × Nat)
  submissions : String → Option Submission
  runs : List Run
  results : String → Option Run
  entries : String → Option (Run × String)

/-- `forget` is a mark that is dropped, or whose flush raises. -/
inductive Event where
  | tick (ms : Nat)
  | submit (endpoint : TaskThreads.Endpoint) (id : String) (s : Submission) (stamp : Stamp)
  | task (id : String) (event : TaskEvent) (stamp : Stamp)
  | flush (id : String) (life : Nat)
  | forget (id : String)

/-- Whether the worker publishes a status or result event at this point. -/
def notifies (t : Task) : TaskEvent → Bool
  | .take n _ =>
    match t.waiting[n]? with
    | some (.request _ _) => !t.cancelled
    | some (.feedback _ _) => TaskStore.status t.doc ≠ "RUNNING"
    | none => false
  | .visit _ => true
  | .finish => true
  | .raise _ | .timeOut =>
    match t.job.map TaskLifecycle.Job.message with
    | some (.request _ _) => !t.cancelled
    | some (.feedback _ _) => true
    | none => false
  | .succeed | .cancel | .feedback _ | .acceptFeedback | .scanStale _ _ => false

def World.marked (w : World) (id : String) : List (String × Nat) :=
  if id ∈ w.dirty.map Prod.fst then w.dirty else (id, w.now) :: w.dirty

def World.unmark (w : World) (id : String) : World :=
  { w with dirty := w.dirty.filter fun mark => mark.1 ≠ id }

/-- Time does not pass a mark's flush; entries expire. -/
def tick (timing : Timing) (w : World) (ms : Nat) : Option World :=
  if ∀ mark ∈ w.dirty, w.now + ms ≤ mark.2 + timing.flushDelay then
    some { w with
      now := w.now + ms
      base := { w.base with
        qcache := fun key => if w.expires key ≤ w.now + ms then none else w.base.qcache key } }
  else none

def hits (w : World) (endpoint : TaskThreads.Endpoint) (s : Submission) : Bool :=
  endpoint = .gateway ∧ (w.base.qcache (cacheKey (some s.question) s.dbId)).isSome

/-- A task that is answered from the cache has the entry's result, and is marked. -/
def submit (w : World) (endpoint : TaskThreads.Endpoint) (id : String) (s : Submission)
    (stamp : Stamp) : Option World :=
  if (w.base.tasks id).isNone then
    some { w with
      base := w.base.set id (TaskLifecycle.submitted w.base id s stamp endpoint)
      dirty := if hits w endpoint s then w.marked id else w.dirty
      submissions := Function.update w.submissions id (some s)
      results :=
        if hits w endpoint s then
          Function.update w.results id ((w.entries (cacheKey (some s.question) s.dbId)).map Prod.fst)
        else w.results }
  else none

def succeeds (t' : Task) : TaskEvent → Bool
  | .succeed => TaskStore.status t'.doc = "SUCCESS"
  | _ => false

def task (env : Env) (w : World) (id : String) (event : TaskEvent) (stamp : Stamp) : Option World := do
  let t ← w.base.tasks id
  let t' ← t.step env stamp event
  let run := ⟨id, t'.doc, w.now⟩
  some { w with
    base := w.base.set id t'
    dirty := if notifies t event then w.marked id else w.dirty
    runs := if succeeds t' event then run :: w.runs else w.runs
    results := if succeeds t' event then Function.update w.results id (some run) else w.results }

/-- `ResultCacheService.put`, for the lifetime that the jitter gives. -/
def World.put (w : World) (id key : String) (entry : Entry) (life : Nat) : World :=
  { w with
    base := { w.base with qcache := Function.update w.base.qcache key (some entry) }
    expires := Function.update w.expires key (w.now + life)
    entries := Function.update w.entries key ((w.results id).map fun run => (run, id)) }

/-- `UserPolicyService.jitter`, by a tenth. -/
def jitters (timing : Timing) (life : Nat) : Bool :=
  900 * timing.ttl ≤ life ∧ life ≤ 1100 * timing.ttl

/-- `TaskEventRecorder.record` of one marked task, as far as the cache goes. -/
def flush (timing : Timing) (w : World) (id : String) (life : Nat) : Option World :=
  if id ∈ w.dirty.map Prod.fst ∧ jitters timing life then
    match (w.base.tasks id).bind fun t => recorded t.doc with
    | some (key, entry) => some ((w.unmark id).put id key entry life)
    | none => some (w.unmark id)
  else none

def step (timing : Timing) (env : Env) (w : World) : Event → Option World
  | .tick ms => tick timing w ms
  | .submit endpoint id s stamp => submit w endpoint id s stamp
  | .task id event stamp => task env w id event stamp
  | .flush id life => flush timing w id life
  | .forget id => some (w.unmark id)

def machine (timing : Timing) (env : Env) : Machine World Event := ⟨step timing env⟩

def start : World :=
  ⟨TaskLifecycle.start, 0, fun _ => 0, [], fun _ => none, [], fun _ => none, fun _ => none⟩

section Documents

open TaskLifecycle

variable {env : Env} {stamp : Stamp} {url : Option String} {d d' : Doc} {t t' : Task}

/-- What a step does to a task's document: nothing, a worker's update, or a save of the
gateway over what it has read. -/
inductive Writes (stamp : Stamp) (d : Doc) : Doc → Prop where
  | same : Writes stamp d d
  | update (write : TaskStore.Write) : Writes stamp d (update stamp d write)
  | saved (operation : JavaTaskState.Operation) (d' : Doc)
      (applied : operation.apply stamp.now d = some d') : Writes stamp d d'

theorem transition_writes (write : TaskStore.Write) : Writes stamp d (transition stamp d write) := by
  unfold transition
  split
  · exact .update write
  · exact .same

theorem feedbackTransition_writes : Writes stamp d (feedbackTransition stamp d) := by
  unfold feedbackTransition
  split
  · exact .update .feedbackStarted
  · exact .same

theorem step_writes {event : TaskEvent} (stepped : t.step env stamp event = some t') :
    Writes stamp t.doc t'.doc := by
  cases step_moves stepped with
  | turnedDown | started | succeeded | stopped | stale => exact transition_writes _
  | correcting | accepted => exact feedbackTransition_writes
  | visited | finished | retried => exact .update _
  | skipped | flagged | asked => exact .same
  | askedGateway s d _ applied => exact .saved .feedback d applied
  | staleGateway heartbeat reason d _ applied => exact .saved .scanStale d applied

def Carried (d d' : Doc) : Prop :=
  ∀ key ∈ ["question","db_id"], ∀ value, d.lookup key = some value → d'.lookup key = some value

theorem Writes.carried (writes : Writes stamp d d') (written : JavaTaskState.Written d) :
    Carried d d' := by
  intro key member value found
  cases writes with
  | same => exact found
  | update write =>
    have absent : key ∉ (write.fields ++ [("updated_at", Json.str stamp.now)]).map Prod.fst := by
      simp only [List.mem_cons, List.not_mem_nil, or_false] at member
      rcases member with rfl | rfl
      all_goals
        cases write with
        | ended status error => cases error <;> simp [TaskStore.Write.fields]
        | _ => simp [TaskStore.Write.fields]
    rw [TaskLifecycle.update, TaskStore.merged, Doc.lookup_update_other _ _ _ absent, found]
  | saved operation _ applied =>
    have parts : ∀ key ∈ ["question","db_id"], key ∉ operation.meant ∧
        key ∈ JavaTaskState.classKeys := by cases operation <;> decide
    obtain ⟨unmeant, inClass⟩ := parts key member
    exact JavaTaskState.saved_keeps (JavaTaskState.written_shaped written)
      (JavaTaskState.apply_saved applied) unmeant inClass found

theorem transition_closed (closed : Closed d) {write : TaskStore.Write}
    (other : ∀ next ∈ write.status, next ≠ "SUCCESS") :
    TaskStore.status (transition stamp d write) ≠ "SUCCESS" :=
  transition_not_success closed.not_success other

theorem update_closed (closed : Closed d) {write : TaskStore.Write} (bare : write.status = none) :
    TaskStore.status (update stamp d write) ≠ "SUCCESS" := by
  rw [status_update, bare]
  exact closed.not_success

/-- A step after which the task is a success is the handler's, or one that leaves the
document alone and publishes nothing. -/
theorem success_step (sound : Sound env url t) {event : TaskEvent}
    (stepped : t.step env stamp event = some t') (success : TaskStore.status t'.doc = "SUCCESS") :
    event = .succeed ∨ (t'.doc = t.doc ∧ notifies t event = false) := by
  obtain ⟨known, stage⟩ := sound
  cases step_moves stepped with
  | succeeded => exact .inl rfl
  | flagged | asked => exact .inr ⟨rfl, rfl⟩
  | turnedDown n input s retryCount idle next _ =>
    rw [idle] at stage
    have closed := (stage.of_request next).2.1
    exact absurd success (transition_closed closed (by simp [TaskStore.Write.status]))
  | started n input s retryCount idle next _ =>
    rw [idle] at stage
    have closed := (stage.of_request next).2.1
    exact absurd success (transition_closed closed (by simp [TaskStore.Write.status]))
  | skipped n input databaseUrl turn _ _ running =>
    rw [running] at success
    contradiction
  | correcting => exact absurd success feedbackTransition_closed.not_success
  | accepted => exact absurd success feedbackTransition_closed.not_success
  | visited v job c atWork _ _ =>
    rw [atWork] at stage
    exact absurd success (update_closed stage.atWork.working.closed rfl)
  | finished job atWork _ _ =>
    rw [atWork] at stage
    refine absurd success (update_closed stage.atWork.working.closed ?_)
    cases job.message <;> rfl
  | retried job s retryCount error atWork _ _ _ =>
    rw [atWork] at stage
    exact absurd success (update_closed stage.atWork.working.closed rfl)
  | stopped _ job status error flag atWork stops =>
    rw [atWork] at stage
    refine absurd success (transition_closed stage.atWork.working.closed ?_)
    simpa [TaskStore.Write.status] using stops.no_success
  | askedGateway s d _ applied =>
    rw [(applied_feedback applied).2] at success
    contradiction
  | stale heartbeat reason _ running =>
    refine absurd success (transition_not_success ?_ (by simp [TaskStore.Write.status]))
    rw [running]
    decide
  | staleGateway heartbeat reason d _ applied =>
    apply absurd success
    cases JavaTaskState.apply_saved applied with
    | scanStale s now _ =>
      rw [TaskThreads.status_staleSaved]
      decide

end Documents

end ResultCache
end Nl2SqlAgent

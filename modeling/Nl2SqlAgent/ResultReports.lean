import Nl2SqlAgent.Lib.Watch
import Nl2SqlAgent.ResultStages

/-! The success that a request's graph thread publishes against what the request's handler
decides. Each reports on its own; what may come between the last steps of the two is a
condition on the run. -/
namespace Nl2SqlAgent

open Lib

namespace ResultReports

open TaskEvents

/-- The task has ended without a success. -/
def failed : Option Doc → Bool
  | some d => TaskStore.status d ∈ ["TIMEOUT","CANCELLED","FAILED"]
  | none => false

/-- How far the handlers of requests have come, those whose graphs have published a success
and those whose graphs have cancelled the task, and whether a request's graph has reported
when its task had failed. -/
structure Ledger where
  stage : Nat → Stage := fun _ => .outside
  results : List Nat := []
  stopped : List Nat := []
  late : Bool := false

def Ledger.after (w : World) (g : Ledger) (d : Desc) (e : Effect) (r : e.Answer) : Ledger :=
  match d.task with
  | .handleTask _ =>
    { g with stage := Function.update g.stage d.handler ((g.stage d.handler).next e r) }
  | .runGraph .. =>
    { g with
      results := if succeeds e then d.handler :: g.results else g.results
      stopped := if concludes e = some d.handler then d.handler :: g.stopped else g.stopped
      late := g.late || (reports e && failed w.task.doc) }
  | _ => g

def Ledger.arrived (g : Ledger) (d : Desc) : Ledger :=
  match d.task with
  | .handleTask _ => { g with stage := Function.update g.stage d.handler .begun }
  | _ => g

def notes : Notes Effect Effect.Answer World Desc Move Ledger where
  run := Ledger.after
  arrive _ := Ledger.arrived

abbrev watched := system.watched notes

abbrev Run := Config (Desc × Effect) (fun e => e.2.Answer) (World × Ledger) Desc

def start : Run := ⟨(TaskEvents.start.world, {}), []⟩

def isRequest (d : Desc) : Bool :=
  match d.task with
  | .handleTask _ => true
  | _ => false

def isGraph (d : Desc) : Bool :=
  match d.task with
  | .runGraph .. => true
  | _ => false

/-- The results that were published are those of the handlers that move the task to SUCCESS,
and none was reported when the task had failed. -/
structure ResultsAgree (c : Run) : Prop where
  late : c.world.2.late = false
  told : ∀ n, c.world.2.stage n = .moved → n ∈ c.world.2.results
  kept : ∀ n ∈ c.world.2.results, c.world.2.stage n ≠ .givenUp
  ended : ∀ t ∈ c.pool, isRequest t.desc = true → t.rest.ended = true →
    (t.desc.handler ∈ c.world.2.results ↔ c.world.2.stage t.desc.handler = .moved)

/-- The effect leaves the task with a final status. -/
def finishes : Effect → Bool
  | .task _ (.create (.cached ..)) => true
  | .task _ (.update _ basis write) => TaskThreads.isOver (written basis write)
  | .task _ (.save _ .scanStale) => true
  | _ => false

/-- A handler goes to work on a task that is not over, and its wait does not end at the limit
once the success of its graph is published. -/
def Waits (w : World × Ledger) (n : Nat) : (e : Effect) → e.Answer → Prop
  | .task _ .isCancelled, cancelled =>
    w.2.stage n = .begun → not cancelled = true → isOver w.1.task.doc = false
  | .task _ (.await _), waited => expired waited = true → n ∉ w.2.results
  | _, _ => True

/-- While a handler is at work nobody else ends its task, and its graph reports while it
waits. -/
def InTime (w : World × Ledger) (d : Desc) (e : Desc × Effect) (r : e.2.Answer) : Prop :=
  (finishes e.2 = true → ∀ n < w.1.handlers, (w.2.stage n).active = true →
    concludes e.2 = some n) ∧
  (isRequest d = true → Waits w d.handler e.2 r) ∧
  (isGraph d = true → reports e.2 = true → w.2.stage d.handler = .waiting)

instance (w : World × Ledger) (n : Nat) : (e : Effect) → (r : e.Answer) → Decidable (Waits w n e r)
  | .task _ .isCancelled, cancelled =>
    inferInstanceAs (Decidable
      (w.2.stage n = .begun → not cancelled = true → isOver w.1.task.doc = false))
  | .task _ (.await _), waited =>
    inferInstanceAs (Decidable (expired waited = true → n ∉ w.2.results))
  | .task _ (.create _), _ | .task _ .read, _ | .task _ (.inspect _), _ | .task _ (.update ..), _
  | .task _ (.save ..), _ | .task _ .requestCancel, _ | .task _ .clearCancel, _
  | .task _ .heartbeat, _ | .task _ (.publishRequest _), _ | .task _ (.publishFeedback _), _
  | .task _ (.answer _), _ | .task _ .startGraph, _ | .task _ (.startFeedbackGraph _), _
  | .task _ (.settle ..), _ | .send .., _ | .publish _, _ | .deadLetter, _ | .markDirty, _ =>
    isTrue trivial

instance (w : World × Ledger) (d : Desc) (e : Desc × Effect) (r : e.2.Answer) :
    Decidable (InTime w d e r) := inferInstanceAs (Decidable (_ ∧ _ ∧ _))

/-- No result of the handler's graph is there. -/
def Unsettled (w : World) (n : Nat) : Prop :=
  ∀ run result, (run, result) ∈ w.task.results → w.graphs[run]? ≠ some n

/-- What a graph knows of its handler's run at each of its states. -/
structure Knowing (w : World) (g : Ledger) (n : Nat) (telling : Telling) : Prop where
  unsettled : telling ≠ .settled → Unsettled w n
  told : telling ≠ .settled → (telling = .told ↔ n ∈ g.results)
  stopped : telling = .working ∨ telling = .told → n ∉ g.stopped

/-- What a thread knows beside its place in `progress`. -/
def Underway (w : World) (g : Ledger) (d : Desc) (q : TaskEvents.Task Unit) : Prop :=
  match d.task with
  | .handleTask _ => q.Follows stages (g.stage d.handler)
  | .runGraph .. => g.stage d.handler ≠ .outside ∧
      ∃ telling, Knowing w g d.handler telling ∧ q.Follows tellings telling
  | .handleFeedback .. => g.stage d.handler = .outside ∧ q.Emits Rounds
  | .runFeedbackGraph .. => g.stage d.handler = .outside
  | _ => True

/-- What was noted of the handlers agrees with the task, its graphs and their results. -/
structure Backed (w : World × Ledger) : Prop where
  fresh : ∀ n, w.1.handlers ≤ n → w.2.stage n = .outside
  early : ∀ n, (w.2.stage n).early = true → n ∉ w.1.graphs
  left : ∀ n ∈ w.1.graphs, Left w.1
  graphs : ∀ n, n ∈ w.2.results ∨ n ∈ w.2.stopped → n ∈ w.1.graphs
  results : ∀ (run n : Nat) result, (run, result) ∈ w.1.task.results →
    w.1.graphs[run]? = some n → w.2.stage n ≠ .outside →
    (result = .returned false ↔ n ∈ w.2.results)
  stopped : ∀ n ∈ w.2.results, n ∉ w.2.stopped
  held : ∀ n, (w.2.stage n).holding = true → n ∈ w.2.results
  unfinished : ∀ n, (w.2.stage n).active = true → n ∉ w.2.stopped →
    isOver w.1.task.doc = false
  late : w.2.late = false
  kept : ∀ n ∈ w.2.results, w.2.stage n ≠ .givenUp

/-- A handler goes to work on a task that is not over, and by no write. -/
theorem Stage.Step.active {w : World × Ledger} {n : Nat} {stage stage' : Stage} {e : Effect}
    {r : e.Answer} (step : stage.Step e r stage')
    (here : w.2.stage n = stage) (waits : Waits w n e r) (works : stage'.active = true) :
    stage.active = true ∨ (isOver w.1.task.doc = false ∧ finishes e = false) := by
  cases step with
  | stays => exact .inl works
  | accepts => exact .inr ⟨waits here rfl, rfl⟩
  | _ => exact .inl (by first | rfl | exact works)

section Steps

variable {w w' : World} {g : Ledger} {c : Choice} {d : Desc} {e : Effect} {r : e.Answer}
  {forks : List Desc} {n : Nat} {q : TaskEvents.Task Unit} {k : e.Answer → TaskEvents.Task Unit}

theorem request_role (request : isRequest d = true) : d.role = .handler d.handler := by
  obtain ⟨task, handler, again⟩ := d
  cases task with
  | handleTask retryCount => rfl
  | _ => contradiction

theorem graph_role (graph : isGraph d = true) :
    isRequest d = false ∧ ∃ run, d.role = .graph d.handler run := by
  obtain ⟨task, handler, again⟩ := d
  cases task with
  | runGraph run graph' => exact ⟨rfl, run, rfl⟩
  | _ => contradiction

theorem graph_started (graph : isGraph d = true) (bound : d.role.bound w) :
    d.handler ∈ w.graphs := by
  obtain ⟨-, run, role⟩ := graph_role graph
  rw [role] at bound
  exact List.mem_of_getElem? bound.2

theorem underway_request (request : isRequest d = true) :
    Underway w g d q ↔ q.Follows stages (g.stage d.handler) := by
  obtain ⟨task, handler, again⟩ := d
  cases task with
  | handleTask retryCount => exact Iff.rfl
  | _ => contradiction

theorem underway_graph (graph : isGraph d = true) :
    Underway w g d q ↔ g.stage d.handler ≠ .outside ∧
      ∃ telling, Knowing w g d.handler telling ∧ q.Follows tellings telling := by
  obtain ⟨task, handler, again⟩ := d
  cases task with
  | runGraph run graph' => exact Iff.rfl
  | _ => contradiction

/-- A thread that has a handler's number is the handler of a request, its graph, or of a round. -/
theorem underway_mine (underway : Underway w g d q) (mine : n ∈ d.role.number) :
    d.handler = n ∧ (isRequest d = true ∨ isGraph d = true ∨ g.stage n = .outside) := by
  obtain ⟨task, handler, again⟩ := d
  cases task with
  | handleTask retryCount => exact ⟨Option.some.inj mine, .inl rfl⟩
  | runGraph run graph => exact ⟨Option.some.inj mine, .inr (.inl rfl)⟩
  | handleFeedback m delivery =>
    obtain rfl : handler = n := Option.some.inj mine
    exact ⟨rfl, .inr (.inr underway.1)⟩
  | runFeedbackGraph run graph =>
    obtain rfl : handler = n := Option.some.inj mine
    exact ⟨rfl, .inr (.inr underway)⟩
  | _ => contradiction

theorem after_results : n ∈ (g.after w d e r).results ↔
    n ∈ g.results ∨ (isGraph d = true ∧ d.handler = n ∧ succeeds e = true) := by
  obtain ⟨task, handler, again⟩ := d
  cases task with
  | runGraph run graph =>
    cases success : succeeds e with
    | true =>
      simp only [Ledger.after, success, if_true, List.mem_cons, isGraph, true_and, and_true]
      rw [or_comm, eq_comm]
    | false => simp [Ledger.after, success]
  | _ => simp [Ledger.after, isGraph]

theorem after_stopped : n ∈ (g.after w d e r).stopped ↔
    n ∈ g.stopped ∨ (isGraph d = true ∧ d.handler = n ∧ concludes e = some n) := by
  obtain ⟨task, handler, again⟩ := d
  cases task with
  | runGraph run graph =>
    by_cases ends : concludes e = some handler
    · simp only [Ledger.after, if_pos ends, List.mem_cons, isGraph, true_and]
      rw [or_comm]
      refine or_congr_right ⟨fun same => ⟨same.symm, same ▸ ends⟩, fun same => same.1.symm⟩
    · simp only [Ledger.after, if_neg ends, isGraph, true_and]
      exact (or_iff_left fun ⟨same, ended⟩ => ends (same ▸ ended)).symm
  | _ => simp [Ledger.after, isGraph]

theorem after_late : (g.after w d e r).late = true ↔
    g.late = true ∨ (isGraph d = true ∧ reports e = true ∧ failed w.task.doc = true) := by
  obtain ⟨task, handler, again⟩ := d
  cases task <;> simp [Ledger.after, isGraph]

theorem after_own (request : isRequest d = true) :
    (g.after w d e r).stage d.handler = (g.stage d.handler).next e r := by
  obtain ⟨task, handler, again⟩ := d
  cases task with
  | handleTask retryCount => exact Function.update_self _ _ _
  | _ => contradiction

theorem after_stage (other : isRequest d = true → d.handler ≠ n) :
    (g.after w d e r).stage n = g.stage n := by
  obtain ⟨task, handler, again⟩ := d
  cases task with
  | handleTask retryCount => exact Function.update_of_ne (other rfl).symm _ _
  | _ => rfl

/-- A stage stays, or its handler takes a step. -/
theorem stage_cases (underway : Underway w g d (.act e k)) (n : Nat) :
    (g.after w d e r).stage n = g.stage n ∨
      (isRequest d = true ∧ d.handler = n ∧
        (g.stage n).Step e r ((g.after w d e r).stage n)) := by
  by_cases own : isRequest d = true ∧ d.handler = n
  · obtain ⟨request, rfl⟩ := own
    have allowed := ((underway_request request).mp underway).1
    rw [after_own request]
    exact .inr ⟨request, rfl, next_step allowed⟩
  · exact .inl (after_stage fun request same => own ⟨request, same⟩)

theorem stage_outside (underway : Underway w g d (.act e k)) :
    (g.after w d e r).stage n = .outside ↔ g.stage n = .outside := by
  rcases stage_cases underway n with same | ⟨-, -, step⟩
  · rw [same]
  · exact step.outside

/-- A new graph is the acting handler's. -/
theorem new_graph {p : Point} (allowed : allows d.role p e)
    (held : n ∈ (w.after c (w.taskAfter c e) e).graphs) :
    n ∈ w.graphs ∨ (d.role = .handler n ∧ p = .left ∧ ∃ note, e = .task note .startGraph ∨
      ∃ delivery, e = .task note (.startFeedbackGraph delivery)) := by
  have append {note : Note} (mine : note.handler = d.role.number)
      (handler : ∃ m, d.role = .handler m ∧ p = .left)
      (held : n ∈ w.graphs ++ [note.handler.getD 0]) :
      n ∈ w.graphs ∨ (d.role = .handler n ∧ p = .left) := by
    obtain ⟨m, role, here⟩ := handler
    rcases List.mem_append.mp held with old | new
    · exact .inl old
    · rw [mine, role] at new
      obtain rfl : n = m := List.mem_singleton.mp new
      exact .inr ⟨role, here⟩
  cases e with
  | task note e =>
    cases e with
    | startGraph =>
      exact (append allowed.2.1 allowed.2.2 held).imp_right
        fun ⟨role, here⟩ => ⟨role, here, note, .inl rfl⟩
    | startFeedbackGraph delivery =>
      exact (append allowed.2.1 allowed.2.2 held).imp_right
        fun ⟨role, here⟩ => ⟨role, here, note, .inr ⟨delivery, rfl⟩⟩
    | _ => exact .inl held
  | _ => exact .inl held

theorem settles {run : Nat} {result : TaskThreads.Result}
    (held : (run, result) ∈ (w.taskAfter c e).results) :
    (run, result) ∈ w.task.results ∨ ∃ note, e = .task note (.settle run result) := by
  cases e with
  | task note e =>
    cases e with
    | settle other settled =>
      rcases List.mem_cons.mp held with new | old
      · obtain ⟨rfl, rfl⟩ := Prod.mk.inj new
        exact .inr ⟨note, rfl⟩
      · exact .inl old
    | _ => exact .inl held
  | send note item => cases item <;> exact .inl held
  | _ => exact .inl held

/-- A write that ends a task which was not over finishes it. -/
theorem finishes_of (before : isOver w.task.doc = false)
    (later : isOver (w.taskAfter c e).doc = true) : finishes e = true := by
  cases e with
  | task note e =>
    cases e with
    | create submission =>
      cases submission with
      | cached taskId question dbId sql execResult tokenUsage nodeTimings => rfl
      | api taskId question dbId databaseUrl =>
        have pending : TaskThreads.isOver "PENDING" = true :=
          (congrArg _ api_status).symm.trans later
        exact absurd pending (by decide)
      | gateway taskId question dbId databaseUrl =>
        have pending : TaskThreads.isOver "PENDING" = true :=
          (congrArg _ gateway_status).symm.trans later
        exact absurd pending (by decide)
    | update seen basis write =>
      change TaskThreads.isOver
        (TaskStore.status (TaskStore.merged c.now basis write.fields)) = true
        at later
      rw [TaskStore.status_merged] at later
      exact later
    | save s operation =>
      cases operation with
      | scanStale => rfl
      | feedback =>
        change TaskThreads.isOver (TaskStore.status
          (JavaTaskState.encode (JavaTaskState.feedbackSaved c.now s))) = true at later
        rw [TaskThreads.status_feedbackSaved] at later
        exact absurd later (by decide)
    | _ => exact absurd (before.symm.trans later) (by decide)
  | send note item => cases item <;> exact absurd (before.symm.trans later) (by decide)
  | _ => exact absurd (before.symm.trans later) (by decide)

theorem failed_over {doc : Option Doc} (ended : failed doc = true) : isOver doc = true := by
  cases doc with
  | none => contradiction
  | some d =>
    simp only [failed, List.mem_cons, List.not_mem_nil, or_false, decide_eq_true_eq] at ended
    rcases ended with status | status | status <;> simp [isOver, TaskThreads.isOver, status]

/-- What a handler waits for is its own graph. -/
theorem awaits_own {note : Note} {run : Nat} {k : TaskThreads.Waited → TaskEvents.Task Unit}
    (track : OnTrack w (.handler n) (.act (.task note (.await run)) k)) :
    w.graphs[run]? = some n := by
  obtain ⟨-, p, at_point, ⟨-, -, rfl⟩, -⟩ := track
  exact at_point.2 n rfl

theorem returned_result {waited : TaskThreads.Waited} (answered : returned waited = true) :
    waited = .done (.returned false) := by
  cases waited with
  | timedOut => contradiction
  | done result =>
    cases result with
    | returned cancelled =>
      cases cancelled with
      | true => contradiction
      | false => rfl
    | raised error => contradiction

/-- A wait that has not reached its limit has a result of the handler's graph. -/
theorem awaited_result {note : Note} {run : Nat} {waited : TaskThreads.Waited}
    (performed : perform w c (.task note (.await run)) = some (w', waited, forks))
    (ended : expired waited = false) :
    ∃ result, waited = .done result ∧ (run, result) ∈ w.task.results := by
  obtain ⟨started, replied, -⟩ := perform_task performed
  obtain ⟨-, rfl | ⟨result, rfl, found⟩⟩ := TaskThreads.reply_await replied
  · contradiction
  · exact ⟨result, rfl, mem_of_lookup found⟩

theorem read_answer {note : Note} {current : Option Doc}
    (performed : perform w c (.task note .read) = some (w', current, forks)) :
    current = w.task.doc := by
  obtain ⟨started, replied, -⟩ := perform_task performed
  exact (Prod.mk.inj (Option.some.inj replied)).1.symm

/-- A task that is past PENDING and not over may become a success. -/
theorem running_valid (left : Left w) (unfinished : isOver w.task.doc = false) :
    TaskStore.validTransition w.task.doc "SUCCESS" = true := by
  obtain ⟨d, stored, later⟩ := left
  rw [stored] at unfinished ⊢
  simp only [isOver, TaskThreads.isOver, decide_eq_false_iff_not] at unfinished
  rcases List.mem_cons.mp later with running | final
  · simp [TaskStore.validTransition, running, TaskStore.allowed]
  · refine absurd ?_ unfinished
    rcases List.mem_cons.mp final with status | final
    · simp [status]
    · simp only [List.mem_cons, List.not_mem_nil, or_false] at final
      rcases final with status | status | status <;> simp [status]

/-- What a graph knows while it may still write or publish. -/
theorem Knowing.working (knowing : Knowing w g n telling) (working : telling = .working) :
    Unsettled w n ∧ n ∉ g.results ∧ n ∉ g.stopped := by
  subst working
  refine ⟨knowing.unsettled nofun, fun told => ?_, knowing.stopped (.inl rfl)⟩
  exact absurd ((knowing.told nofun).mpr told) nofun

theorem reports_working (allowed : tellings.allows telling e) (reported : reports e = true) :
    telling = .working := by
  cases e with
  | publish event =>
    cases event with
    | success => exact allowed
    | _ => contradiction
  | task note e =>
    cases e with
    | update seen basis write => exact allowed
    | _ => contradiction
  | _ => contradiction

theorem concludes_update (ends : concludes e = some n) : ∃ note seen basis write,
    e = .task note (.update seen basis write) ∧ note.decides = true ∧ note.handler = some n := by
  cases e with
  | task note e =>
    cases e with
    | update seen basis write =>
      obtain ⟨decides, mine⟩ := Option.ite_none_right_eq_some.mp ends
      exact ⟨note, seen, basis, write, rfl, decides, mine⟩
    | _ => contradiction
  | _ => contradiction

/-- What is known when a request's graph publishes its success, or reports at all. -/
theorem Underway.working (underway : Underway w g d (.act e k)) (graph : isGraph d = true)
    (reported : reports e = true) :
    Unsettled w d.handler ∧ d.handler ∉ g.results ∧ d.handler ∉ g.stopped := by
  obtain ⟨-, telling, knowing, allowed, -⟩ := (underway_graph graph).mp underway
  exact knowing.working (reports_working allowed reported)

theorem succeeds_reports (success : succeeds e = true) : reports e = true := by
  cases e with
  | publish event =>
    cases event with
    | success => rfl
    | _ => contradiction
  | _ => contradiction

section Invariant

variable (backed : Backed (w, g)) (underway : Underway w g d (.act e k))

include backed underway

theorem fresh_step (unused : w.handlers ≤ n) : (g.after w d e r).stage n = .outside :=
  (stage_outside underway).mpr (backed.fresh n unused)

theorem early_step {p : Point} (allowed : allows d.role p e)
    (still : ((g.after w d e r).stage n).early = true) :
    n ∉ (w.after c (w.taskAfter c e) e).graphs := by
  have before : (g.stage n).early = true := by
    rcases stage_cases (r := r) underway n with same | ⟨-, -, step⟩
    · rw [← same]
      exact still
    · exact step.early still
  intro held
  rcases new_graph allowed held with old | ⟨role, -, note, started⟩
  · exact backed.early n before old
  obtain ⟨rfl, request | graph | outside⟩ := underway_mine underway (role ▸ rfl : n ∈ d.role.number)
  · have may := ((underway_request request).mp underway).1
    rcases started with rfl | ⟨delivery, rfl⟩
    · have accepted : g.stage d.handler = .accepted := may
      rw [after_own request, accepted] at still
      have waiting : Stage.early .waiting = true := still
      exact absurd waiting (by decide)
    · exact may
  · obtain ⟨-, run, other⟩ := graph_role graph
    rw [role] at other
    contradiction
  · rw [outside] at before
    exact absurd before (by decide)

theorem results_step {run : Nat} {result : TaskThreads.Result} (sound : Sound w)
    (track : OnTrack w d.role (.act e k)) (performed : perform w c e = some (w', r, forks))
    (returned : (run, result) ∈ w'.task.results) (mine : w'.graphs[run]? = some n)
    (inside : (g.after w d e r).stage n ≠ .outside) :
    result = .returned false ↔ n ∈ (g.after w d e r).results := by
  obtain ⟨bound, p, -, allowed, -⟩ := track
  have grows := perform_grows allowed performed
  obtain rfl := perform_after performed
  have before : g.stage n ≠ .outside := fun outside => inside ((stage_outside underway).mpr outside)
  rcases settles returned with old | ⟨note, rfl⟩
  · have there : run < w.graphs.length := sound.results run _ old
    have same := grows.graphs run _ (List.getElem?_eq_getElem there)
    obtain rfl := Option.some.inj (same.symm.trans mine)
    have graph := List.getElem?_eq_getElem there
    rw [backed.results run _ result old graph before, after_results]
    refine (or_iff_left ?_).symm
    rintro ⟨isOwn, own, success⟩
    have unsettled := (underway.working isOwn (succeeds_reports success)).1
    exact unsettled run result old (graph.trans (congrArg some own.symm))
  · obtain ⟨-, number, m, role, -⟩ := allowed
    rw [role] at bound
    obtain rfl : m = n := Option.some.inj ((grows.graphs run m bound.2).symm.trans mine)
    obtain ⟨rfl, request | graph | outside⟩ :=
      underway_mine underway (role ▸ rfl : m ∈ d.role.number)
    · rw [request_role request] at role
      contradiction
    · obtain ⟨-, telling, knowing, ⟨opened, tells⟩, -⟩ := (underway_graph graph).mp underway
      rw [tells, knowing.told opened, after_results]
      exact (or_iff_left fun ⟨_, _, success⟩ => by contradiction).symm
    · exact absurd outside before

theorem stopped_step (told : n ∈ (g.after w d e r).results) : n ∉ (g.after w d e r).stopped := by
  rw [after_results] at told
  rw [after_stopped]
  rintro (stopped | ⟨graph, rfl, ends⟩)
  · rcases told with before | ⟨graph, rfl, success⟩
    · exact backed.stopped n before stopped
    · exact (underway.working graph (succeeds_reports success)).2.2 stopped
  · obtain ⟨note, seen, basis, write, rfl, -⟩ := concludes_update ends
    obtain ⟨-, telling, knowing, allowed, -⟩ := (underway_graph graph).mp underway
    rcases told with before | ⟨-, -, success⟩
    · exact (knowing.working allowed).2.1 before
    · contradiction

theorem held_step (track : OnTrack w d.role (.act e k))
    (performed : perform w c e = some (w', r, forks))
    (holding : ((g.after w d e r).stage n).holding = true) : n ∈ (g.after w d e r).results := by
  refine after_results.mpr (.inl ?_)
  rcases stage_cases (r := r) underway n with same | ⟨request, rfl, step⟩
  · rw [same] at holding
    exact backed.held n holding
  · rw [request_role request] at track
    revert holding
    generalize (g.after w d e r).stage d.handler = stage' at step
    generalize here : g.stage d.handler = stage at step
    intro holding
    cases step with
    | stays => exact backed.held _ (here ▸ holding)
    | answers answered =>
      obtain rfl := returned_result answered
      obtain ⟨result, same, settled⟩ := awaited_result performed rfl
      obtain rfl := TaskThreads.Waited.done.inj same
      have inside : g.stage d.handler ≠ .outside := by simp [here]
      exact (backed.results _ _ _ settled (awaits_own track) inside).mp rfl
    | admits valid => exact backed.held _ (here ▸ rfl)
    | moves success => exact backed.held _ (here ▸ rfl)
    | _ => exact absurd holding (by decide)

theorem unfinished_step (track : OnTrack w d.role (.act e k))
    (inTime : InTime (w, g) d (d, e) r)
    (works : ((g.after w d e r).stage n).active = true)
    (going : n ∉ (g.after w d e r).stopped) : isOver (w.taskAfter c e).doc = false := by
  obtain ⟨alone, waits, -⟩ := inTime
  have before : n ∉ g.stopped := fun stopped => going (after_stopped.mpr (.inl stopped))
  have started : (g.stage n).active = true ∨
      (isOver w.task.doc = false ∧ finishes e = false) := by
    rcases stage_cases (r := r) underway n with same | ⟨request, rfl, step⟩
    · exact .inl (same ▸ works)
    · exact step.active (w := (w, g)) rfl (waits request) works
  rcases started with active | ⟨open_, unwritten⟩
  · by_contra over_
    rw [Bool.not_eq_false] at over_
    have finished := finishes_of (backed.unfinished n active before) over_
    have known : n < w.handlers := by
      by_contra unused
      rw [backed.fresh n (Nat.le_of_not_lt unused)] at active
      exact absurd active (by decide)
    have ends := alone finished n known active
    obtain ⟨note, seen, basis, write, rfl, decides, mine⟩ := concludes_update ends
    obtain ⟨-, p, -, ⟨-, number, -⟩, -⟩ := track
    have own : n ∈ d.role.number := number.symm.trans mine
    obtain ⟨rfl, request | graph | outside⟩ := underway_mine underway own
    · have may := ((underway_request request).mp underway).1
      rcases may.2 decides with success | gave
      · rw [after_own request, Stage.next, if_pos success] at works
        exact absurd works (by decide)
      · rw [gave] at active
        exact absurd active (by decide)
    · exact going (after_stopped.mpr (.inr ⟨graph, rfl, ends⟩))
    · rw [outside] at active
      exact absurd active (by decide)
  · by_contra over_
    rw [Bool.not_eq_false] at over_
    exact absurd ((finishes_of open_ over_).symm.trans unwritten) (by decide)

theorem late_step (inTime : InTime (w, g) d (d, e) r) : (g.after w d e r).late = false := by
  by_contra late
  rw [Bool.not_eq_false] at late
  rcases after_late.mp late with before | ⟨graph, reported, ended⟩
  · exact absurd (backed.late.symm.trans before) (by decide)
  · have waiting : g.stage d.handler = .waiting := inTime.2.2 graph reported
    have going := (underway.working graph reported).2.2
    have active : (g.stage d.handler).active = true := waiting ▸ rfl
    exact absurd ((backed.unfinished _ active going).symm.trans (failed_over ended)) (by decide)

theorem kept_step (track : OnTrack w d.role (.act e k))
    (inTime : InTime (w, g) d (d, e) r) (performed : perform w c e = some (w', r, forks))
    (told : n ∈ (g.after w d e r).results) : (g.after w d e r).stage n ≠ .givenUp := by
  rcases stage_cases (r := r) underway n with same | ⟨request, rfl, step⟩
  · rw [same]
    rcases after_results.mp told with before | ⟨graph, rfl, success⟩
    · exact backed.kept n before
    · have waiting : g.stage d.handler = .waiting := inTime.2.2 graph (succeeds_reports success)
      simp [waiting]
  · have before : d.handler ∈ g.results := by
      refine (after_results.mp told).resolve_right fun ⟨graph, _⟩ => ?_
      have other := (graph_role graph).1
      rw [request] at other
      contradiction
    have started := backed.graphs _ (.inl before)
    have waits := inTime.2.1 request
    rw [request_role request] at track
    intro gave
    generalize (g.after w d e r).stage d.handler = stage' at step gave
    subst gave
    generalize here : g.stage d.handler = stage at step
    cases step with
    | stays => exact backed.kept _ before here
    | flagged => exact backed.early _ (here ▸ rfl) started
    | expires failed =>
      have inside : g.stage d.handler ≠ .outside := by simp [here]
      have ended : expired _ = false := Bool.eq_false_iff.mpr fun late => waits late before
      obtain ⟨result, rfl, settled⟩ := awaited_result performed ended
      obtain rfl := (backed.results _ _ _ settled (awaits_own track) inside).mpr before
      contradiction
    | refuses invalid =>
      have unfinished := backed.unfinished _ (here ▸ rfl) (backed.stopped _ before)
      have valid := running_valid (backed.left _ started) unfinished
      rw [read_answer performed, valid] at invalid
      contradiction

end Invariant

theorem Backed.step (backed : Backed (w, g)) (underway : Underway w g d (.act e k))
    (sound : Sound w) (track : OnTrack w d.role (.act e k))
    (inTime : InTime (w, g) d (d, e) r) (performed : perform w c e = some (w', r, forks)) :
    Backed (w', g.after w d e r) := by
  obtain ⟨bound, p, at_point, allowed, -⟩ := id track
  have grows := perform_grows allowed performed
  have after := perform_after performed
  constructor
  · intro n unused
    rw [after] at unused
    exact fresh_step backed underway unused
  · intro n still
    rw [after]
    exact early_step backed underway allowed still
  · intro n held
    rw [after] at held
    rcases new_graph allowed held with old | ⟨-, rfl, -⟩
    · exact grows.left (backed.left n old)
    · exact grows.left at_point.1
  · intro n noted
    have graph : n ∈ w.graphs := by
      rcases noted with told | stopped
      · rcases after_results.mp told with before | ⟨graph, rfl, -⟩
        · exact backed.graphs n (.inl before)
        · exact graph_started graph bound
      · rcases after_stopped.mp stopped with before | ⟨graph, rfl, -⟩
        · exact backed.graphs n (.inr before)
        · exact graph_started graph bound
    obtain ⟨run, held⟩ := List.mem_iff_getElem?.mp graph
    exact List.mem_of_getElem? (grows.graphs run n held)
  · intro run n result returned mine inside
    exact results_step backed underway sound track performed returned mine inside
  · intro n told
    exact stopped_step backed underway told
  · intro n holding
    exact held_step backed underway track performed holding
  · intro n works going
    rw [after]
    exact unfinished_step backed underway track inTime works going
  · exact late_step backed underway inTime
  · intro n told
    exact kept_step backed underway track inTime performed told

theorem Backed.found (backed : Backed (w, g)) (performed : perform w c e = some (w', r, forks)) :
    Found (g.stage n) e r := by
  cases e with
  | task note e =>
    cases e with
    | read =>
      intro admitted
      have told := backed.held n (admitted ▸ rfl)
      rw [read_answer performed]
      exact (backed.left n (backed.graphs n (.inl told))).stored
    | _ => trivial
  | _ => trivial

/-- No effect but the settling of its own graph settles a handler's run. -/
theorem Unsettled.step (unsettled : Unsettled w n) (sound : Sound w) (grows : Grows w w')
    (performed : perform w c e = some (w', r, forks))
    (other : ∀ note run result, e = .task note (.settle run result) →
      ∃ m, w.graphs[run]? = some m ∧ m ≠ n) : Unsettled w' n := by
  intro run result returned mine
  rw [perform_after performed] at returned
  rcases settles returned with old | ⟨note, same⟩
  · have graph := List.getElem?_eq_getElem (sound.results run _ old)
    have kept := (grows.graphs run _ graph).symm.trans mine
    exact unsettled run result old (graph.trans kept)
  · obtain ⟨m, graph, apart⟩ := other note run result same
    exact apart (Option.some.inj ((grows.graphs run m graph).symm.trans mine))

theorem Knowing.step (knowing : Knowing w g d.handler telling) (graph : isGraph d = true)
    (sound : Sound w) (grows : Grows w w') (allowed : tellings.allows telling e)
    (performed : perform w c e = some (w', r, forks)) :
    Knowing w' (g.after w d e r) d.handler (telling.next e) := by
  have step := telling_step allowed
  generalize telling.next e = telling' at step
  cases step with
  | stays silent goes unsettled =>
    refine ⟨fun opened => ?_, fun opened => ?_, fun works stopped => ?_⟩
    · exact (knowing.unsettled opened).step sound grows performed
        fun note run result same => absurd same (unsettled note run result)
    · rw [knowing.told opened, after_results, silent]
      simp
    · rw [after_stopped, goes] at stopped
      exact knowing.stopped works (stopped.resolve_right nofun)
  | publishes =>
    obtain ⟨unsettled, -, going⟩ := knowing.working rfl
    refine ⟨fun _ => unsettled.step sound grows performed nofun, fun _ => ?_, fun _ stopped => ?_⟩
    · exact iff_of_true rfl (after_results.mpr (.inr ⟨graph, rfl, rfl⟩))
    · exact going ((after_stopped.mp stopped).resolve_right nofun)
  | stops =>
    obtain ⟨unsettled, untold, -⟩ := knowing.working rfl
    refine ⟨fun _ => unsettled.step sound grows performed nofun, fun _ => ?_, nofun⟩
    refine iff_of_false nofun fun told => untold ?_
    exact (after_results.mp told).resolve_right nofun
  | settles => exact ⟨fun opened => absurd rfl opened, fun opened => absurd rfl opened, nofun⟩

/-- The thread itself goes on. -/
theorem Underway.step (backed : Backed (w, g)) (underway : Underway w g d (.act e k))
    (sound : Sound w) (track : OnTrack w d.role (.act e k))
    (performed : perform w c e = some (w', r, forks)) :
    Underway w' (g.after w d e r) d (k r) := by
  have grows : Grows w w' := by
    obtain ⟨-, p, -, allowed, -⟩ := track
    exact perform_grows allowed performed
  by_cases request : isRequest d = true
  · rw [underway_request request, after_own request]
    exact ((underway_request request).mp underway).2 r _ ⟨rfl, backed.found performed⟩
  by_cases graph : isGraph d = true
  · obtain ⟨inside, telling, knowing, allowed, follows⟩ := (underway_graph graph).mp underway
    refine (underway_graph graph).mpr ⟨fun outside => inside ?_, telling.next e,
      knowing.step graph sound grows allowed performed, follows r _ rfl⟩
    exact (stage_outside underway).mp outside
  have outside := stage_outside (n := d.handler) (r := r) underway
  obtain ⟨task, handler, again⟩ := d
  cases task with
  | handleTask retryCount => exact absurd rfl request
  | runGraph run graph' => exact absurd rfl graph
  | handleFeedback m delivery => exact ⟨outside.mpr underway.1, underway.2.2 r⟩
  | runFeedbackGraph run graph' => exact outside.mpr underway
  | _ => trivial

/-- Two handlers of requests, or two of their graphs, have two numbers. -/
def Apart (d d' : Desc) : Prop :=
  (isRequest d = true → isRequest d' = true → d.handler ≠ d'.handler) ∧
    (isGraph d = true → isGraph d' = true → d.handler ≠ d'.handler)

/-- Another graph knows what it knew. -/
theorem Knowing.frame (knowing : Knowing w g n telling) (inside : g.stage n ≠ .outside)
    (sound : Sound w) (track : OnTrack w d.role (.act e k))
    (underway : Underway w g d (.act e k)) (performed : perform w c e = some (w', r, forks))
    (apart : isGraph d = true → d.handler ≠ n) : Knowing w' (g.after w d e r) n telling := by
  obtain ⟨bound, p, -, allowed, -⟩ := track
  have grows := perform_grows allowed performed
  refine ⟨fun opened => ?_, fun opened => ?_, fun works stopped => ?_⟩
  · refine (knowing.unsettled opened).step sound grows performed ?_
    rintro note run result rfl
    obtain ⟨-, -, m, role, -⟩ := allowed
    rw [role] at bound
    refine ⟨m, bound.2, ?_⟩
    rintro rfl
    obtain ⟨own, request | graph | outside⟩ :=
      underway_mine underway (role ▸ rfl : m ∈ d.role.number)
    · rw [request_role request] at role
      contradiction
    · exact apart graph own
    · exact inside outside
  · rw [knowing.told opened, after_results]
    exact (or_iff_left fun ⟨graph, own, _⟩ => apart graph own).symm
  · rcases after_stopped.mp stopped with before | ⟨graph, own, -⟩
    · exact knowing.stopped works before
    · exact apart graph own

/-- Another thread knows what it knew. -/
theorem Underway.frame {d' : Desc} (other : Underway w g d' q) (sound : Sound w)
    (track : OnTrack w d.role (.act e k)) (underway : Underway w g d (.act e k))
    (performed : perform w c e = some (w', r, forks)) (apart : Apart d d') :
    Underway w' (g.after w d e r) d' q := by
  have outside := stage_outside (n := d'.handler) (r := r) underway
  by_cases request : isRequest d' = true
  · rw [underway_request request, after_stage fun own => apart.1 own request]
    exact (underway_request request).mp other
  by_cases graph : isGraph d' = true
  · obtain ⟨inside, telling, knowing, follows⟩ := (underway_graph graph).mp other
    exact (underway_graph graph).mpr ⟨fun out => inside (outside.mp out), telling,
      knowing.frame inside sound track underway performed fun own => apart.2 own graph, follows⟩
  obtain ⟨task, handler, again⟩ := d'
  cases task with
  | handleTask retryCount => exact absurd rfl request
  | runGraph run graph' => exact absurd rfl graph
  | handleFeedback m delivery => exact ⟨outside.mpr other.1, other.2⟩
  | runFeedbackGraph run graph' => exact outside.mpr other
  | _ => trivial

theorem forks_single (performed : perform w c e = some (w', r, forks)) :
    forks = [] ∨ ∃ f, forks = [f] := by
  cases e with
  | task note e =>
    obtain ⟨started, replied, rfl⟩ := perform_task performed
    obtain rfl := TaskThreads.reply_starts replied
    cases e with
    | startGraph => exact .inr ⟨_, rfl⟩
    | startFeedbackGraph delivery => exact .inr ⟨_, rfl⟩
    | _ => exact .inl rfl
  | _ =>
    obtain ⟨-, same⟩ := Prod.mk.inj (Option.some.inj performed)
    obtain ⟨-, rfl⟩ := Prod.mk.inj same
    exact .inl rfl

/-- Only a request's handler starts a graph of requests. -/
theorem starts_request {note : Note} {k : Nat → TaskEvents.Task Unit}
    (underway : Underway w g d (.act (.task note .startGraph) k)) (role : d.role = .handler n) :
    d.handler = n ∧ isRequest d = true ∧ g.stage d.handler = .accepted := by
  obtain ⟨task, handler, again⟩ := d
  cases task with
  | handleTask retryCount => exact ⟨Role.handler.inj role, rfl, underway.1⟩
  | handleFeedback m delivery => exact absurd underway.2.1 id
  | _ => contradiction

/-- A graph that is started has neither published nor settled anything. -/
theorem started_knowing {note : Note} {r : Nat} (backed : Backed (w, g)) (sound : Sound w)
    (absent : n ∉ w.graphs) (performed : perform w c (.task note .startGraph) =
      some (w', r, forks)) :
    Knowing w' (g.after w d (.task note .startGraph) r) n .working := by
  refine ⟨fun _ run result returned mine => ?_, fun _ => iff_of_false nofun fun told => ?_,
    fun _ stopped => ?_⟩
  · rw [perform_after performed] at returned mine
    have old : (run, result) ∈ w.task.results := (settles returned).resolve_right nofun
    have there := sound.results run result old
    have graph : w.graphs[run]? = some n := (List.getElem?_append_left there).symm.trans mine
    exact absent (List.mem_of_getElem? graph)
  · exact absent (backed.graphs n (.inl ((after_results.mp told).resolve_right nofun)))
  · exact absent (backed.graphs n (.inr ((after_stopped.mp stopped).resolve_right nofun)))

/-- What an effect starts is a graph of the acting handler. -/
theorem forks_underway (backed : Backed (w, g)) (underway : Underway w g d (.act e k))
    (sound : Sound w) (track : OnTrack w d.role (.act e k))
    (performed : perform w c e = some (w', r, forks)) :
    ∀ f ∈ forks, isRequest f = false ∧ (isGraph f = true → f.handler ∉ w.graphs) ∧
      Underway w' (g.after w d e r) f (body f) := by
  obtain ⟨-, p, -, allowed, -⟩ := track
  have grows := perform_grows allowed performed
  cases e with
  | task note e =>
    obtain ⟨started, replied, rfl⟩ := perform_task performed
    obtain rfl := TaskThreads.reply_starts replied
    cases e with
    | startGraph =>
      intro f forked
      obtain rfl := List.mem_singleton.mp forked
      obtain ⟨-, number, n, role, -⟩ := allowed
      rw [role] at number
      obtain ⟨rfl, request, accepted⟩ := starts_request underway role
      have absent := backed.early d.handler (accepted ▸ rfl)
      have waiting : (g.after w d (.task note .startGraph) r).stage d.handler = .waiting := by
        rw [after_own request, accepted]
        rfl
      rw [number]
      refine ⟨rfl, fun _ => absent, fun outside => ?_, .working, ?_, graphLoop_follows _ _ _⟩
      · exact absurd (waiting.symm.trans outside) nofun
      · exact started_knowing backed sound absent performed
    | startFeedbackGraph delivery =>
      intro f forked
      obtain rfl := List.mem_singleton.mp forked
      obtain ⟨-, number, n, role, -⟩ := allowed
      rw [role] at number
      obtain ⟨rfl, request | graph | outside⟩ :=
        underway_mine underway (role ▸ rfl : n ∈ d.role.number)
      · exact absurd ((underway_request request).mp underway).1 id
      · obtain ⟨-, run, other⟩ := graph_role graph
        rw [role] at other
        contradiction
      · rw [number]
        exact ⟨rfl, nofun, (stage_outside underway).mpr outside⟩
    | _ => exact fun f forked => absurd forked List.not_mem_nil
  | _ =>
    obtain ⟨-, same⟩ := Prod.mk.inj (Option.some.inj performed)
    obtain ⟨-, rfl⟩ := Prod.mk.inj same
    exact fun f forked => absurd forked List.not_mem_nil

end Steps

/-- What is known of a thread; its effects stand under its own descriptor. -/
def Knows (w : World × Ledger) (t : Thread (Desc × Effect) (fun e => e.2.Answer) Desc) : Prop :=
  ∃ q : TaskEvents.Task Unit, t.rest = q.tag t.desc ∧ OnTrack w.1 t.desc.role q ∧
    Underway w.1 w.2 t.desc q

theorem Knows.inv {w : World × Ledger} {d : Desc} {e : Desc × Effect}
    {k : e.2.Answer → Prog (Desc × Effect) (fun e => e.2.Answer) Unit}
    (knows : Knows w ⟨d, .act e k⟩) :
    ∃ k' : e.2.Answer → TaskEvents.Task Unit, e.1 = d ∧ (∀ r, k r = (k' r).tag d) ∧
      OnTrack w.1 d.role (.act e.2 k') ∧ Underway w.1 w.2 d (.act e.2 k') := by
  obtain ⟨q, same, track, underway⟩ := knows
  cases q with
  | ret a => contradiction
  | act e' k' =>
    change Prog.act e k = Prog.act (d, e') (fun r => (k' r).tag d) at same
    cases same
    exact ⟨k', rfl, fun _ => rfl, track, underway⟩

section Arrivals

variable {w : World} {g : Ledger} {world : World} {d : Desc} {n : Nat}

/-- A handler arrives with a new number, and a graph does not arrive. -/
theorem arrive_number (arrived : TaskEvents.arrive w d = some world) (mine : n ∈ d.role.number) :
    d.role = .handler n ∧ d.handler = n ∧ n = w.handlers := by
  rcases arrive_cases arrived with ⟨role, -⟩ | ⟨role, -⟩ | ⟨role, number, -⟩
  · rw [role] at mine
    contradiction
  · rw [role] at mine
    contradiction
  · rw [role] at mine
    obtain rfl : d.handler = n := Option.some.inj mine
    exact ⟨role, rfl, number⟩

theorem request_number (request : isRequest d = true) : d.handler ∈ d.role.number :=
  request_role request ▸ rfl

theorem arrived_ledger : (g.arrived d).results = g.results ∧ (g.arrived d).stopped = g.stopped ∧
    (g.arrived d).late = g.late := by
  obtain ⟨task, handler, again⟩ := d
  cases task <;> exact ⟨rfl, rfl, rfl⟩

theorem arrived_stage (other : isRequest d = true → d.handler ≠ n) :
    (g.arrived d).stage n = g.stage n := by
  obtain ⟨task, handler, again⟩ := d
  cases task with
  | handleTask retryCount => exact Function.update_of_ne (other rfl).symm _ _
  | _ => rfl

theorem arrived_request (request : isRequest d = true) :
    (g.arrived d).stage d.handler = .begun := by
  obtain ⟨task, handler, again⟩ := d
  cases task with
  | handleTask retryCount => exact Function.update_self _ _ _
  | _ => contradiction

/-- The only stage that changes is that of the handler that arrives. -/
theorem arrived_cases (arrived : TaskEvents.arrive w d = some world) (n : Nat) :
    (g.arrived d).stage n = g.stage n ∨
      (n = w.handlers ∧ n < world.handlers ∧ (g.arrived d).stage n = .begun) := by
  by_cases own : isRequest d = true ∧ d.handler = n
  · obtain ⟨request, rfl⟩ := own
    obtain ⟨-, -, number⟩ := arrive_number arrived (request_number request)
    have later : world.handlers = w.handlers + 1 := by
      rcases arrive_cases arrived with ⟨role, -⟩ | ⟨role, -⟩ |
        ⟨-, -, item, broker, task, -, -, -, rfl⟩
      · exact absurd ((request_role request).symm.trans role) nofun
      · exact absurd ((request_role request).symm.trans role) nofun
      · rfl
    exact .inr ⟨number, by omega, arrived_request request⟩
  · exact .inl (arrived_stage fun request same => own ⟨request, same⟩)

/-- A handler begins, and nothing else that is noted changes. -/
theorem Backed.arrive (backed : Backed (w, g)) (sound : Sound w)
    (arrived : TaskEvents.arrive w d = some world) : Backed (world, g.arrived d) := by
  have arrives := arrive_arrives sound arrived
  obtain ⟨results, stopped, late⟩ := arrived_ledger (g := g) (d := d)
  have stage := arrived_cases (g := g) arrived
  have inside (n : Nat) (graph : n ∈ w.graphs) : (g.arrived d).stage n = g.stage n := by
    refine (stage n).resolve_right fun ⟨number, _⟩ => ?_
    exact absurd (sound.graphs n graph) (number ▸ lt_irrefl _)
  have graph (n : Nat) (told : n ∈ g.results) : (g.arrived d).stage n = g.stage n :=
    inside n (backed.graphs n (.inl told))
  constructor
  · intro n unused
    rcases stage n with same | ⟨-, known, -⟩
    · rw [same]
      exact backed.fresh n (arrives.handlers.trans unused)
    · exact absurd known (Nat.not_lt_of_le unused)
  · intro n still held
    rw [arrives.graphs] at held
    rw [inside n held] at still
    exact backed.early n still held
  · intro n held
    rw [arrives.graphs] at held
    exact arrives.grows.left (backed.left n held)
  · intro n noted
    rw [results, stopped] at noted
    rw [arrives.graphs]
    exact backed.graphs n noted
  · intro run n result returned mine known
    rw [arrives.results] at returned
    rw [arrives.graphs] at mine
    rw [inside n (List.mem_of_getElem? mine)] at known
    rw [results]
    exact backed.results run n result returned mine known
  · rw [results, stopped]
    exact backed.stopped
  · intro n holding
    rw [results]
    rcases stage n with same | ⟨-, -, begun⟩
    · exact backed.held n (same ▸ holding)
    · exact absurd (begun ▸ holding : Stage.begun.holding = true) (by decide)
  · intro n works going
    rw [arrives.doc]
    rw [stopped] at going
    rcases stage n with same | ⟨-, -, begun⟩
    · exact backed.unfinished n (same ▸ works) going
    · exact absurd (begun ▸ works : Stage.begun.active = true) (by decide)
  · exact late.trans backed.late
  · intro n told
    rw [results] at told
    rw [graph n told]
    exact backed.kept n told

theorem arrive_underway (backed : Backed (w, g)) (arrived : TaskEvents.arrive w d = some world) :
    Underway world (g.arrived d) d (body d) := by
  have number (mine : d.handler ∈ d.role.number) : g.stage d.handler = .outside := by
    obtain ⟨-, -, number⟩ := arrive_number arrived mine
    exact backed.fresh d.handler number.ge
  obtain ⟨task, handler, again⟩ := d
  cases task with
  | handleTask retryCount =>
    change (handleTask handler retryCount).Follows stages _
    rw [arrived_request rfl]
    exact handleTask_follows retryCount
  | handleFeedback m delivery => exact ⟨number rfl, handleFeedback_emits m delivery⟩
  | runGraph run graph => contradiction
  | runFeedbackGraph run graph => contradiction
  | _ => trivial

/-- A thread that is there knows what it knew. -/
theorem Underway.arrive {t : Desc} {q : TaskEvents.Task Unit} (underway : Underway w g t q)
    (bound : t.role.bound w) (sound : Sound w) (arrived : TaskEvents.arrive w d = some world) :
    Underway world (g.arrived d) t q := by
  have arrives := arrive_arrives sound arrived
  obtain ⟨results, stopped, -⟩ := arrived_ledger (g := g) (d := d)
  have stage (mine : t.handler ∈ t.role.number) :
      (g.arrived d).stage t.handler = g.stage t.handler := by
    refine arrived_stage fun request same => ?_
    obtain ⟨-, -, number⟩ := arrive_number arrived (request_number request)
    exact absurd (bound.number mine) (by omega)
  obtain ⟨task, handler, again⟩ := t
  cases task with
  | handleTask retryCount =>
    change q.Follows stages _
    rw [stage rfl]
    exact underway
  | runGraph run graph =>
    obtain ⟨inside, telling, ⟨unsettled, told, going⟩, follows⟩ := underway
    refine ⟨(stage rfl).symm ▸ inside, telling, ⟨fun opened run result => ?_, ?_, ?_⟩, follows⟩
    · rw [arrives.results, arrives.graphs]
      exact unsettled opened run result
    · rw [results]
      exact told
    · rw [stopped]
      exact going
  | handleFeedback m delivery => exact ⟨(stage rfl).trans underway.1, underway.2⟩
  | runFeedbackGraph run graph => exact (stage rfl).trans underway
  | _ => trivial

theorem Underway.recorded {recorder : Recorder} {q : TaskEvents.Task Unit}
    (underway : Underway w g d q) : Underway { w with recorder := recorder } g d q := by
  obtain ⟨task, handler, again⟩ := d
  cases task with
  | runGraph run graph =>
    obtain ⟨inside, telling, knowing, follows⟩ := underway
    exact ⟨inside, telling, ⟨knowing.unsettled, knowing.told, knowing.stopped⟩, follows⟩
  | _ => exact underway

end Arrivals

/-- Along a run in time each handler is at the stage that is noted for it, and what its graph
has reported agrees with it. -/
def reporting : Threads.Outline watched InTime where
  inv w := Sound w.1 ∧ Backed w
  ok := Knows
  apart := Apart
  own {w c d e k w' r forks} inv knows inTime performed := by
    obtain ⟨sound, backed⟩ := inv
    obtain ⟨k', rfl, rest, track, underway⟩ := knows.inv
    obtain ⟨taken, noted⟩ := Threads.watched_performed performed
    obtain ⟨world, ledger⟩ := w'
    obtain rfl : ledger = w.2.after w.1 e.1 e.2 r := noted
    obtain ⟨sound', track', started⟩ := progress.own sound track trivial taken
    refine ⟨⟨sound', backed.step underway sound track inTime taken⟩,
      ⟨k' r, rest r, track', underway.step backed sound track taken⟩, fun f forked => ?_⟩
    exact ⟨body f, rfl, started f forked,
      (forks_underway backed underway sound track taken f forked).2.2⟩
  stable {w c d e k w' r forks t} inv knows _ performed other apart := by
    obtain ⟨sound, backed⟩ := inv
    obtain ⟨k', rfl, -, track, underway⟩ := knows.inv
    obtain ⟨taken, noted⟩ := Threads.watched_performed performed
    obtain ⟨world, ledger⟩ := w'
    obtain rfl : ledger = w.2.after w.1 e.1 e.2 r := noted
    obtain ⟨q, rest, others, knowing⟩ := other
    have frame := knowing.frame sound track underway taken apart.1
    obtain ⟨-, p, -, allowed, -⟩ := track
    exact ⟨q, rest, others.grows (perform_grows allowed taken), frame⟩
  fork_apart {w c d e k w' r forks} inv knows performed := by
    obtain ⟨sound, backed⟩ := inv
    obtain ⟨k', rfl, -, track, underway⟩ := knows.inv
    obtain ⟨taken, -⟩ := Threads.watched_performed performed
    have started := forks_underway backed underway sound track taken
    refine ⟨fun t other f forked => ?_, ?_⟩
    · obtain ⟨request, absent, -⟩ := started f forked
      obtain ⟨q, -, ⟨bound, -⟩, -⟩ := other
      have graph (old : isGraph t.desc = true) (new : isGraph f = true) :
          t.desc.handler ≠ f.handler := by
        exact fun same => absent new (same ▸ graph_started old bound)
      have handler (new : isRequest f = true) : False := by simp [request] at new
      exact ⟨⟨fun _ new => (handler new).elim, graph⟩,
        ⟨fun new => (handler new).elim, fun new old => (graph old new).symm⟩⟩
    · rcases forks_single taken with rfl | ⟨f, rfl⟩
      · exact .nil
      · exact List.pairwise_singleton _ f
  arrive {w d w'} inv arrived := by
    obtain ⟨sound, backed⟩ := inv
    obtain ⟨taken, noted⟩ := Threads.watched_arrived arrived
    obtain ⟨world, ledger⟩ := w'
    obtain rfl : ledger = w.2.arrived d := noted
    have arrives := arrive_arrives sound taken
    refine ⟨⟨arrives.sound sound, backed.arrive sound taken⟩,
      ⟨body d, rfl, arrive_onTrack sound taken, arrive_underway backed taken⟩, fun t knows => ?_⟩
    obtain ⟨q, rest, track, underway⟩ := knows
    have handler (old : isRequest t.desc = true) (new : isRequest d = true) :
        t.desc.handler ≠ d.handler := by
      obtain ⟨-, -, number⟩ := arrive_number taken (request_number new)
      have known := track.1.number (request_number old)
      omega
    have graph (new : isGraph d = true) : False := by
      obtain ⟨-, run, role⟩ := graph_role new
      obtain ⟨other, -⟩ := arrive_number (n := d.handler) taken (role ▸ rfl)
      rw [role] at other
      contradiction
    exact ⟨⟨q, rest, track.grows arrives.grows, underway.arrive track.1 sound taken⟩,
      ⟨handler, fun _ new => (graph new).elim⟩,
      ⟨fun new old => (handler old new).symm, fun new => (graph new).elim⟩⟩
  ambient {w x w'} inv moved := by
    obtain ⟨sound, backed⟩ := inv
    obtain ⟨taken, noted⟩ := Threads.watched_moved moved
    obtain ⟨world, ledger⟩ := w'
    obtain rfl : ledger = w.2 := noted
    obtain ⟨recorder, recorded, rfl⟩ := Option.map_eq_some_iff.mp taken
    refine ⟨⟨moved_sound sound recorded, ⟨backed.fresh, backed.early, backed.left, backed.graphs,
      backed.results, backed.stopped, backed.held, backed.unfinished, backed.late, backed.kept⟩⟩,
      fun t knows => ?_⟩
    obtain ⟨q, rest, track, underway⟩ := knows
    exact ⟨q, rest, track.grows moved_grows, underway.recorded⟩

theorem start_reporting : reporting.Holds start := by
  have idle : Stage.outside.holding = false ∧ Stage.outside.active = false := by decide
  exact reporting.holds_empty ⟨start_sound, fun _ _ => rfl, nofun, nofun, nofun, nofun, nofun,
    fun _ holding => absurd (idle.1.symm.trans holding) (by decide),
    fun _ works => absurd (idle.2.symm.trans works) (by decide), rfl, nofun⟩

/-- A request's handler ends when it has moved its task or has given up. -/
theorem Knows.ended {w : World × Ledger}
    {t : Thread (Desc × Effect) (fun e => e.2.Answer) Desc} (knows : Knows w t)
    (request : isRequest t.desc = true) (ended : t.rest.ended = true) :
    w.2.stage t.desc.handler = .moved ∨ w.2.stage t.desc.handler = .givenUp := by
  obtain ⟨q, rest, -, underway⟩ := knows
  cases q with
  | ret a => exact (underway_request request).mp underway
  | act e k =>
    rw [rest] at ended
    contradiction

theorem holds_agree {c : Run} (holds : reporting.Holds c) : ResultsAgree c where
  late := holds.world.2.late
  told n moved := holds.world.2.held n (moved ▸ rfl)
  kept := holds.world.2.kept
  ended t member request ended := by
    obtain ⟨-, backed⟩ := holds.world
    constructor
    · intro told
      exact ((holds.threads t member).ended request ended).resolve_right (backed.kept _ told)
    · exact fun moved => backed.held _ (moved ▸ rfl)

/-- Along a run in which a request's graph reports while its handler waits, no wait ends at its
limit after that, and nobody else ends the task of a handler at work, the results that are
published are in every state reached those of the handlers that move the task to SUCCESS. -/
theorem results_agree (events : List (Event Desc Choice Move))
    (inTime : watched.machine.Along (watched.Meets InTime) start events) :
    watched.machine.Along (fun _ _ c => ResultsAgree c) start events :=
  Machine.along_of_invariant reporting.Holds
    (fun _ _ _ holds stepped meets => reporting.step holds stepped meets)
    (fun _ _ _ holds stepped meets => holds_agree (reporting.step holds stepped meets))
    start_reporting inTime

/-- A request is submitted and taken up. -/
def taken : List (Event Desc Choice Move) :=
  [.arrive { task := .submit (.api "t1" "How many orders?" "shop" "") }] ++
    List.replicate 2 (.run 0 {}) ++ [.arrive { task := .handleTask 0 }] ++
    List.replicate 5 (.run 1 {}) ++
    [.run 1 { graph := ⟨[], .ok (⟨some "SELECT 1", .null, [], []⟩, ⟨"", "", "", []⟩)⟩ }]

/-- The graph comes to its end before the wait does. -/
def done : List (Event Desc Choice Move) :=
  taken ++ List.replicate 4 (.run 2 {}) ++ List.replicate 4 (.run 1 {})

theorem results_agree_done :
    (watched.machine.exec start done).any (fun c =>
      c.world.2.results = [0] ∧ c.world.2.stage 0 = .moved) = true ∧
    watched.machine.Along (fun _ _ c => ResultsAgree c) start done :=
  ⟨by decide +kernel, results_agree done (by decide +kernel)⟩

/-- The wait ends at its limit, the task times out, and the graph goes on. -/
def abandoned : List (Event Desc Choice Move) :=
  taken ++ [.run 1 { timedOut := true }] ++ List.replicate 5 (.run 1 {}) ++
    List.replicate 4 (.run 2 {})

/-- The graph stores its result and publishes its success for a task that has timed out. -/
theorem abandoned_succeeds :
    (∃ c, watched.machine.exec start abandoned = some c ∧
      c.world.1.task.doc.map TaskStore.status = some "TIMEOUT" ∧
      c.world.1.task.doc.bind (·.lookup "sql") = some (.str "SELECT 1") ∧
      c.world.1.published = [.success, .timeout, .running] ∧ c.world.2.stage 0 = .givenUp) ∧
    ¬ watched.machine.Along (fun _ _ c => ResultsAgree c) start abandoned := by
  have run : (watched.machine.exec start abandoned).any (fun c =>
      c.world.1.task.doc.map TaskStore.status = some "TIMEOUT" ∧
      c.world.1.task.doc.bind (·.lookup "sql") = some (.str "SELECT 1") ∧
      c.world.1.published = [.success, .timeout, .running] ∧ c.world.2.stage 0 = .givenUp ∧
      c.world.2.late = true) = true := by
    decide +kernel
  obtain ⟨c, ran, final⟩ := (Option.any_eq_true _ _).mp run
  obtain ⟨status, sql, published, gave, late⟩ := of_decide_eq_true final
  refine ⟨⟨c, ran, status, sql, published, gave⟩, fun along => ?_⟩
  have agree : ResultsAgree c := Machine.invariant_along ResultsAgree
    (fun _ _ _ _ _ agrees => agrees) (holds_agree start_reporting) along ran
  exact absurd (late.symm.trans agree.late) (by decide)

end ResultReports
end Nl2SqlAgent

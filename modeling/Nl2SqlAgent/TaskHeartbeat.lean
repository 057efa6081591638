import Nl2SqlAgent.Lib.Watch
import Nl2SqlAgent.OwnerLifetime

/-! The heartbeat of a task against the clock: the threads that write it while a handler is
at work, the life of its key, and the scans that read it. Time is in microseconds and passes
between any two commands. -/
namespace Nl2SqlAgent

open Lib

namespace TaskHeartbeat

open TaskThreads (Message)

def second : Nat := 1000000

/-- `HEARTBEAT_INTERVAL_S`. -/
def heartbeatInterval : Nat := 5

/-- `HEARTBEAT_TTL_S`. -/
def heartbeatTtl : Nat := 30

/-- `HEARTBEAT_STALE_S`, in the store and in the gateway. -/
def heartbeatStale : Nat := 60

/-- `wait` returns when the time has come or the thread is told to stop. -/
inductive Effect where
  | task (e : TaskThreads.Effect)
  | now
  | setHeartbeat (stamp : Nat)
  | getHeartbeat
  | startHeartbeat
  | isSet (thread : Nat)
  | set (thread : Nat)
  | wait (thread : Nat) (moment : Nat)

/-- A heartbeat that is read is a time, or cannot be parsed. -/
def Effect.Answer : Effect → Type
  | .task e => e.Answer
  | .now => Nat
  | .getHeartbeat => Option (Option Nat)
  | .startHeartbeat => Nat
  | .isSet _ => Bool
  | _ => Unit

abbrev Task := Prog Effect Effect.Answer

def ask (e : Effect) : Task e.Answer := Prog.perform e

/-- A part of the code as `TaskThreads` has it. -/
def calls (p : TaskThreads.Task α) : Task α := p.embed .task fun _ r => r

/-- `_heartbeat_loop`, for as many rounds as the run sees of it. -/
def heartbeatLoop (thread : Nat) : Nat → Task Unit
  | 0 => pure ()
  | rounds + 1 => do
    let stopped : Bool ← ask (.isSet thread)
    if stopped then pure ()
    else
      let stamp : Nat ← ask .now
      ask (.setHeartbeat stamp)
      let begun : Nat ← ask .now
      ask (.wait thread (begun + heartbeatInterval * second))
      heartbeatLoop thread rounds

/-- `handle_task` from the wait on. -/
def taskWaited (retryCount : Fin 4) : TaskThreads.Waited → TaskThreads.Task Unit
  | .done (.returned cancelled) =>
    if cancelled then pure () else TaskThreads.taskTransition (.ended "SUCCESS" none)
  | .timedOut => do
    if ← TaskThreads.taskIsCancelled then
      TaskThreads.taskTransition (.ended "CANCELLED" (some "Cancelled during execution"))
      TaskThreads.taskClearCancel
    else
      TaskThreads.taskTransition (.ended "TIMEOUT" (some
        ("Task timed out after " ++ toString (TaskThreads.taskTimeout retryCount) ++ "s")))
  | .done (.raised error) => do
    if ← TaskThreads.taskIsCancelled then
      TaskThreads.taskTransition (.ended "CANCELLED" (some ("Cancelled after error: " ++ error)))
      TaskThreads.taskClearCancel
    else if retryCount < 3 then
      TaskThreads.ask (.publishRequest (retryCount + 1))
      TaskThreads.taskUpdate [] (.retried (retryCount + 1) error)
    else TaskThreads.taskTransition (.ended "FAILED" (some error))

def handleTask (retryCount : Fin 4) : Task Unit := do
  let cancelled : Bool ← calls TaskThreads.taskIsCancelled
  if cancelled then calls (TaskThreads.taskTransition (.ended "CANCELLED" none))
  else
    calls (TaskThreads.taskTransition (.running retryCount))
    let thread : Nat ← ask .startHeartbeat
    let run ← calls (TaskThreads.ask .startGraph)
    let waited ← calls (TaskThreads.ask (.await run))
    calls (taskWaited retryCount waited)
    ask (.set thread)

/-- `handle_feedback` from the wait on. -/
def feedbackWaited (m : Message) : TaskThreads.Waited → TaskThreads.Task Unit
  | .done (.returned cancelled) =>
    if cancelled then pure () else TaskThreads.taskTransition (.ended "SUCCESS" none)
  | .timedOut => TaskThreads.taskTransition
      (.ended "TIMEOUT" (some ("Feedback turn " ++ toString m.turn ++ " timed out")))
  | .done (.raised error) => TaskThreads.taskTransition (.ended "FAILED" (some error))

def handleFeedback (m : Message) (delivery : Nat) : Task Unit := do
  let existing : Option Doc ← calls (TaskThreads.ask (.inspect delivery))
  if TaskThreads.isRunning existing then pure ()
  else
    calls TaskThreads.feedbackTransition
    let thread : Nat ← ask .startHeartbeat
    let run ← calls (TaskThreads.ask (.startFeedbackGraph delivery))
    let waited ← calls (TaskThreads.ask (.await run))
    calls (feedbackWaited m waited)
    ask (.set thread)

def isOlder (staleS stamp now : Nat) : Bool := staleS * second < now - stamp

/-- The reason that `scan_stale_tasks` gives for taking a task to be lost. -/
def lost (staleS now : Nat) : Option (Option Nat) → Option String
  | none => some ("Worker lost (no heartbeat for " ++ toString staleS ++ "s)")
  | some none => some "Worker lost (heartbeat unparseable)"
  | some (some stamp) =>
    if isOlder staleS stamp now then
      some ("Worker lost (heartbeat stale " ++ toString ((now - stamp) / second) ++ "s)")
    else none

/-- What `scan_stale_tasks` does when its cursor returns the task's key. -/
def scanTask (staleS now : Nat) : Task Unit := do
  let state : Option Doc ← calls TaskThreads.taskGet
  if TaskThreads.isRunning state then
    let heartbeat : Option (Option Nat) ← ask .getHeartbeat
    match lost staleS now heartbeat with
    | none => pure ()
    | some reason => calls (TaskThreads.taskTransition (.ended "TIMEOUT" (some reason)))
  else pure ()

def scanTasks (staleS now : Nat) : Nat → Task Unit
  | 0 => pure ()
  | returned + 1 => do
    scanTask staleS now
    scanTasks staleS now returned

def scanStaleTasks (staleS returned : Nat) : Task Unit := do
  let now : Nat ← ask .now
  scanTasks staleS now returned

/-- `TaskStoreService.scanStale`. -/
def scanStale : Task Unit := do
  let state : Option JavaTaskState.TaskState ← calls TaskThreads.gatewayGet
  match state with
  | none => pure ()
  | some s =>
    if s.status = some "RUNNING" then
      let heartbeat : Option (Option Nat) ← ask .getHeartbeat
      match heartbeat with
      | none => ask (.task (.save s .scanStale))
      | some none => ask (.task (.save s .scanStale))
      | some (some stamp) =>
        let now : Nat ← ask .now
        if isOlder heartbeatStale stamp now then ask (.task (.save s .scanStale)) else pure ()
    else pure ()

/-- Scans are numbered, and so are the heartbeat threads. -/
inductive Desc where
  | task (d : TaskThreads.Desc)
  | heartbeat (thread rounds : Nat)
  | scanStaleTasks (scan staleS returned : Nat)
  | scanStale (scan : Nat)

def body : Desc → Task Unit
  | .task (.handleTask retryCount) => handleTask retryCount
  | .task (.handleFeedback m delivery) => handleFeedback m delivery
  | .task d => calls (TaskThreads.body d)
  | .heartbeat thread rounds => heartbeatLoop thread rounds
  | .scanStaleTasks _ staleS returned => scanStaleTasks staleS returned
  | .scanStale _ => scanStale

structure Choice extends TaskThreads.Choice where
  rounds : Nat := 0

/-- The keys with the times at which they expire, and the heartbeat threads that were told
to stop. -/
structure World where
  task : TaskThreads.World
  clock : Nat
  stateUntil : Nat
  cancelUntil : Nat
  heartbeat : Option (Option Nat × Nat)
  threads : Nat
  stopped : List Nat
  scans : Nat
  submitted : Bool

def World.current (w : World) : TaskThreads.World :=
  { w.task with
    doc := if w.clock < w.stateUntil then w.task.doc else none
    cancelled := w.task.cancelled && w.clock < w.cancelUntil }

/-- `task_get_heartbeat`. -/
def World.getHeartbeat (w : World) : Option (Option Nat) :=
  match w.heartbeat with
  | none => none
  | some (value, moment) => if w.clock < moment then some value else none

/-- The keys after a command, with new lives for what it wrote. -/
def World.after (w : World) (task : TaskThreads.World) (e : TaskThreads.Effect) : World :=
  { w with
    task := task
    stateUntil := ((OwnerLifetime.ttl e).map (w.clock + · * second)).getD w.stateUntil
    cancelUntil :=
      match e with
      | .requestCancel => w.clock + OwnerLifetime.cancelTtl * second
      | _ => w.cancelUntil }

def perform (w : World) (c : Choice) : (e : Effect) → Option (World × e.Answer × List Desc)
  | .task e => (TaskThreads.perform w.current c.toChoice e).map fun (task, r, forks) =>
      (w.after task e, r, forks.map .task)
  | .now => some (w, w.clock, [])
  | .setHeartbeat stamp =>
    some ({ w with heartbeat := some (some stamp, w.clock + heartbeatTtl * second) }, (), [])
  | .getHeartbeat => some (w, w.getHeartbeat, [])
  | .startHeartbeat =>
    some ({ w with threads := w.threads + 1 }, w.threads, [.heartbeat w.threads c.rounds])
  | .isSet thread => some (w, decide (thread ∈ w.stopped), [])
  | .set thread => some ({ w with stopped := thread :: w.stopped }, (), [])
  | .wait thread moment =>
    if moment ≤ w.clock ∨ thread ∈ w.stopped then some (w, (), []) else none

def arriveScan (w : World) (scan : Nat) : Option World :=
  if scan = w.scans then some { w with scans := w.scans + 1 } else none

/-- A task is submitted once, since its id is new. -/
def arrive (w : World) : Desc → Option World
  | .task (.submit _) => if w.submitted then none else some { w with submitted := true }
  | .task (.scanStale _) => none
  | .task d => (TaskThreads.arrive w.task d).map fun task => { w with task := task }
  | .heartbeat _ _ => none
  | .scanStaleTasks scan _ _ => arriveScan w scan
  | .scanStale scan => arriveScan w scan

def system : Threads Effect Effect.Answer World Desc Choice Nat where
  body := body
  perform := perform
  arrive := arrive
  ambient w passed := some { w with clock := w.clock + passed }

/-- The program as `TaskThreads` has it. -/
def erase : Task α → TaskThreads.Task α
  | .ret a => .ret a
  | .act (.task e) k => .act e fun r => erase (k r)
  | .act .now k => erase (k Nat.zero)
  | .act (.setHeartbeat _) k => erase (k ())
  | .act .getHeartbeat k => erase (k none)
  | .act .startHeartbeat k => erase (k Nat.zero)
  | .act (.isSet _) k => erase (k true)
  | .act (.set _) k => erase (k ())
  | .act (.wait _ _) k => erase (k ())

theorem erase_calls_bind (p : TaskThreads.Task α) (f : α → Task β) :
    erase (calls p >>= f) = p >>= fun a => erase (f a) := by
  induction p with
  | ret a => rfl
  | act e k ih => exact congrArg (Prog.act e) (funext fun r => ih r)

theorem erase_calls (p : TaskThreads.Task α) : erase (calls p) = p := by
  induction p with
  | ret a => rfl
  | act e k ih => exact congrArg (Prog.act e) (funext fun r => ih r)

theorem erase_started (start : TaskThreads.Effect) (run : start.Answer → Nat)
    (waited : TaskThreads.Waited → TaskThreads.Task Unit) :
    erase (ask .startHeartbeat >>= fun thread : Nat =>
      calls (TaskThreads.ask start) >>= fun r => calls (TaskThreads.ask (.await (run r))) >>=
        fun w => calls (waited w) >>= fun _ => ask (.set thread)) =
      (TaskThreads.ask start >>= fun r => TaskThreads.ask (.await (run r)) >>= waited) := by
  change erase (calls (TaskThreads.ask start) >>= _) = _
  rw [erase_calls_bind]
  refine congrArg _ (funext fun r => ?_)
  rw [erase_calls_bind]
  refine congrArg _ (funext fun w => ?_)
  exact (erase_calls_bind (waited w) _).trans (Prog.bind_ret _)

theorem erase_handleTask (retryCount : Fin 4) :
    erase (handleTask retryCount) = TaskThreads.handleTask retryCount := by
  unfold handleTask TaskThreads.handleTask
  rw [erase_calls_bind]
  refine congrArg _ (funext fun cancelled => ?_)
  cases cancelled with
  | true => exact erase_calls _
  | false =>
    refine (erase_calls_bind _ _).trans (congrArg _ (funext fun _ => ?_))
    apply (erase_started .startGraph id (taskWaited retryCount)).trans
    refine congrArg _ (funext fun run => congrArg _ (funext fun waited => ?_))
    match waited with
    | .done (.returned _) => rfl
    | .timedOut => rfl
    | .done (.raised _) => rfl

theorem erase_handleFeedback (m : Message) (delivery : Nat) :
    erase (handleFeedback m delivery) = TaskThreads.handleFeedback m delivery := by
  refine (erase_calls_bind _ _).trans (congrArg _ (funext fun existing => ?_))
  by_cases running : TaskThreads.isRunning existing = true
  · simp only [running, if_true]
    rfl
  · simp only [running]
    refine (erase_calls_bind _ _).trans (congrArg _ (funext fun _ => ?_))
    apply (erase_started (.startFeedbackGraph delivery) id (feedbackWaited m)).trans
    refine congrArg _ (funext fun run => congrArg _ (funext fun waited => ?_))
    match waited with
    | .done (.returned _) => rfl
    | .timedOut => rfl
    | .done (.raised _) => rfl

/-- What a scan finds, as `TaskThreads` has it. -/
def found (now : Nat) : Option (Option Nat) → TaskThreads.Heartbeat
  | none => .missing
  | some none => .unreadable
  | some (some stamp) =>
    if isOlder heartbeatStale stamp now then .old ((now - stamp) / second) else .fresh

theorem lost_found (now : Nat) (value : Option (Option Nat)) :
    lost heartbeatStale now value = (found now value).lost := by
  match value with
  | none => rfl
  | some none => rfl
  | some (some stamp) =>
    by_cases old : isOlder heartbeatStale stamp now = true
    · simp only [lost, found, old, if_true]
      rfl
    · simp only [lost, found, old]
      rfl

end TaskHeartbeat
end Nl2SqlAgent

import Nl2SqlAgent.TaskThreads

/-! The threads of one task with everything they publish: messages on the request and the
feedback topic, events on the status and the result topic, and the recorder that reads the
events and keeps a row of the task. Without the events they are the threads of
`TaskThreads`. -/
namespace Nl2SqlAgent

open Lib

namespace TaskEvents

open TaskThreads (Submission Message NodeDone GraphRun Context)
open JavaTaskState (TaskState)

/-- The events on the status topic; `success` is on the result topic. -/
inductive EventName where
  | running
  | nodeDone
  | cancelled
  | timeout
  | retrying
  | failed
  | success
  deriving DecidableEq, Repr

/-- A message that makes the worker start a handler. -/
inductive Item where
  | request (retryCount : Fin 4)
  | feedback (m : Message)
  deriving DecidableEq, Repr

/-- What is known of a command where it stands in the code: the handler that it belongs
to, whether it is part of the transition that ends the handler's work, and whether an event
of the same thread follows it in any case. -/
structure Note where
  handler : Option Nat := none
  decides : Bool := false
  announced : Bool := false
  deriving DecidableEq, Repr

/-- The caller may be told of a failure, and the message may have arrived all the same. -/
structure Sent where
  raised : Bool
  arrived : Bool
  deriving DecidableEq, Repr

inductive Effect where
  | task (note : Note) (e : TaskThreads.Effect)
  | send (note : Note) (item : Item)
  | publish (event : EventName)
  | deadLetter
  | markDirty

def Effect.Answer : Effect → Type
  | .task _ e => e.Answer
  | .send _ _ => Sent
  | .publish _ => Sent
  | .deadLetter => Sent
  | .markDirty => Unit

abbrev Task := Prog Effect Effect.Answer

def ask (e : Effect) : Task e.Answer := Prog.perform e

/-- A command of `TaskThreads`; the two that publish a message are sends. -/
def place (note : Note) : TaskThreads.Effect → Effect
  | .publishRequest retryCount => .send note (.request retryCount)
  | .publishFeedback m => .send note (.feedback m)
  | e => .task note e

def placed (note : Note) : (e : TaskThreads.Effect) → (place note e).Answer → e.Answer
  | .publishRequest _, _ => ()
  | .publishFeedback _, sent => Sent.raised sent
  | .create _, r => r
  | .read, r => r
  | .inspect _, r => r
  | .update .., r => r
  | .save .., r => r
  | .requestCancel, r => r
  | .isCancelled, r => r
  | .clearCancel, r => r
  | .heartbeat, r => r
  | .answer _, r => r
  | .startGraph, r => r
  | .startFeedbackGraph _, r => r
  | .await _, r => r
  | .settle .., r => r

/-- A part of the code as `TaskThreads` has it. -/
def calls (note : Note) (p : TaskThreads.Task α) : Task α := p.embed (place note) (placed note)

def publish (event : EventName) : Task Unit := do
  let _ ← ask (.publish event)
  pure ()

/-- A hit of the result cache marks its task, any other submit publishes its request. -/
def submit (submission : Submission) : Task Unit := do
  match submission with
  | .cached .. =>
    calls { announced := true } (TaskThreads.ask (.create submission))
    ask .markDirty
  | _ =>
    calls {} (TaskThreads.ask (.create submission))
    calls {} (TaskThreads.ask (.publishRequest 0))

/-- The graph publishes again after its last update: it has nodes left or does not raise. -/
def goesOn (ending : Except String TaskStore.Write) (steps : List (List NodeDone)) : Bool :=
  ending.toBool || steps.any fun step => !step.isEmpty

/-- The updates for the nodes of one step, each after its event. -/
def stepDone (n : Nat) (more : Bool) : List NodeDone → Task Unit
  | [] => pure ()
  | node :: rest => do
    publish .nodeDone
    calls { handler := some n, announced := more || !rest.isEmpty }
      (TaskThreads.taskUpdate [] node.write)
    stepDone n more rest

def settle (n run : Nat) (result : TaskThreads.Result) : Task Unit :=
  calls { handler := some n } (TaskThreads.ask (.settle run result))

def isCancelled (n : Nat) : Task Bool := calls { handler := some n } TaskThreads.taskIsCancelled

def clearCancel (n : Nat) : Task Unit := calls { handler := some n } TaskThreads.taskClearCancel

/-- The transition that ends the work of a handler. -/
def conclude (n : Nat) (announced : Bool) (status : String) (error : Option String) : Task Unit :=
  calls { handler := some n, decides := true, announced }
    (TaskThreads.taskTransition (.ended status error))

def graphLoop (n run : Nat) (ending : Except String TaskStore.Write) :
    List (List NodeDone) → Task Unit
  | [] =>
    match ending with
    | .error error => settle n run (.raised error)
    | .ok done => do
      calls { handler := some n, announced := true } (TaskThreads.taskUpdate [] done)
      publish .success
      settle n run (.returned false)
  | step :: rest => do
    let cancelled : Bool ← isCancelled n
    if cancelled then
      conclude n true "CANCELLED" none
      publish .cancelled
      clearCancel n
      settle n run (.returned true)
    else
      stepDone n (goesOn ending rest) step
      graphLoop n run ending rest

def runGraph (n run : Nat) (graph : GraphRun Context) : Task Unit :=
  graphLoop n run (graph.ending.map fun (f, c) => .graphDone f.sql f.execResult f.tokenUsage
    f.nodeTimings c.schemaText c.notesText c.fewshotText c.payload) graph.steps

def runFeedbackGraph (n run : Nat) (graph : GraphRun (List Json)) : Task Unit := do
  let _ ← calls { handler := some n } TaskThreads.taskGet
  graphLoop n run (graph.ending.map fun (f, turns) => .feedbackDone f.sql f.execResult f.tokenUsage
    f.nodeTimings turns) graph.steps

def await (n run : Nat) : Task TaskThreads.Waited :=
  calls { handler := some n } (TaskThreads.ask (.await run))

/-- `handle_task` from the wait on. -/
def taskWaited (n : Nat) (retryCount : Fin 4) : TaskThreads.Waited → Task Unit
  | .done (.returned cancelled) =>
    if cancelled then pure () else conclude n false "SUCCESS" none
  | .timedOut => do
    let cancelled : Bool ← isCancelled n
    if cancelled then
      conclude n false "CANCELLED" (some "Cancelled during execution")
      clearCancel n
    else
      conclude n true "TIMEOUT"
        (some ("Task timed out after " ++ toString (TaskThreads.taskTimeout retryCount) ++ "s"))
      publish .timeout
  | .done (.raised error) => do
    let cancelled : Bool ← isCancelled n
    if cancelled then
      conclude n false "CANCELLED" (some ("Cancelled after error: " ++ error))
      clearCancel n
    else if retryCount < 3 then
      calls { handler := some n } (TaskThreads.ask (.publishRequest (retryCount + 1)))
      calls { handler := some n, announced := true }
        (TaskThreads.taskUpdate [] (.retried (retryCount + 1) error))
      publish .retrying
    else
      conclude n true "FAILED" (some error)
      publish .failed
      let _ ← ask .deadLetter
      pure ()

def handleTask (n : Nat) (retryCount : Fin 4) : Task Unit := do
  let cancelled : Bool ← isCancelled n
  if cancelled then conclude n false "CANCELLED" none
  else
    calls { handler := some n, announced := true }
      (TaskThreads.taskTransition (.running retryCount))
    publish .running
    let run ← calls { handler := some n } (TaskThreads.ask .startGraph)
    await n run >>= taskWaited n retryCount

/-- `handle_feedback` from the wait on. -/
def feedbackWaited (n : Nat) (m : Message) : TaskThreads.Waited → Task Unit
  | .done (.returned cancelled) =>
    if cancelled then pure () else conclude n false "SUCCESS" none
  | .timedOut => do
    conclude n true "TIMEOUT" (some ("Feedback turn " ++ toString m.turn ++ " timed out"))
    publish .timeout
  | .done (.raised error) => do
    conclude n true "FAILED" (some error)
    publish .failed

def correct (n : Nat) (m : Message) (delivery : Nat) : Task Unit := do
  calls { handler := some n, announced := true } TaskThreads.feedbackTransition
  publish .running
  let run ← calls { handler := some n } (TaskThreads.ask (.startFeedbackGraph delivery))
  await n run >>= feedbackWaited n m

def handleFeedback (n : Nat) (m : Message) (delivery : Nat) : Task Unit := do
  let existing : Option Doc ← calls { handler := some n } (TaskThreads.ask (.inspect delivery))
  if TaskThreads.isRunning existing then pure () else correct n m delivery

/-- A thread, with the number of the handler that it is or works for; `again` tells a
message that is delivered once more. -/
structure Desc where
  task : TaskThreads.Desc
  handler : Nat := 0
  again : Bool := false

def body (d : Desc) : Task Unit :=
  match d.task with
  | .submit submission => submit submission
  | .handleTask retryCount => handleTask d.handler retryCount
  | .runGraph run graph => runGraph d.handler run graph
  | .handleFeedback m delivery => handleFeedback d.handler m delivery
  | .runFeedbackGraph run graph => runFeedbackGraph d.handler run graph
  | .cancel endpoint => calls {} (TaskThreads.taskCancel endpoint)
  | .scanStale endpoint => calls {} (TaskThreads.scanStale endpoint)
  | .feedback endpoint request => calls {} (TaskThreads.taskFeedback request endpoint)

/-- A message may fail to arrive, reported or not. -/
structure Choice extends TaskThreads.Choice where
  lost : Bool := false

def Choice.sent (c : Choice) : Sent := ⟨c.raised, !c.lost⟩

/-- The messages that arrived on the request and the feedback topic, and those of them
that no handler has taken yet. -/
structure Broker where
  topic : List Item
  unread : List Item

def Broker.after (b : Broker) (c : Choice) : Effect → Broker
  | .send _ item =>
    if c.lost then b else { topic := item :: b.topic, unread := item :: b.unread }
  | _ => b

/-- A message is delivered for the first time, or once more. -/
def Broker.deliver (b : Broker) (again : Bool) (item : Item) : Option Broker :=
  if again then
    if item ∈ b.topic then some b else none
  else if item ∈ b.unread then some { b with unread := b.unread.erase item }
  else none

/-- `TaskEventRecorder`, for one task: the events that have arrived and are not consumed,
the dirty mark, whether the task is in the batch that is being recorded, the state that was
read for its row, and the state that the row was last written from. `evented` tells that an
event has arrived at all, which the code does not keep. -/
structure Recorder where
  events : Nat
  dirty : Bool
  batch : Bool
  read : Option TaskState
  row : Option TaskState
  evented : Bool

def Recorder.after (r : Recorder) (c : Choice) : Effect → Recorder
  | .publish _ => if c.lost then r else { r with events := r.events + 1, evented := true }
  | .markDirty => { r with dirty := true }
  | _ => r

/-- The steps of the recorder: `onEvent` for a new event and for one that is delivered once
more, `drainBatch`, and `record` in its read of the state and its write of the row. -/
inductive Move where
  | consume
  | redeliver
  | drain
  | read
  | upsert
  deriving DecidableEq, Repr

def Recorder.move (r : Recorder) (doc : Option Doc) : Move → Option Recorder
  | .consume => if r.events = 0 then none else some { r with events := r.events - 1, dirty := true }
  | .redeliver => if r.evented then some { r with dirty := true } else none
  | .drain =>
    if r.dirty ∧ r.batch = false ∧ r.read.isNone then some { r with dirty := false, batch := true }
    else none
  | .read =>
    if r.batch then some { r with batch := false, read := doc.bind JavaTaskState.decode } else none
  | .upsert =>
    match r.read with
    | some s => some { r with read := none, row := some s }
    | none => none

/-- Beside what the code keeps: the events that were published, the handlers that started
the graphs, the handlers that have still to end the task's work, and whether a submit has
stored the task and not yet published its request. -/
structure World where
  task : TaskThreads.World
  broker : Broker
  recorder : Recorder
  submitted : Bool
  handlers : Nat
  published : List EventName
  graphs : List Nat
  inCharge : List Nat
  submitting : Bool

/-- The status of a stored task is a final one. -/
def isOver : Option Doc → Bool
  | some d => TaskThreads.isOver (TaskStore.status d)
  | none => false

/-- A handler's part ends when the transition that is to end it finds the task over or
writes, when its request is published again, and when it leaves a running task alone. -/
def chargeAfter (w : World) : Effect → List Nat
  | .task note (.inspect _) =>
    if TaskThreads.isRunning w.task.doc then w.inCharge.filter fun n => some n ≠ note.handler
    else w.inCharge
  | .task note .read =>
    if note.decides ∧ isOver w.task.doc then w.inCharge.filter fun n => some n ≠ note.handler
    else w.inCharge
  | .task note (.update ..) =>
    if note.decides then w.inCharge.filter fun n => some n ≠ note.handler else w.inCharge
  | .send note (.request _) => w.inCharge.filter fun n => some n ≠ note.handler
  | _ => w.inCharge

def submittingAfter (submitting : Bool) : Effect → Bool
  | .task _ (.create (.cached ..)) => submitting
  | .task _ (.create _) => true
  | .send note (.request _) => submitting && note.handler.isSome
  | _ => submitting

def World.after (w : World) (c : Choice) (task : TaskThreads.World) (e : Effect) : World where
  task := task
  broker := w.broker.after c e
  recorder := w.recorder.after c e
  submitted := w.submitted
  handlers := w.handlers
  published :=
    match e with
    | .publish event => event :: w.published
    | _ => w.published
  graphs :=
    match e with
    | .task note .startGraph => w.graphs ++ [note.handler.getD 0]
    | .task note (.startFeedbackGraph _) => w.graphs ++ [note.handler.getD 0]
    | _ => w.graphs
  inCharge := chargeAfter w e
  submitting := submittingAfter w.submitting e

def Item.effect : Item → TaskThreads.Effect
  | .request retryCount => .publishRequest retryCount
  | .feedback m => .publishFeedback m

def perform (w : World) (c : Choice) : (e : Effect) → Option (World × e.Answer × List Desc)
  | .task note e =>
    (TaskThreads.perform w.task c.toChoice e).map fun (task, r, forks) =>
      (w.after c task (.task note e), r,
        forks.map fun d => { task := d, handler := note.handler.getD 0 })
  | .send note item =>
    some (w.after c (w.task.after c.toChoice item.effect) (.send note item), c.sent, [])
  | .publish event => some (w.after c w.task (.publish event), c.sent, [])
  | .deadLetter => some (w.after c w.task .deadLetter, c.sent, [])
  | .markDirty => some (w.after c w.task .markDirty, (), [])

/-- A handler begins with the delivery of its message. -/
def arriveHandler (w : World) (d : Desc) (item : Item) : Option World :=
  if d.handler = w.handlers then
    (w.broker.deliver d.again item).bind fun broker =>
      (TaskThreads.arrive w.task d.task).map fun task =>
        { w with
          task := task
          broker := broker
          handlers := w.handlers + 1
          inCharge := d.handler :: w.inCharge }
  else none

def arrive (w : World) (d : Desc) : Option World :=
  match d.task with
  | .submit _ => if w.submitted then none else some { w with submitted := true }
  | .handleTask retryCount => arriveHandler w d (.request retryCount)
  | .handleFeedback m _ => arriveHandler w d (.feedback m)
  | task => (TaskThreads.arrive w.task task).map fun task => { w with task := task }

def system : Threads Effect Effect.Answer World Desc Choice Move where
  body := body
  perform := perform
  arrive := arrive
  ambient w move :=
    (w.recorder.move w.task.doc move).map fun recorder => { w with recorder := recorder }

def start : Config Effect Effect.Answer World Desc :=
  ⟨⟨TaskThreads.start.world, ⟨[], []⟩, ⟨0, false, false, none, none, false⟩, false, 0, [], [],
    [], false⟩, []⟩

/-- The program as `TaskThreads` has it. -/
def erase : Task α → TaskThreads.Task α
  | .ret a => .ret a
  | .act (.task _ e) k => .act e fun r => erase (k r)
  | .act (.send _ (.request retryCount)) k =>
    .act (.publishRequest retryCount) fun _ => erase (k ⟨false, true⟩)
  | .act (.send _ (.feedback m)) k => .act (.publishFeedback m) fun raised => erase (k ⟨raised, true⟩)
  | .act (.publish _) k => erase (k ⟨false, true⟩)
  | .act .deadLetter k => erase (k ⟨false, true⟩)
  | .act .markDirty k => erase (k ())

theorem erase_bind (p : Task α) (f : α → Task β) :
    erase (p >>= f) = erase p >>= fun a => erase (f a) := by
  induction p with
  | ret a => rfl
  | act e k ih =>
    cases e with
    | task note e => exact congrArg (Prog.act e) (funext fun r => ih r)
    | send note item =>
      cases item with
      | request retryCount => exact congrArg (Prog.act _) (funext fun _ => ih ⟨false, true⟩)
      | feedback m => exact congrArg (Prog.act _) (funext fun raised => ih ⟨raised, true⟩)
    | publish event => exact ih ⟨false, true⟩
    | deadLetter => exact ih ⟨false, true⟩
    | markDirty => exact ih ()

theorem erase_calls (note : Note) (p : TaskThreads.Task α) : erase (calls note p) = p := by
  induction p with
  | ret a => rfl
  | act e k ih => cases e <;> exact congrArg (Prog.act _) (funext fun r => ih r)

@[simp] theorem erase_publish (event : EventName) : erase (publish event) = .ret () := rfl

@[simp] theorem erase_await (n run : Nat) : erase (await n run) = TaskThreads.ask (.await run) :=
  erase_calls _ _

@[simp] theorem erase_isCancelled (n : Nat) : erase (isCancelled n) = TaskThreads.taskIsCancelled :=
  erase_calls _ _

@[simp] theorem erase_clearCancel (n : Nat) : erase (clearCancel n) = TaskThreads.taskClearCancel :=
  erase_calls _ _

@[simp] theorem erase_settle (n run : Nat) (result : TaskThreads.Result) :
    erase (settle n run result) = TaskThreads.ask (.settle run result) := erase_calls _ _

@[simp] theorem erase_conclude (n : Nat) (announced : Bool) (status : String)
    (error : Option String) :
    erase (conclude n announced status error) = TaskThreads.taskTransition (.ended status error) :=
  erase_calls _ _

theorem erase_stepDone (n : Nat) (more : Bool) (nodes : List NodeDone) :
    erase (stepDone n more nodes) = TaskThreads.stepDone nodes := by
  induction nodes with
  | nil => rfl
  | cons node rest ih =>
    simp only [stepDone, TaskThreads.stepDone, erase_publish, erase_bind, erase_calls, ih,
      Prog.ret_bind]

theorem erase_graphLoop (n run : Nat) (ending : Except String TaskStore.Write)
    (steps : List (List NodeDone)) :
    erase (graphLoop n run ending steps) = TaskThreads.graphLoop run ending steps := by
  induction steps with
  | nil =>
    cases ending with
    | error error => exact erase_settle n run _
    | ok done =>
      simp only [graphLoop, TaskThreads.graphLoop, erase_bind, erase_calls, erase_settle]
      rfl
  | cons step rest ih =>
    simp only [graphLoop, TaskThreads.graphLoop, erase_bind, erase_isCancelled]
    congr 1
    funext cancelled
    cases cancelled with
    | false =>
      change erase (stepDone n _ step >>= fun _ => graphLoop n run ending rest) = _
      rw [erase_bind, erase_stepDone, ih]
      rfl
    | true =>
      change erase (conclude n true "CANCELLED" none >>= fun _ => _) = _
      simp only [erase_bind, erase_conclude, erase_publish, erase_clearCancel, erase_settle,
        Prog.ret_bind]
      rfl

/-- Where the code asks for the cancel flag after a wait. -/
theorem erase_flagged (n : Nat) (p q : Task Unit) :
    erase (isCancelled n >>= fun cancelled : Bool => if cancelled then p else q) =
      TaskThreads.taskIsCancelled >>= fun cancelled : Bool =>
        if cancelled then erase p else erase q := by
  rw [erase_bind, erase_isCancelled]
  refine congrArg _ (funext fun cancelled => ?_)
  cases cancelled <;> rfl

/-- A transition and the event that tells of it. -/
theorem erase_concluded (n : Nat) (status : String) (error : Option String) (event : EventName) :
    erase (conclude n true status error >>= fun _ => publish event) =
      TaskThreads.taskTransition (.ended status error) := by
  rw [erase_bind, erase_conclude]
  exact Prog.bind_ret _

theorem erase_taskWaited (n : Nat) (retryCount : Fin 4) (error : String) :
    erase (taskWaited n retryCount (.done (.raised error))) =
      TaskThreads.taskIsCancelled >>= fun cancelled : Bool =>
        if cancelled then
          TaskThreads.taskTransition (.ended "CANCELLED" (some ("Cancelled after error: " ++ error)))
            >>= fun _ => TaskThreads.taskClearCancel
        else if retryCount < 3 then
          TaskThreads.ask (.publishRequest (retryCount + 1)) >>= fun _ =>
            TaskThreads.taskUpdate [] (.retried (retryCount + 1) error)
        else TaskThreads.taskTransition (.ended "FAILED" (some error)) := by
  refine (erase_flagged n _ _).trans (congrArg _ (funext fun cancelled => ?_))
  cases cancelled with
  | true =>
    simp only [if_true, erase_bind, erase_conclude, erase_clearCancel]
  | false =>
    simp only [Bool.false_eq_true, if_false]
    by_cases again : retryCount < 3
    · rw [if_pos again, if_pos again]
      simp only [erase_bind, erase_calls]
      exact congrArg _ (funext fun _ => Prog.bind_ret _)
    · rw [if_neg again, if_neg again]
      simp only [erase_bind, erase_conclude]
      exact Prog.bind_ret _

theorem erase_handleTask (n : Nat) (retryCount : Fin 4) :
    erase (handleTask n retryCount) = TaskThreads.handleTask retryCount := by
  refine (erase_flagged n _ _).trans (congrArg _ (funext fun cancelled => ?_))
  cases cancelled with
  | true => exact erase_conclude n false "CANCELLED" none
  | false =>
    simp only [Bool.false_eq_true, if_false, erase_bind, erase_calls]
    refine congrArg _ (funext fun _ => ?_)
    change Prog.act TaskThreads.Effect.startGraph _ = Prog.act TaskThreads.Effect.startGraph _
    refine congrArg _ (funext fun run => ?_)
    change Prog.act (TaskThreads.Effect.await run) _ = Prog.act (TaskThreads.Effect.await run) _
    refine congrArg _ (funext fun waited => ?_)
    cases waited with
    | timedOut =>
      refine (erase_flagged n _ _).trans (congrArg _ (funext fun cancelled => ?_))
      cases cancelled with
      | true => simp only [if_true, erase_bind, erase_conclude, erase_clearCancel]
      | false => exact erase_concluded n _ _ _
    | done result =>
      cases result with
      | returned cancelled =>
        cases cancelled with
        | true => rfl
        | false => exact erase_conclude n _ _ _
      | raised error => exact erase_taskWaited n retryCount error

theorem erase_handleFeedback (n : Nat) (m : Message) (delivery : Nat) :
    erase (handleFeedback n m delivery) = TaskThreads.handleFeedback m delivery := by
  change Prog.act (TaskThreads.Effect.inspect delivery) _ =
    Prog.act (TaskThreads.Effect.inspect delivery) _
  refine congrArg _ (funext fun (existing : Option Doc) => ?_)
  change erase (if TaskThreads.isRunning existing then pure () else correct n m delivery) =
    if TaskThreads.isRunning existing then pure () else TaskThreads.correct m delivery
  by_cases running : TaskThreads.isRunning existing = true
  · rw [if_pos running, if_pos running]
    rfl
  · rw [if_neg running, if_neg running]
    simp only [correct, TaskThreads.correct, erase_bind, erase_calls]
    refine congrArg _ (funext fun _ => ?_)
    change Prog.act (TaskThreads.Effect.startFeedbackGraph delivery) _ =
      Prog.act (TaskThreads.Effect.startFeedbackGraph delivery) _
    refine congrArg _ (funext fun run => ?_)
    change Prog.act (TaskThreads.Effect.await run) _ = Prog.act (TaskThreads.Effect.await run) _
    refine congrArg _ (funext fun waited => ?_)
    cases waited with
    | timedOut => exact erase_concluded n _ _ _
    | done result =>
      cases result with
      | returned cancelled =>
        cases cancelled with
        | true => rfl
        | false => exact erase_conclude n _ _ _
      | raised error => exact erase_concluded n _ _ _

/-- Without their events the threads are those of `TaskThreads`. -/
theorem erase_body (d : Desc) : erase (body d) = TaskThreads.body d.task := by
  obtain ⟨task, n, again⟩ := d
  cases task with
  | submit submission => cases submission <;> rfl
  | cancel endpoint => exact erase_calls _ _
  | scanStale endpoint => exact erase_calls _ _
  | feedback endpoint request => exact erase_calls _ _
  | handleTask retryCount => exact erase_handleTask n retryCount
  | runGraph run graph => exact erase_graphLoop n run _ _
  | handleFeedback m delivery => exact erase_handleFeedback n m delivery
  | runFeedbackGraph run graph =>
    simp only [body, runFeedbackGraph, erase_bind, erase_calls, erase_graphLoop]
    rfl

end TaskEvents
end Nl2SqlAgent

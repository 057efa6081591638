import Nl2SqlAgent.Lib.Interleave
import Nl2SqlAgent.JavaTaskState

/-! The threads that read and write the keys of one task: requests to the API and to
the gateway, the worker's handlers and the graph threads they start. An effect is one
command to Redis or the broker, or one call on the executor. Time stamps, heartbeats,
what the graphs compute, how long a wait lasts and what the broker reports are choices;
when and how often a published message is delivered is a choice of the run. -/
namespace Nl2SqlAgent

open Lib

namespace TaskThreads

inductive Endpoint where
  | api
  | gateway
  deriving DecidableEq, Repr

/-- What a submit writes, in the API, in the gateway and there for a cached result. -/
inductive Submission where
  | api (taskId question dbId databaseUrl : String)
  | gateway (taskId question dbId databaseUrl : String)
  | cached (taskId question dbId : String) (sql : Option String) (execResult : Json)
      (tokenUsage nodeTimings : JavaTaskState.Fields)

def Submission.document (now : String) : Submission → Doc
  | .api taskId question dbId databaseUrl =>
    TaskStore.taskCreate taskId question dbId databaseUrl now
  | .gateway taskId question dbId databaseUrl =>
    JavaTaskState.encode (JavaTaskState.create taskId question dbId databaseUrl now)
  | .cached taskId question dbId sql execResult tokenUsage nodeTimings =>
    JavaTaskState.encode
      (JavaTaskState.createFromCache taskId question dbId now sql execResult tokenUsage nodeTimings)

/-- A feedback message, by the request that publishes it and its turn. -/
structure Message where
  request : Nat
  turn : Nat
  deriving DecidableEq, Repr

/-- What one node's progress update holds. -/
structure NodeDone where
  node : String
  percent : Fin 101
  sql : Option String
  tokenUsage : List (String × Json)
  nodeTimings : List (String × Json)

def NodeDone.write (n : NodeDone) : TaskStore.Write :=
  .progress n.node n.percent n.sql n.tokenUsage n.nodeTimings

structure Final where
  sql : Option String
  execResult : Json
  tokenUsage : List (String × Json)
  nodeTimings : List (String × Json)

/-- What `run_graph` keeps for feedback rounds. -/
structure Context where
  schemaText : String
  notesText : String
  fewshotText : String
  payload : List (String × Json)

/-- What a graph yields step by step, and how it ends. -/
structure GraphRun (α : Type) where
  steps : List (List NodeDone)
  ending : Except String (Final × α)

/-- How the function a graph thread runs ends; the flag is `_cancelled`. -/
inductive Result where
  | returned (cancelled : Bool)
  | raised (error : String)
  deriving DecidableEq, Repr

/-- What `fut.result(timeout=…)` comes to. -/
inductive Waited where
  | done (result : Result)
  | timedOut
  deriving DecidableEq, Repr

inductive Heartbeat where
  | fresh
  | missing
  | old (seconds : Nat)
  | unreadable
  deriving DecidableEq, Repr

/-- The reason that `scan_stale_tasks` gives. -/
def Heartbeat.lost : Heartbeat → Option String
  | .fresh => none
  | .missing => some "Worker lost (no heartbeat for 60s)"
  | .old seconds => some ("Worker lost (heartbeat stale " ++ toString seconds ++ "s)")
  | .unreadable => some "Worker lost (heartbeat unparseable)"

/-- `update` and `save` also carry what their operation has read: `seen` lists the
statuses, `save` writes the state it decoded. -/
inductive Effect where
  | create (submission : Submission)
  | read
  | inspect (delivery : Nat)
  | update (seen : List String) (basis : Doc) (write : TaskStore.Write)
  | save (state : JavaTaskState.TaskState) (operation : JavaTaskState.Operation)
  | requestCancel
  | isCancelled
  | clearCancel
  | heartbeat
  | publishRequest (retryCount : Fin 4)
  | publishFeedback (m : Message)
  | answer (m : Message)
  | startGraph
  | startFeedbackGraph (delivery : Nat)
  | await (run : Nat)
  | settle (run : Nat) (result : Result)

def Effect.Answer : Effect → Type
  | .read => Option Doc
  | .inspect _ => Option Doc
  | .isCancelled => Bool
  | .heartbeat => Heartbeat
  | .publishFeedback _ => Bool
  | .startGraph => Nat
  | .startFeedbackGraph _ => Nat
  | .await _ => Waited
  | _ => Unit

abbrev Task := Prog Effect Effect.Answer

inductive Desc where
  | submit (submission : Submission)
  | cancel (endpoint : Endpoint)
  | scanStale (endpoint : Endpoint)
  | feedback (endpoint : Endpoint) (request : Nat)
  | handleTask (retryCount : Fin 4)
  | runGraph (run : Nat) (graph : GraphRun Context)
  | handleFeedback (m : Message) (delivery : Nat)
  | runFeedbackGraph (run : Nat) (graph : GraphRun (List Json))

structure Choice where
  now : String := ""
  heartbeat : Heartbeat := .fresh
  raised : Bool := false
  timedOut : Bool := false
  graph : GraphRun Context := ⟨[], .error ""⟩
  feedbackGraph : GraphRun (List Json) := ⟨[], .error ""⟩

/-- The document and the cancel flag, what the broker was given, the graph threads
started and their results. The code keeps none of the last four: the deliveries of
feedback messages, what the handlers' first reads found, the deliveries whose handler
started a graph, and the requests that were answered. -/
structure World where
  doc : Option Doc
  cancelled : Bool
  requests : List (Fin 4)
  feedbacks : List Message
  asked : Nat
  runs : Nat
  results : List (Nat × Result)
  deliveries : List Message
  checks : List (Nat × Bool)
  executions : List Nat
  answered : List Message

/-- `existing and existing.get("status") == "RUNNING"`. -/
def isRunning : Option Doc → Bool
  | none => false
  | some d => TaskStore.status d = "RUNNING"

/-- What an effect leaves. A broker that reports a failure may have taken the message. -/
def World.after (w : World) (c : Choice) : Effect → World
  | .create submission => { w with doc := some (submission.document c.now) }
  | .inspect delivery => { w with checks := (delivery, isRunning w.doc) :: w.checks }
  | .update _ basis write => { w with doc := some (TaskStore.merged c.now basis write.fields) }
  | .save state operation =>
    { w with doc := some (JavaTaskState.encode (JavaTaskState.Operation.saved c.now state operation)) }
  | .requestCancel => { w with cancelled := true }
  | .clearCancel => { w with cancelled := false }
  | .publishRequest retryCount => { w with requests := retryCount :: w.requests }
  | .publishFeedback m => { w with feedbacks := m :: w.feedbacks }
  | .answer m => { w with answered := m :: w.answered }
  | .startGraph => { w with runs := w.runs + 1 }
  | .startFeedbackGraph delivery =>
    { w with runs := w.runs + 1, executions := delivery :: w.executions }
  | .settle run result => { w with results := (run, result) :: w.results }
  | _ => w

/-- The answer and the threads that are started. A new task's id is new, so nothing is
stored under it; a wait ends with the result or at any time. -/
def reply (w : World) (c : Choice) : (e : Effect) → Option (e.Answer × List Desc)
  | .create _ => if w.doc.isNone then some ((), []) else none
  | .read => some (w.doc, [])
  | .inspect _ => some (w.doc, [])
  | .update .. => some ((), [])
  | .save .. => some ((), [])
  | .requestCancel => some ((), [])
  | .isCancelled => some (w.cancelled, [])
  | .clearCancel => some ((), [])
  | .heartbeat => some (c.heartbeat, [])
  | .publishRequest _ => some ((), [])
  | .publishFeedback _ => some (c.raised, [])
  | .answer _ => some ((), [])
  | .startGraph => some (w.runs, [.runGraph w.runs c.graph])
  | .startFeedbackGraph _ => some (w.runs, [.runFeedbackGraph w.runs c.feedbackGraph])
  | .await run =>
    if c.timedOut then some (.timedOut, [])
    else (w.results.lookup run).map fun result => (.done result, [])
  | .settle .. => some ((), [])

theorem reply_await {w : World} {c : Choice} {run : Nat} {waited : Waited} {forks : List Desc}
    (replied : reply w c (.await run) = some (waited, forks)) :
    forks = [] ∧
      (waited = .timedOut ∨ ∃ result, waited = .done result ∧ w.results.lookup run = some result) := by
  by_cases late : c.timedOut = true
  · rw [reply, if_pos late] at replied
    obtain ⟨rfl, rfl⟩ := Prod.mk.inj (Option.some.inj replied)
    exact ⟨rfl, .inl rfl⟩
  · rw [reply, if_neg late] at replied
    obtain ⟨result, found, same⟩ := Option.map_eq_some_iff.mp replied
    obtain ⟨rfl, rfl⟩ := Prod.mk.inj same
    exact ⟨rfl, .inr ⟨result, rfl, found⟩⟩

/-- The graph thread that an effect starts. -/
def World.starts (w : World) (c : Choice) : Effect → List Desc
  | .startGraph => [.runGraph w.runs c.graph]
  | .startFeedbackGraph _ => [.runFeedbackGraph w.runs c.feedbackGraph]
  | _ => []

theorem reply_starts {w : World} {c : Choice} {e : Effect} {r : e.Answer} {forks : List Desc}
    (replied : reply w c e = some (r, forks)) : forks = w.starts c e := by
  cases e with
  | create submission =>
    obtain ⟨-, same⟩ := Option.ite_none_right_eq_some.mp replied
    exact (Prod.mk.inj (Option.some.inj same)).2.symm
  | await run => exact (reply_await replied).1
  | _ => exact (Prod.mk.inj (Option.some.inj replied)).2.symm

def perform (w : World) (c : Choice) (e : Effect) : Option (World × e.Answer × List Desc) :=
  (reply w c e).map fun answer => (w.after c e, answer)

theorem perform_after {w w' : World} {c : Choice} {e : Effect} {r : e.Answer} {forks : List Desc}
    (performed : perform w c e = some (w', r, forks)) :
    w' = w.after c e ∧ reply w c e = some (r, forks) := by
  obtain ⟨⟨r', forks'⟩, replied, same⟩ := Option.map_eq_some_iff.mp performed
  simp only [Prod.mk.injEq] at same
  obtain ⟨rfl, rfl, rfl⟩ := same
  exact ⟨rfl, replied⟩

def arrive (w : World) : Desc → Option World
  | .submit _ => some w
  | .cancel _ => some w
  | .scanStale _ => some w
  | .feedback _ request =>
    if request = w.asked then some { w with asked := w.asked + 1 } else none
  | .handleTask retryCount => if retryCount ∈ w.requests then some w else none
  | .handleFeedback m delivery =>
    if m ∈ w.feedbacks ∧ delivery = w.deliveries.length then
      some { w with deliveries := w.deliveries ++ [m] }
    else none
  | .runGraph _ _ => none
  | .runFeedbackGraph _ _ => none

def ask (e : Effect) : Task e.Answer := Prog.perform e

def taskGet : Task (Option Doc) := ask .read

def taskIsCancelled : Task Bool := ask .isCancelled

def taskClearCancel : Task Unit := ask .clearCancel

/-- `task_update`; `seen` is what the caller has read before. -/
def taskUpdate (seen : List String) (write : TaskStore.Write) : Task Unit := do
  match ← taskGet with
  | none => pure ()
  | some d => ask (.update (seen ++ [TaskStore.status d]) d write)

/-- `task_transition`; the new status is among the fields of the write. -/
def taskTransition (write : TaskStore.Write) : Task Unit := do
  let current ← taskGet
  if TaskStore.validTransition current (write.status.getD "") then
    taskUpdate (current.map TaskStore.status).toList write
  else pure ()

def acceptsFeedback (status : String) : Bool := status = "SUCCESS" ∨ status = "FAILED"

def feedbackTransition : Task Unit := do
  match ← taskGet with
  | none => pure ()
  | some d =>
    if acceptsFeedback (TaskStore.status d) then taskUpdate [TaskStore.status d] .feedbackStarted
    else pure ()

/-- `TaskStoreService.get`: what cannot be read counts as missing. -/
def gatewayGet : Task (Option JavaTaskState.TaskState) := do
  let d ← taskGet
  pure (d.bind JavaTaskState.decode)

def submit (submission : Submission) : Task Unit := do
  ask (.create submission)
  match submission with
  | .cached .. => pure ()
  | _ => ask (.publishRequest 0)

def isOver (status : String) : Bool := status ∈ ["SUCCESS","FAILED","CANCELLED","TIMEOUT"]

def taskCancel : Endpoint → Task Unit
  | .api => do
    match ← taskGet with
    | none => pure ()
    | some d => if isOver (TaskStore.status d) then pure () else ask .requestCancel
  | .gateway => do
    match ← gatewayGet with
    | none => pure ()
    | some s => if s.status.any isOver then pure () else ask .requestCancel

def scanStale : Endpoint → Task Unit
  | .api => do
    match ← taskGet with
    | none => pure ()
    | some d =>
      if TaskStore.status d = "RUNNING" then
        let heartbeat ← ask .heartbeat
        match Heartbeat.lost heartbeat with
        | none => pure ()
        | some reason => taskTransition (.ended "TIMEOUT" (some reason))
      else pure ()
  | .gateway => do
    match ← gatewayGet with
    | none => pure ()
    | some s =>
      if s.status = some "RUNNING" then
        let heartbeat ← ask .heartbeat
        match Heartbeat.lost heartbeat with
        | none => pure ()
        | some _ => ask (.save s .scanStale)
      else pure ()

/-- `len(turns)`, where it does not raise; a task of the gateway has an empty object
for its turns. -/
def turnCount (d : Doc) : Option Nat :=
  match d.lookup "conversation_turns" with
  | none => some 0
  | some (.arr turns) => some turns.length
  | some (.obj turns) => some turns.length
  | some (.str turns) => some turns.length
  | _ => none

/-- The handlers of a feedback request. The API ignores what the broker reports, the
gateway ends with an error when its publisher raises. -/
def taskFeedback (request : Nat) : Endpoint → Task Unit
  | .api => do
    match ← taskGet with
    | none => pure ()
    | some d =>
      if acceptsFeedback (TaskStore.status d) then
        match turnCount d with
        | none => pure ()
        | some turns =>
          if turns + 1 ≤ JavaTaskState.feedbackMaxTurns then
            let _ ← ask (.publishFeedback ⟨request, turns + 1⟩)
            feedbackTransition
            ask (.answer ⟨request, turns + 1⟩)
          else pure ()
      else pure ()
  | .gateway => do
    match ← gatewayGet with
    | none => pure ()
    | some s =>
      if s.status.any acceptsFeedback ∧
          JavaTaskState.turnCount s + 1 ≤ JavaTaskState.feedbackMaxTurns then
        let raised : Bool ← ask (.publishFeedback ⟨request, JavaTaskState.turnCount s + 1⟩)
        if raised then pure ()
        else
          ask (.save s .feedback)
          ask (.answer ⟨request, JavaTaskState.turnCount s + 1⟩)
      else pure ()

def stepDone : List NodeDone → Task Unit
  | [] => pure ()
  | n :: rest => do
    taskUpdate [] n.write
    stepDone rest

/-- The loop over the graph's steps; `done` is the update after the last one. -/
def graphLoop (run : Nat) (ending : Except String TaskStore.Write) : List (List NodeDone) → Task Unit
  | [] =>
    match ending with
    | .error error => ask (.settle run (.raised error))
    | .ok done => do
      taskUpdate [] done
      ask (.settle run (.returned false))
  | step :: rest => do
    if ← taskIsCancelled then
      taskTransition (.ended "CANCELLED" none)
      taskClearCancel
      ask (.settle run (.returned true))
    else
      stepDone step
      graphLoop run ending rest

def runGraph (run : Nat) (graph : GraphRun Context) : Task Unit :=
  graphLoop run (graph.ending.map fun (f, c) => .graphDone f.sql f.execResult f.tokenUsage
    f.nodeTimings c.schemaText c.notesText c.fewshotText c.payload) graph.steps

def runFeedbackGraph (run : Nat) (graph : GraphRun (List Json)) : Task Unit := do
  let _ ← taskGet
  graphLoop run (graph.ending.map fun (f, turns) => .feedbackDone f.sql f.execResult f.tokenUsage
    f.nodeTimings turns) graph.steps

/-- `get_task_timeout`. -/
def taskTimeout (retryCount : Nat) : Nat :=
  match retryCount with
  | 0 => 120
  | 1 => 300
  | _ => 480

/-- `MAX_RETRIES` is 3: the last of the four attempts is not published again. -/
def handleTask (retryCount : Fin 4) : Task Unit := do
  if ← taskIsCancelled then
    taskTransition (.ended "CANCELLED" none)
  else
    taskTransition (.running retryCount)
    let run ← ask .startGraph
    match ← ask (.await run) with
    | .done (.returned cancelled) =>
      if cancelled then pure () else taskTransition (.ended "SUCCESS" none)
    | .timedOut =>
      if ← taskIsCancelled then
        taskTransition (.ended "CANCELLED" (some "Cancelled during execution"))
        taskClearCancel
      else
        taskTransition (.ended "TIMEOUT"
          (some ("Task timed out after " ++ toString (taskTimeout retryCount) ++ "s")))
    | .done (.raised error) =>
      if ← taskIsCancelled then
        taskTransition (.ended "CANCELLED" (some ("Cancelled after error: " ++ error)))
        taskClearCancel
      else if retryCount < 3 then
        ask (.publishRequest (retryCount + 1))
        taskUpdate [] (.retried (retryCount + 1) error)
      else taskTransition (.ended "FAILED" (some error))

/-- What `handle_feedback` does unless the task is running. -/
def correct (m : Message) (delivery : Nat) : Task Unit := do
  feedbackTransition
  let run ← ask (.startFeedbackGraph delivery)
  match ← ask (.await run) with
  | .done (.returned cancelled) =>
    if cancelled then pure () else taskTransition (.ended "SUCCESS" none)
  | .timedOut =>
    taskTransition (.ended "TIMEOUT" (some ("Feedback turn " ++ toString m.turn ++ " timed out")))
  | .done (.raised error) => taskTransition (.ended "FAILED" (some error))

def handleFeedback (m : Message) (delivery : Nat) : Task Unit := do
  let existing ← ask (.inspect delivery)
  if isRunning existing then pure () else correct m delivery

def body : Desc → Task Unit
  | .submit submission => submit submission
  | .cancel endpoint => taskCancel endpoint
  | .scanStale endpoint => scanStale endpoint
  | .feedback endpoint request => taskFeedback request endpoint
  | .handleTask retryCount => handleTask retryCount
  | .runGraph run graph => runGraph run graph
  | .handleFeedback m delivery => handleFeedback m delivery
  | .runFeedbackGraph run graph => runFeedbackGraph run graph

def system : Threads Effect Effect.Answer World Desc Choice Empty where
  body := body
  perform := perform
  arrive := arrive
  ambient _ move := nomatch move

/-- Nothing is stored under the task's id yet. -/
def start : Config Effect Effect.Answer World Desc :=
  ⟨⟨none, false, [], [], 0, 0, [], [], [], [], []⟩, []⟩

section Emits

variable {allowed : Effect → Prop} {write : TaskStore.Write} {next : String}

theorem taskUpdate_emits (seen : List String) (read : allowed .read)
    (update : ∀ basis, allowed (.update (seen ++ [TaskStore.status basis]) basis write)) :
    (taskUpdate seen write).Emits allowed := by
  apply Prog.emits_bind
  · exact Prog.emits_perform _ _ read
  · intro current
    cases current with
    | none => trivial
    | some basis => exact Prog.emits_perform _ _ (update basis)

/-- A transition's update comes after a read of a status that may go over to the new one. -/
theorem taskTransition_emits (status : write.status = some next) (later : next ≠ "PENDING")
    (read : allowed .read)
    (update : ∀ s basis, next ∈ TaskStore.allowed s →
      allowed (.update [s, TaskStore.status basis] basis write)) :
    (taskTransition write).Emits allowed := by
  apply Prog.emits_bind
  · exact Prog.emits_perform _ _ read
  · intro current
    rw [status]
    cases current with
    | none =>
      have refused : TaskStore.validTransition none next = false := decide_eq_false later
      simp [refused]
    | some d =>
      by_cases valid : next ∈ TaskStore.allowed (TaskStore.status d)
      · have taken : TaskStore.validTransition (some d) next = true := decide_eq_true valid
        simp only [Option.getD_some, taken, if_true]
        exact taskUpdate_emits _ read fun basis => update _ basis valid
      · have refused : TaskStore.validTransition (some d) next = false := decide_eq_false valid
        simp [refused]

theorem feedbackTransition_emits (read : allowed .read)
    (update : ∀ s basis, acceptsFeedback s = true →
      allowed (.update [s, TaskStore.status basis] basis .feedbackStarted)) :
    feedbackTransition.Emits allowed := by
  apply Prog.emits_bind
  · exact Prog.emits_perform _ _ read
  · intro current
    cases current with
    | none => trivial
    | some d =>
      by_cases accepts : acceptsFeedback (TaskStore.status d) = true
      · simp only [accepts, if_true]
        exact taskUpdate_emits _ read fun basis => update _ basis accepts
      · simp [accepts]

end Emits

end TaskThreads
end Nl2SqlAgent

import Nl2SqlAgent.TaskLifecycle

/-! The feedback rounds of one task with what their messages carry: a request puts the state
that it has read into its message, and the worker's round writes the history it finds there
back with its own turn. Everything else that happens to the task is as in `TaskThreads`;
what the graphs yield is a choice of theirs. -/
namespace Nl2SqlAgent

open Lib

namespace FeedbackRounds

open TaskThreads (Endpoint Context NodeDone Heartbeat)
open JavaTaskState (TaskState)

/-- A result as the voter reports one: it has no error. -/
structure Verdict where
  result : ExecResult
  clean : Py.truthy result.error = false
  deriving DecidableEq, Repr

/-- An `exec_result`: none, the empty object that the result cache holds for none, or what
the voter has reported. -/
inductive Held where
  | nothing
  | empty
  | result (v : Verdict)
  deriving DecidableEq, Repr

def Held.json : Held → Json
  | .nothing => .null
  | .empty => .obj []
  | .result v => TaskLifecycle.resultJson (some v.result)

/-- A completed round, as the worker appends it to the history. -/
structure Round where
  userFeedback : Option String
  sql : String
  execResult : Held
  timestamp : String
  deriving DecidableEq, Repr

def Round.turn (n : Nat) (r : Round) : Json := .obj [
  ("turn", .int n), ("user_feedback", TaskStore.text r.userFeedback), ("sql", .str r.sql),
  ("exec_result", r.execResult.json), ("timestamp", .str r.timestamp)]

def numbered (rounds : List Round) : List Json := rounds.mapIdx fun i r => r.turn (i + 1)

/-- `d.get(key, initial)`. -/
def get (d : Doc) (key : String) (initial : Json) : Json := (d.lookup key).getD initial

/-- The payload of the API, by the state it has read. -/
def apiPayload (text : Option String) (turns : Nat) (d : Doc) : Doc := Doc.ofFields [
  ("feedback", TaskStore.text text),
  ("turn", .int (turns + 1)),
  ("question", get d "question" (.str "")),
  ("db_id", get d "db_id" (.str "")),
  ("database_url", get d "database_url" (.str "")),
  ("sql", get d "sql" (.str "")),
  ("exec_result", get d "exec_result" .null),
  ("conversation_turns", get d "conversation_turns" (.arr [])),
  ("token_usage", get d "token_usage" (.obj [])),
  ("node_timings", get d "node_timings" (.obj []))]

/-- `TaskState.turns`: anything but a list is no history. -/
def turns (s : TaskState) : List Json :=
  match s.conversationTurns with
  | .arr items => items
  | _ => []

def gatewayPayload (text : Option String) (s : TaskState) : Doc := Doc.ofFields [
  ("feedback", TaskStore.text text),
  ("turn", .int ((turns s).length + 1)),
  ("question", TaskStore.text s.question),
  ("db_id", TaskStore.text s.dbId),
  ("database_url", TaskStore.text s.databaseUrl),
  ("sql", TaskStore.text s.sql),
  ("exec_result", s.execResult),
  ("conversation_turns", .arr (turns s)),
  ("token_usage", JavaTaskState.writeFields s.tokenUsage),
  ("node_timings", JavaTaskState.writeFields s.nodeTimings)]

/-- `list(value)`, where it does not raise. -/
def pyList : Json → Option (List Json)
  | .arr items => some items
  | .obj fields => some (fields.map fun field => .str field.1)
  | .str s => some (s.toList.map fun ch => .str (.singleton ch))
  | _ => none

def history (payload : Doc) : Option (List Json) :=
  pyList (get payload "conversation_turns" (.arr []))

/-- `payload.get("feedback", "")`. -/
def feedback (payload : Doc) : Option String :=
  match get payload "feedback" (.str "") with
  | .str text => some text
  | _ => none

/-- `payload.get("turn", 1)`. -/
def turn (payload : Doc) : Int :=
  match get payload "turn" (.int 1) with
  | .int n => n
  | _ => 1

/-- `TaskFeedbackRequest` has a text of 1 to 2000 characters; the gateway takes any, and none. -/
def accepts (text : Option String) : Endpoint → Bool
  | .api => text.any fun s => 1 ≤ s.length && s.length ≤ 2000
  | .gateway => true

/-- What a graph reports at its end. -/
structure Yield where
  sql : String
  execResult : Held
  tokenUsage : List (String × Json)
  nodeTimings : List (String × Json)

def Yield.final (y : Yield) : TaskThreads.Final :=
  ⟨some y.sql, y.execResult.json, y.tokenUsage, y.nodeTimings⟩

/-- What a graph yields step by step, and how it ends. -/
structure Graph (α : Type) where
  steps : List (List NodeDone)
  ending : Except String (Yield × α)

def Graph.run (g : Graph Context) : TaskThreads.GraphRun Context :=
  ⟨g.steps, g.ending.map fun (y, context) => (y.final, context)⟩

inductive Submission where
  | api (taskId question dbId databaseUrl : String)
  | gateway (taskId question dbId databaseUrl : String)
  | cached (taskId question dbId : String) (sql : Option String) (execResult : Held)
      (tokenUsage nodeTimings : JavaTaskState.Fields)

def Submission.stored : Submission → TaskThreads.Submission
  | .api taskId question dbId databaseUrl => .api taskId question dbId databaseUrl
  | .gateway taskId question dbId databaseUrl => .gateway taskId question dbId databaseUrl
  | .cached taskId question dbId sql execResult tokenUsage nodeTimings =>
    .cached taskId question dbId sql execResult.json tokenUsage nodeTimings

/-- The commands of `TaskThreads`, and those that concern a message or a history: a request
publishes its payload, a handler starts the graph for it, and the graph's last update of
the document it has read completes the round. -/
inductive Effect where
  | task (e : TaskThreads.Effect)
  | publish (payload : Doc)
  | startRound (payload : Doc)
  | complete (basis : Doc) (history : List Json) (round : Round)
      (tokenUsage nodeTimings : List (String × Json))

def Effect.Answer : Effect → Type
  | .task e => e.Answer
  | .publish _ => Bool
  | .startRound _ => Nat
  | .complete .. => Unit

abbrev Task := Prog Effect Effect.Answer

inductive Desc where
  | submit (submission : Submission)
  | cancel (endpoint : Endpoint)
  | scanStale (endpoint : Endpoint)
  | feedback (endpoint : Endpoint) (text : Option String)
  | handleTask (retryCount : Fin 4)
  | runGraph (run : Nat) (graph : Graph Context)
  | handleFeedback (payload : Doc)
  | runFeedbackGraph (run : Nat) (payload : Doc) (graph : Graph String)

/-- A correction's graph comes with the time stamp of its turn. -/
structure Choice where
  now : String := ""
  heartbeat : Heartbeat := .fresh
  raised : Bool := false
  timedOut : Bool := false
  graph : Graph Context := ⟨[], .error ""⟩
  correction : Graph String := ⟨[], .error ""⟩

def Choice.task (c : Choice) : TaskThreads.Choice where
  now := c.now
  heartbeat := c.heartbeat
  raised := c.raised
  timedOut := c.timedOut
  graph := c.graph.run

/-- Beside the world of `TaskThreads`, the payloads that were published, and the rounds that
were completed, in that order, which the code does not keep. -/
structure World where
  task : TaskThreads.World
  payloads : List Doc
  rounds : List Round

/-- The commands that have an effect of their own here. -/
def replaced : TaskThreads.Effect → Bool
  | .publishFeedback _ => true
  | .startFeedbackGraph _ => true
  | .update _ _ (.feedbackDone ..) => true
  | _ => false

def completion (history : List Json) (round : Round)
    (tokenUsage nodeTimings : List (String × Json)) : TaskStore.Write :=
  .feedbackDone (some round.sql) round.execResult.json tokenUsage nodeTimings
    (history ++ [round.turn (history.length + 1)])

def World.after (w : World) (c : Choice) : Effect → World
  | .task e => { w with task := w.task.after c.task e }
  | .publish payload => { w with payloads := payload :: w.payloads }
  | .startRound _ => { w with task := { w.task with runs := w.task.runs + 1 } }
  | .complete basis history round tokenUsage nodeTimings =>
    { w with
      task := { w.task with doc := some (TaskStore.merged c.now basis
        (completion history round tokenUsage nodeTimings).fields) }
      rounds := w.rounds ++ [round] }

def reply (w : World) (c : Choice) : (e : Effect) → Option e.Answer
  | .task e => if replaced e then none else (TaskThreads.reply w.task c.task e).map Prod.fst
  | .publish _ => some c.raised
  | .startRound _ => some w.task.runs
  | .complete .. => some ()

def World.starts (w : World) (c : Choice) : Effect → List Desc
  | .task .startGraph => [.runGraph w.task.runs c.graph]
  | .startRound payload => [.runFeedbackGraph w.task.runs payload c.correction]
  | _ => []

def perform (w : World) (c : Choice) (e : Effect) : Option (World × e.Answer × List Desc) :=
  (reply w c e).map fun r => (w.after c e, r, w.starts c e)

theorem perform_after {w w' : World} {c : Choice} {e : Effect} {r : e.Answer} {forks : List Desc}
    (performed : perform w c e = some (w', r, forks)) :
    w' = w.after c e ∧ reply w c e = some r ∧ forks = w.starts c e := by
  obtain ⟨r', replied, same⟩ := Option.map_eq_some_iff.mp performed
  simp only [Prod.mk.injEq] at same
  obtain ⟨rfl, rfl, rfl⟩ := same
  exact ⟨rfl, replied, rfl⟩

/-- A message is delivered at any time after it was published, and as often as may be. -/
def arrive (w : World) : Desc → Option World
  | .submit _ => some w
  | .cancel _ => some w
  | .scanStale _ => some w
  | .feedback endpoint text => if accepts text endpoint then some w else none
  | .handleTask retryCount => if retryCount ∈ w.task.requests then some w else none
  | .handleFeedback payload => if payload ∈ w.payloads then some w else none
  | .runGraph .. => none
  | .runFeedbackGraph .. => none

def ask (e : Effect) : Task e.Answer := Prog.perform e

/-- A part of the code as `TaskThreads` has it. -/
def calls (p : TaskThreads.Task α) : Task α := p.embed .task fun _ r => r

def taskFeedback (text : Option String) : Endpoint → Task Unit
  | .api => do
    let current : Option Doc ← calls TaskThreads.taskGet
    match current with
    | none => pure ()
    | some d =>
      if TaskThreads.acceptsFeedback (TaskStore.status d) then
        match TaskThreads.turnCount d with
        | none => pure ()
        | some turns =>
          if turns + 1 ≤ JavaTaskState.feedbackMaxTurns then
            let _ ← ask (.publish (apiPayload text turns d))
            calls TaskThreads.feedbackTransition
          else pure ()
      else pure ()
  | .gateway => do
    let current : Option TaskState ← calls TaskThreads.gatewayGet
    match current with
    | none => pure ()
    | some s =>
      if s.status.any TaskThreads.acceptsFeedback ∧
          (turns s).length + 1 ≤ JavaTaskState.feedbackMaxTurns then
        let raised : Bool ← ask (.publish (gatewayPayload text s))
        if raised then pure ()
        else calls (TaskThreads.ask (.save s .feedback))
      else pure ()

def completeRound (history : List Json) (round : Round)
    (tokenUsage nodeTimings : List (String × Json)) : Task Unit := do
  let current : Option Doc ← calls TaskThreads.taskGet
  match current with
  | none => pure ()
  | some d => ask (.complete d history round tokenUsage nodeTimings)

def settle (run : Nat) (result : TaskThreads.Result) : Task Unit :=
  calls (TaskThreads.ask (.settle run result))

/-- The end of the graph, as far as it changes the document. -/
def finishRound (run : Nat) (payload : Doc) : Except String (Yield × String) → Task Unit
  | .error error => settle run (.raised error)
  | .ok (y, timestamp) =>
    match history payload with
    | none => settle run (.raised "TypeError")
    | some earlier => do
      completeRound earlier ⟨feedback payload, y.sql, y.execResult, timestamp⟩ y.tokenUsage
        y.nodeTimings
      settle run (.returned false)

def roundLoop (run : Nat) (payload : Doc) (ending : Except String (Yield × String)) :
    List (List NodeDone) → Task Unit
  | [] => finishRound run payload ending
  | step :: rest => do
    let cancelled : Bool ← calls TaskThreads.taskIsCancelled
    if cancelled then
      calls (TaskThreads.taskTransition (.ended "CANCELLED" none))
      calls TaskThreads.taskClearCancel
      settle run (.returned true)
    else
      calls (TaskThreads.stepDone step)
      roundLoop run payload ending rest

def runFeedbackGraph (run : Nat) (payload : Doc) (graph : Graph String) : Task Unit := do
  let _ ← calls TaskThreads.taskGet
  roundLoop run payload graph.ending graph.steps

/-- `handle_feedback` from the wait on. -/
def feedbackWaited (payload : Doc) : TaskThreads.Waited → Task Unit
  | .done (.returned cancelled) =>
    if cancelled then pure () else calls (TaskThreads.taskTransition (.ended "SUCCESS" none))
  | .timedOut =>
    calls (TaskThreads.taskTransition (.ended "TIMEOUT"
      (some ("Feedback turn " ++ toString (turn payload) ++ " timed out"))))
  | .done (.raised error) => calls (TaskThreads.taskTransition (.ended "FAILED" (some error)))

def correct (payload : Doc) : Task Unit := do
  calls TaskThreads.feedbackTransition
  let run : Nat ← ask (.startRound payload)
  calls (TaskThreads.ask (.await run)) >>= feedbackWaited payload

def handleFeedback (payload : Doc) : Task Unit := do
  let existing : Option Doc ← calls TaskThreads.taskGet
  if TaskThreads.isRunning existing then pure () else correct payload

def body : Desc → Task Unit
  | .submit submission => calls (TaskThreads.submit submission.stored)
  | .cancel endpoint => calls (TaskThreads.taskCancel endpoint)
  | .scanStale endpoint => calls (TaskThreads.scanStale endpoint)
  | .feedback endpoint text => taskFeedback text endpoint
  | .handleTask retryCount => calls (TaskThreads.handleTask retryCount)
  | .runGraph run graph => calls (TaskThreads.runGraph run graph.run)
  | .handleFeedback payload => handleFeedback payload
  | .runFeedbackGraph run payload graph => runFeedbackGraph run payload graph

def system : Threads Effect Effect.Answer World Desc Choice Empty where
  body := body
  perform := perform
  arrive := arrive
  ambient _ move := nomatch move

/-- Nothing is stored under the task's id yet. -/
def start : Config Effect Effect.Answer World Desc := ⟨⟨TaskThreads.start.world, [], []⟩, []⟩

def submitted : List (Event Desc Choice Empty) :=
  [.arrive (.submit (.api "t1" "How many orders?" "shop" "")), .run 0 {}, .run 0 {}]

/-- A submit by the API whose graph is done at once. -/
def answered : List (Event Desc Choice Empty) :=
  submitted ++ [.arrive (.handleTask 0)] ++ List.replicate 4 (.run 1 {}) ++
  [.run 1 { graph :=
    ⟨[], .ok (⟨"SELECT COUNT(*) FROM orders", .nothing, [], []⟩, ⟨"", "", "", []⟩)⟩ }] ++
  List.replicate 3 (.run 2 {}) ++ List.replicate 4 (.run 1 {})

/-- A feedback request that has published its message and makes its transition later. -/
def asks (pid : Nat) (text : String) : List (Event Desc Choice Empty) :=
  [.arrive (.feedback .api (some text)), .run pid {}, .run pid {}]

end FeedbackRounds
end Nl2SqlAgent

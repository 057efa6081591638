import Nl2SqlAgent.GatewaySubmit
import Nl2SqlAgent.Reporting
import Nl2SqlAgent.TaskThreads

/-! Tasks from submit to result: the worker runs the graphs node by node and writes what
they yield, the gateway's recorder copies finished results into the result cache, and
later submits are answered from it. Each message is handled once, a read-modify-write of
the document is one step, and a graph that its handler no longer waits for writes nothing
more. Timings, and JSON texts that nothing reads back, are data of the event; cache keys
are left unhashed. -/
namespace Nl2SqlAgent

open Lib

namespace TaskLifecycle

/-- The fields of a submit that `run_graph` reads back. -/
structure Submission where
  question : String
  dbId : Option String := none
  databaseUrl : Option String := none
  ragSchema : Option Bool := none
  ragDomain : Option Bool := none
  ragK : Option Nat := none
  fewshotEnabled : Option Bool := none
  deriving DecidableEq, Repr

/-- The payload, which is also the initial state of the graph. -/
def payload (s : Submission) : AgentGraph.FullInput where
  question := s.question
  dbId := some (s.dbId.getD "")
  databaseUrl := some (s.databaseUrl.getD "")
  ragSchema := some (s.ragSchema.getD true)
  ragDomain := some (s.ragDomain.getD true)
  ragK := some (s.ragK.getD 8)
  fewshotEnabled := some (s.fewshotEnabled.getD true)

inductive Message where
  | request (submission : Submission) (retryCount : Fin 4)
  | feedback (databaseUrl : Option String) (turn : Nat)
  deriving DecidableEq, Repr

/-- A handler at work, where its graph stands, and whether the graph's last update is
written. -/
structure Job where
  message : Message
  config : AgentGraph.Config
  done : Bool := false

/-- `accepting` counts the feedback requests of the API that have published their message
and not yet made their transition. -/
structure Task where
  doc : Doc
  cancelled : Bool := false
  waiting : List Message := []
  job : Option Job := none
  accepting : Nat := 0

/-- An entry of the result cache. -/
structure Entry where
  sql : String
  execResult : Json
  tokenUsage : List (String × Json)
  nodeTimings : List (String × Json)

structure World where
  tasks : String → Option Task
  qcache : String → Option Entry

/-- What an event brings along: the time stamp, and values that are only stored. -/
structure Stamp where
  now : String := ""
  nodeTimings : List (String × Json) := []
  payload : List (String × Json) := []
  turns : List Json := []

inductive TaskEvent where
  | take (n : Nat) (input : AgentGraph.FeedbackInput)
  | visit (v : AgentGraph.Visit)
  | finish
  | succeed
  | raise (error : String)
  | timeOut
  | cancel
  | feedback (endpoint : TaskThreads.Endpoint)
  | acceptFeedback
  | scanStale (endpoint : TaskThreads.Endpoint) (heartbeat : TaskThreads.Heartbeat)

inductive Event where
  | submit (endpoint : TaskThreads.Endpoint) (id : String) (submission : Submission) (stamp : Stamp)
  | task (id : String) (event : TaskEvent) (stamp : Stamp)
  | record (id : String)

/-- A cell of a row, numbers by their value and everything else by its `str`. -/
def cellJson : Value → Json
  | .null => .null
  | .num q => if q.den = 1 then .int q.num else .float q
  | .other shown => .str shown

def rowsJson (rows : List Row) : Json := .arr (rows.map fun row => .arr (row.map cellJson))

/-- `_sanitize` of the `exec_result` dictionary, as it is stored. -/
def resultJson : Option ExecResult → Json
  | none => .null
  | some r =>
    let data := (r.data.map rowsJson).getD .null
    let columns := (r.columns.map fun names => Json.arr (names.map Json.str)).getD .null
    match r.votedBy with
    | some voter => .obj [("success", .bool r.success), ("error", TaskStore.text r.error),
        ("data", data), ("columns", columns), ("row_count", .int r.rowCount),
        ("_voted_by", .str voter)]
    | none => .obj ([("success", .bool r.success), ("data", data), ("columns", columns),
        ("error", TaskStore.text r.error), ("error_type", TaskStore.text r.errorType),
        ("row_count", .int r.rowCount)] ++ (r.markedSql.map fun sql => ("_sql", Json.str sql)).toList)

def usageJson (s : AgentState) : List (String × Json) :=
  match s.tokenUsage with
  | none => []
  | some u => [("prompt", .int u.prompt), ("completion", .int u.completion), ("total", .int u.total)]

/-- The node's name, and `_node_progress` of it. -/
def nodeProgress : AgentGraph.Node → String × Fin 101
  | .router => ("router", 5)
  | .schemaRetriever => ("schema_retriever", 15)
  | .decomposer => ("decomposer", 25)
  | .fewshotSelector => ("fewshot_selector", 35)
  | .generator => ("generator", 55)
  | .guard => ("guard", 65)
  | .voter => ("voter", 85)
  | .semanticCheck => ("semantic_check", 95)
  | .refiner => ("refiner", 80)
  | .postRefiner => ("_post_refiner", 50)
  | .finish => ("", 50)

/-- `accumulated.get("sql") or accumulated.get("chosen_sql")`; no node writes the latter. -/
def progressSql (s : AgentState) : Option String := if Py.truthy s.sql then s.sql else none

def finalSql (s : AgentState) : String := s.sql.getD ""

/-- A `task_update` that nothing comes between. -/
def update (stamp : Stamp) (d : Doc) (write : TaskStore.Write) : Doc :=
  TaskStore.merged stamp.now d write.fields

def transition (stamp : Stamp) (d : Doc) (write : TaskStore.Write) : Doc :=
  if TaskStore.validTransition (some d) (write.status.getD "") then update stamp d write else d

def feedbackTransition (stamp : Stamp) (d : Doc) : Doc :=
  if TaskThreads.acceptsFeedback (TaskStore.status d) then update stamp d .feedbackStarted else d

/-- `state.get("database_url", "")`. -/
def urlOf (d : Doc) : Option String :=
  match d.lookup "database_url" with
  | none => some ""
  | some (.str url) => some url
  | some _ => none

def progress (stamp : Stamp) (node : AgentGraph.Node) (s : AgentState) : TaskStore.Write :=
  .progress (nodeProgress node).1 (nodeProgress node).2 (progressSql s) (usageJson s) stamp.nodeTimings

def final (stamp : Stamp) (s : AgentState) : Message → TaskStore.Write
  | .request _ _ => .graphDone (some (finalSql s)) (resultJson s.execResult) (usageJson s)
      stamp.nodeTimings (s.schemaText.getD "") (s.notesText.getD "") (s.fewshotText.getD "")
      stamp.payload
  | .feedback _ _ => .feedbackDone (some (finalSql s)) (resultJson s.execResult) (usageJson s)
      stamp.nodeTimings stamp.turns

/-- The beginning of `handle_task` and `handle_feedback`. What a feedback round reads
back from the document, but for the database, is left open. -/
def take (stamp : Stamp) (t : Task) (n : Nat) (input : AgentGraph.FeedbackInput) : Option Task :=
  match t.job, t.waiting[n]? with
  | none, some (.request submission retryCount) =>
    let t := { t with waiting := t.waiting.eraseIdx n }
    if t.cancelled then some { t with doc := transition stamp t.doc (.ended "CANCELLED" none) }
    else some { t with
      doc := transition stamp t.doc (.running retryCount)
      job := some {
        message := .request submission retryCount
        config := AgentGraph.fullStart (payload submission) } }
  | none, some (.feedback databaseUrl turn) =>
    let t := { t with waiting := t.waiting.eraseIdx n }
    if TaskStore.status t.doc = "RUNNING" then some t
    else if input.databaseUrl = databaseUrl then some { t with
      doc := feedbackTransition stamp t.doc
      job := some {
        message := .feedback databaseUrl turn
        config := AgentGraph.feedbackStart input } }
    else none
  | _, _ => none

/-- One node of the graph and the update after it, or the cancellation. -/
def visit (env : Env) (stamp : Stamp) (t : Task) (v : AgentGraph.Visit) : Option Task := do
  let job ← t.job
  let c ← (AgentGraph.machine env).step job.config v
  if t.cancelled then
    some { t with
      doc := transition stamp t.doc (.ended "CANCELLED" none), cancelled := false, job := none }
  else
    some { t with
      doc := update stamp t.doc (progress stamp job.config.node c.state)
      job := some { message := job.message, config := c } }

/-- The graph is at its end: the final update. -/
def finish (stamp : Stamp) (t : Task) : Option Task := do
  let job ← t.job
  if job.config.node = .finish ∧ job.done = false then
    some { t with
      doc := update stamp t.doc (final stamp job.config.state job.message)
      job := some { job with done := true } }
  else none

/-- The handler has got the result. -/
def succeed (stamp : Stamp) (t : Task) : Option Task := do
  let job ← t.job
  if job.done then
    some { t with doc := transition stamp t.doc (.ended "SUCCESS" none), job := none }
  else none

/-- The graph raises: a request is published again while it has retries left. -/
def raise (stamp : Stamp) (t : Task) (error : String) : Option Task := do
  let job ← t.job
  match job.message with
  | .request submission retryCount =>
    if t.cancelled then
      some { t with
        doc := transition stamp t.doc (.ended "CANCELLED" (some ("Cancelled after error: " ++ error)))
        cancelled := false
        job := none }
    else if retryCount < 3 then
      some { t with
        doc := update stamp t.doc (.retried (retryCount + 1) error)
        waiting := t.waiting ++ [.request submission (retryCount + 1)]
        job := none }
    else some { t with doc := transition stamp t.doc (.ended "FAILED" (some error)), job := none }
  | .feedback _ _ =>
    some { t with doc := transition stamp t.doc (.ended "FAILED" (some error)), job := none }

def timeOut (stamp : Stamp) (t : Task) : Option Task := do
  let job ← t.job
  match job.message with
  | .request _ retryCount =>
    if t.cancelled then
      some { t with
        doc := transition stamp t.doc (.ended "CANCELLED" (some "Cancelled during execution"))
        cancelled := false
        job := none }
    else
      some { t with
        doc := transition stamp t.doc (.ended "TIMEOUT" (some ("Task timed out after " ++
          toString (TaskThreads.taskTimeout retryCount) ++ "s")))
        job := none }
  | .feedback _ turn =>
    some { t with
      doc := transition stamp t.doc
        (.ended "TIMEOUT" (some ("Feedback turn " ++ toString turn ++ " timed out")))
      job := none }

/-- A feedback request that passes its checks publishes a message. The gateway saves the
state it has read right away, the API makes its transition later. -/
def feedback (stamp : Stamp) (t : Task) : TaskThreads.Endpoint → Option Task
  | .api => do
    let turns ← TaskThreads.turnCount t.doc
    if TaskThreads.acceptsFeedback (TaskStore.status t.doc) ∧
        turns + 1 ≤ JavaTaskState.feedbackMaxTurns then
      some { t with
        waiting := t.waiting ++ [.feedback (urlOf t.doc) (turns + 1)]
        accepting := t.accepting + 1 }
    else none
  | .gateway => do
    let s ← JavaTaskState.decode t.doc
    let d ← JavaTaskState.Operation.apply stamp.now t.doc .feedback
    some { t with
      doc := d
      waiting := t.waiting ++ [.feedback s.databaseUrl (JavaTaskState.turnCount s + 1)] }

def acceptFeedback (stamp : Stamp) (t : Task) : Option Task :=
  if 0 < t.accepting then
    some { t with doc := feedbackTransition stamp t.doc, accepting := t.accepting - 1 }
  else none

def scanStale (stamp : Stamp) (t : Task) (heartbeat : TaskThreads.Heartbeat) :
    TaskThreads.Endpoint → Option Task
  | .api => do
    let reason ← heartbeat.lost
    if TaskStore.status t.doc = "RUNNING" then
      some { t with doc := transition stamp t.doc (.ended "TIMEOUT" (some reason)) }
    else none
  | .gateway => do
    let _ ← heartbeat.lost
    let d ← JavaTaskState.Operation.apply stamp.now t.doc .scanStale
    some { t with doc := d }

def Task.step (env : Env) (stamp : Stamp) (t : Task) : TaskEvent → Option Task
  | .take n input => take stamp t n input
  | .visit v => visit env stamp t v
  | .finish => finish stamp t
  | .succeed => succeed stamp t
  | .raise error => raise stamp t error
  | .timeOut => timeOut stamp t
  | .cancel =>
    if TaskThreads.isOver (TaskStore.status t.doc) then none else some { t with cancelled := true }
  | .feedback endpoint => feedback stamp t endpoint
  | .acceptFeedback => acceptFeedback stamp t
  | .scanStale endpoint heartbeat => scanStale stamp t heartbeat endpoint

/-- How a handler can end without a success: by which event, with which status and error,
and the cancel flag that it leaves. -/
inductive Stops (env : Env) (t : Task) (job : Job) :
    TaskEvent → String → Option String → Bool → Prop where
  | cancelled (v : AgentGraph.Visit) (c : AgentGraph.Config)
      (stepped : (AgentGraph.machine env).step job.config v = some c) (flag : t.cancelled = true) :
      Stops env t job (.visit v) "CANCELLED" none false
  | cancelledAfter (submission : Submission) (retryCount : Fin 4) (error : String)
      (own : job.message = .request submission retryCount) (flag : t.cancelled = true) :
      Stops env t job (.raise error) "CANCELLED" (some ("Cancelled after error: " ++ error)) false
  | failed (submission : Submission) (retryCount : Fin 4) (error : String)
      (own : job.message = .request submission retryCount) (flag : t.cancelled = false)
      (last : ¬ retryCount < 3) :
      Stops env t job (.raise error) "FAILED" (some error) t.cancelled
  | correctionFailed (databaseUrl : Option String) (turn : Nat) (error : String)
      (own : job.message = .feedback databaseUrl turn) :
      Stops env t job (.raise error) "FAILED" (some error) t.cancelled
  | cancelledDuring (submission : Submission) (retryCount : Fin 4)
      (own : job.message = .request submission retryCount) (flag : t.cancelled = true) :
      Stops env t job .timeOut "CANCELLED" (some "Cancelled during execution") false
  | timedOut (submission : Submission) (retryCount : Fin 4)
      (own : job.message = .request submission retryCount) (flag : t.cancelled = false) :
      Stops env t job .timeOut "TIMEOUT" (some ("Task timed out after " ++
        toString (TaskThreads.taskTimeout retryCount) ++ "s")) t.cancelled
  | correctionTimedOut (databaseUrl : Option String) (turn : Nat)
      (own : job.message = .feedback databaseUrl turn) :
      Stops env t job .timeOut "TIMEOUT"
        (some ("Feedback turn " ++ toString turn ++ " timed out")) t.cancelled

/-- Everything that a step of a task can be. -/
inductive Moves (env : Env) (stamp : Stamp) (t : Task) : TaskEvent → Task → Prop where
  | turnedDown (n : Nat) (input : AgentGraph.FeedbackInput) (submission : Submission)
      (retryCount : Fin 4) (idle : t.job = none)
      (next : t.waiting[n]? = some (.request submission retryCount)) (flag : t.cancelled = true) :
      Moves env stamp t (.take n input) { t with
        waiting := t.waiting.eraseIdx n
        doc := transition stamp t.doc (.ended "CANCELLED" none) }
  | started (n : Nat) (input : AgentGraph.FeedbackInput) (submission : Submission)
      (retryCount : Fin 4) (idle : t.job = none)
      (next : t.waiting[n]? = some (.request submission retryCount)) (flag : t.cancelled = false) :
      Moves env stamp t (.take n input) { t with
        waiting := t.waiting.eraseIdx n
        doc := transition stamp t.doc (.running retryCount)
        job := some ⟨.request submission retryCount, AgentGraph.fullStart (payload submission), false⟩ }
  | skipped (n : Nat) (input : AgentGraph.FeedbackInput) (databaseUrl : Option String) (turn : Nat)
      (idle : t.job = none) (next : t.waiting[n]? = some (.feedback databaseUrl turn))
      (running : TaskStore.status t.doc = "RUNNING") :
      Moves env stamp t (.take n input) { t with waiting := t.waiting.eraseIdx n }
  | correcting (n : Nat) (input : AgentGraph.FeedbackInput) (databaseUrl : Option String)
      (turn : Nat) (idle : t.job = none)
      (next : t.waiting[n]? = some (.feedback databaseUrl turn))
      (rests : TaskStore.status t.doc ≠ "RUNNING") (own : input.databaseUrl = databaseUrl) :
      Moves env stamp t (.take n input) { t with
        waiting := t.waiting.eraseIdx n
        doc := feedbackTransition stamp t.doc
        job := some ⟨.feedback databaseUrl turn, AgentGraph.feedbackStart input, false⟩ }
  | visited (v : AgentGraph.Visit) (job : Job) (c : AgentGraph.Config) (atWork : t.job = some job)
      (stepped : (AgentGraph.machine env).step job.config v = some c) (flag : t.cancelled = false) :
      Moves env stamp t (.visit v) { t with
        doc := update stamp t.doc (progress stamp job.config.node c.state)
        job := some ⟨job.message, c, false⟩ }
  | finished (job : Job) (atWork : t.job = some job) (ended : job.config.node = .finish)
      (first : job.done = false) :
      Moves env stamp t .finish { t with
        doc := update stamp t.doc (final stamp job.config.state job.message)
        job := some { job with done := true } }
  | succeeded (job : Job) (atWork : t.job = some job) (done : job.done = true) :
      Moves env stamp t .succeed
        { t with doc := transition stamp t.doc (.ended "SUCCESS" none), job := none }
  | retried (job : Job) (submission : Submission) (retryCount : Fin 4) (error : String)
      (atWork : t.job = some job) (own : job.message = .request submission retryCount)
      (flag : t.cancelled = false) (left : retryCount < 3) :
      Moves env stamp t (.raise error) { t with
        doc := update stamp t.doc (.retried (retryCount + 1) error)
        waiting := t.waiting ++ [.request submission (retryCount + 1)]
        job := none }
  | stopped (event : TaskEvent) (job : Job) (status : String) (error : Option String) (flag : Bool)
      (atWork : t.job = some job) (stops : Stops env t job event status error flag) :
      Moves env stamp t event { t with
        doc := transition stamp t.doc (.ended status error), cancelled := flag, job := none }
  | flagged (goes : TaskThreads.isOver (TaskStore.status t.doc) = false) :
      Moves env stamp t .cancel { t with cancelled := true }
  | asked (turns : Nat) (counted : TaskThreads.turnCount t.doc = some turns)
      (accepts : TaskThreads.acceptsFeedback (TaskStore.status t.doc) = true)
      (room : turns + 1 ≤ JavaTaskState.feedbackMaxTurns) :
      Moves env stamp t (.feedback .api) { t with
        waiting := t.waiting ++ [.feedback (urlOf t.doc) (turns + 1)]
        accepting := t.accepting + 1 }
  | askedGateway (s : JavaTaskState.TaskState) (d : Doc)
      (decoded : JavaTaskState.decode t.doc = some s)
      (applied : JavaTaskState.Operation.apply stamp.now t.doc .feedback = some d) :
      Moves env stamp t (.feedback .gateway) { t with
        doc := d
        waiting := t.waiting ++ [.feedback s.databaseUrl (JavaTaskState.turnCount s + 1)] }
  | accepted (asked : 0 < t.accepting) :
      Moves env stamp t .acceptFeedback
        { t with doc := feedbackTransition stamp t.doc, accepting := t.accepting - 1 }
  | stale (heartbeat : TaskThreads.Heartbeat) (reason : String) (lost : heartbeat.lost = some reason)
      (running : TaskStore.status t.doc = "RUNNING") :
      Moves env stamp t (.scanStale .api heartbeat)
        { t with doc := transition stamp t.doc (.ended "TIMEOUT" (some reason)) }
  | staleGateway (heartbeat : TaskThreads.Heartbeat) (reason : String) (d : Doc)
      (lost : heartbeat.lost = some reason)
      (applied : JavaTaskState.Operation.apply stamp.now t.doc .scanStale = some d) :
      Moves env stamp t (.scanStale .gateway heartbeat) { t with doc := d }

section Moves

variable {env : Env} {stamp : Stamp} {t t' : Task}

theorem take_moves {n : Nat} {input : AgentGraph.FeedbackInput}
    (taken : take stamp t n input = some t') : Moves env stamp t (.take n input) t' := by
  simp only [take] at taken
  split at taken
  next submission retryCount idle next =>
    split at taken
    next flag =>
      obtain rfl := Option.some.inj taken
      exact .turnedDown n input submission retryCount idle next flag
    next flag =>
      obtain rfl := Option.some.inj taken
      exact .started n input submission retryCount idle next (Bool.eq_false_iff.mpr flag)
  next databaseUrl turn idle next =>
    split at taken
    next running =>
      obtain rfl := Option.some.inj taken
      exact .skipped n input databaseUrl turn idle next running
    next rests =>
      obtain ⟨own, same⟩ := Option.ite_none_right_eq_some.mp taken
      obtain rfl := Option.some.inj same
      exact .correcting n input databaseUrl turn idle next rests own
  next => contradiction

theorem visit_moves {v : AgentGraph.Visit} (visited : visit env stamp t v = some t') :
    Moves env stamp t (.visit v) t' := by
  simp only [visit, Option.bind_eq_bind, Option.bind_eq_some_iff] at visited
  obtain ⟨job, atWork, c, stepped, visited⟩ := visited
  split at visited
  next flag =>
    obtain rfl := Option.some.inj visited
    exact .stopped _ job _ _ _ atWork (.cancelled v c stepped flag)
  next flag =>
    obtain rfl := Option.some.inj visited
    exact .visited v job c atWork stepped (Bool.eq_false_iff.mpr flag)

theorem finish_moves (finished : finish stamp t = some t') : Moves env stamp t .finish t' := by
  simp only [finish, Option.bind_eq_bind, Option.bind_eq_some_iff] at finished
  obtain ⟨job, atWork, finished⟩ := finished
  obtain ⟨⟨ended, first⟩, same⟩ := Option.ite_none_right_eq_some.mp finished
  obtain rfl := Option.some.inj same
  exact .finished job atWork ended first

theorem succeed_moves (succeeded : succeed stamp t = some t') : Moves env stamp t .succeed t' := by
  simp only [succeed, Option.bind_eq_bind, Option.bind_eq_some_iff] at succeeded
  obtain ⟨job, atWork, succeeded⟩ := succeeded
  obtain ⟨done, same⟩ := Option.ite_none_right_eq_some.mp succeeded
  obtain rfl := Option.some.inj same
  exact .succeeded job atWork done

theorem raise_moves {error : String} (raised : raise stamp t error = some t') :
    Moves env stamp t (.raise error) t' := by
  simp only [raise, Option.bind_eq_bind, Option.bind_eq_some_iff] at raised
  obtain ⟨job, atWork, raised⟩ := raised
  split at raised
  next submission retryCount own =>
    split at raised
    next flag =>
      obtain rfl := Option.some.inj raised
      exact .stopped _ job _ _ _ atWork (.cancelledAfter submission retryCount error own flag)
    next flag =>
      have goes := Bool.eq_false_iff.mpr flag
      split at raised
      next left =>
        obtain rfl := Option.some.inj raised
        exact .retried job submission retryCount error atWork own goes left
      next last =>
        obtain rfl := Option.some.inj raised
        exact .stopped _ job _ _ _ atWork (.failed submission retryCount error own goes last)
  next databaseUrl turn own =>
    obtain rfl := Option.some.inj raised
    exact .stopped _ job _ _ _ atWork (.correctionFailed databaseUrl turn error own)

theorem timeOut_moves (ended : timeOut stamp t = some t') : Moves env stamp t .timeOut t' := by
  simp only [timeOut, Option.bind_eq_bind, Option.bind_eq_some_iff] at ended
  obtain ⟨job, atWork, ended⟩ := ended
  split at ended
  next submission retryCount own =>
    split at ended
    next flag =>
      obtain rfl := Option.some.inj ended
      exact .stopped _ job _ _ _ atWork (.cancelledDuring submission retryCount own flag)
    next flag =>
      obtain rfl := Option.some.inj ended
      exact .stopped _ job _ _ _ atWork
        (.timedOut submission retryCount own (Bool.eq_false_iff.mpr flag))
  next databaseUrl turn own =>
    obtain rfl := Option.some.inj ended
    exact .stopped _ job _ _ _ atWork (.correctionTimedOut databaseUrl turn own)

theorem feedback_moves {endpoint : TaskThreads.Endpoint}
    (accepted : feedback stamp t endpoint = some t') : Moves env stamp t (.feedback endpoint) t' := by
  cases endpoint with
  | api =>
    simp only [feedback, Option.bind_eq_bind, Option.bind_eq_some_iff] at accepted
    obtain ⟨turns, counted, accepted⟩ := accepted
    obtain ⟨⟨accepts, room⟩, same⟩ := Option.ite_none_right_eq_some.mp accepted
    obtain rfl := Option.some.inj same
    exact .asked turns counted accepts room
  | gateway =>
    simp only [feedback, Option.bind_eq_bind, Option.bind_eq_some_iff] at accepted
    obtain ⟨s, decoded, d, applied, same⟩ := accepted
    obtain rfl := Option.some.inj same
    exact .askedGateway s d decoded applied

theorem scanStale_moves {endpoint : TaskThreads.Endpoint} {heartbeat : TaskThreads.Heartbeat}
    (scanned : scanStale stamp t heartbeat endpoint = some t') :
    Moves env stamp t (.scanStale endpoint heartbeat) t' := by
  cases endpoint with
  | api =>
    simp only [scanStale, Option.bind_eq_bind, Option.bind_eq_some_iff] at scanned
    obtain ⟨reason, lost, scanned⟩ := scanned
    obtain ⟨running, same⟩ := Option.ite_none_right_eq_some.mp scanned
    obtain rfl := Option.some.inj same
    exact .stale heartbeat reason lost running
  | gateway =>
    simp only [scanStale, Option.bind_eq_bind, Option.bind_eq_some_iff] at scanned
    obtain ⟨reason, lost, d, applied, same⟩ := scanned
    obtain rfl := Option.some.inj same
    exact .staleGateway heartbeat reason d lost applied

theorem step_moves {event : TaskEvent} (stepped : t.step env stamp event = some t') :
    Moves env stamp t event t' := by
  cases event with
  | take n input => exact take_moves stepped
  | visit v => exact visit_moves stepped
  | finish => exact finish_moves stepped
  | succeed => exact succeed_moves stepped
  | raise error => exact raise_moves stepped
  | timeOut => exact timeOut_moves stepped
  | cancel =>
    obtain ⟨goes, same⟩ := Option.ite_none_left_eq_some.mp stepped
    obtain rfl := Option.some.inj same
    exact .flagged (Bool.eq_false_iff.mpr goes)
  | feedback endpoint => exact feedback_moves stepped
  | acceptFeedback =>
    obtain ⟨asked, same⟩ := Option.ite_none_right_eq_some.mp stepped
    obtain rfl := Option.some.inj same
    exact .accepted asked
  | scanStale endpoint heartbeat => exact scanStale_moves stepped

theorem Stops.no_success {job : Job} {event : TaskEvent} {status : String} {error : Option String}
    {flag : Bool} (stops : Stops env t job event status error flag) : status ≠ "SUCCESS" := by
  cases stops <;> decide

end Moves

/-- `ResultCacheService.key`, before hashing. -/
def cacheKey (question dbId : Option String) : String :=
  question.getD "null" ++ "|" ++ dbId.getD ""

/-- A new task. The gateway answers from its cache where it can. -/
def submitted (w : World) (id : String) (s : Submission) (stamp : Stamp) :
    TaskThreads.Endpoint → Task
  | .api =>
    { doc := TaskStore.taskCreate id s.question (s.dbId.getD "") (s.databaseUrl.getD "") stamp.now
      waiting := [.request s 0] }
  | .gateway =>
    match w.qcache (cacheKey (some s.question) s.dbId) with
    | some entry =>
      { doc := JavaTaskState.encode (JavaTaskState.createFromCache id s.question (s.dbId.getD "")
          stamp.now (some entry.sql) entry.execResult (some entry.tokenUsage)
          (some entry.nodeTimings)) }
    | none =>
      { doc := JavaTaskState.encode (JavaTaskState.create id s.question (s.dbId.getD "")
          (s.databaseUrl.getD "") stamp.now)
        waiting := [.request s 0] }

/-- What `TaskEventRecorder.record` puts into the cache, under its key. A missing result
becomes an empty object; the entry cannot be built without usage and timings. -/
def recorded (d : Doc) : Option (String × Entry) := do
  let s ← JavaTaskState.decode d
  let sql ← s.sql
  let tokenUsage ← s.tokenUsage
  let nodeTimings ← s.nodeTimings
  guard (s.status = some "SUCCESS" ∧ GatewaySubmit.isBlank sql = false)
  let execResult := match s.execResult with
    | .null => .obj []
    | result => result
  return (cacheKey s.question s.dbId, ⟨sql, execResult, tokenUsage, nodeTimings⟩)

def World.set (w : World) (id : String) (t : Task) : World :=
  { w with tasks := Function.update w.tasks id (some t) }

def step (env : Env) (w : World) : Event → Option World
  | .submit endpoint id s stamp =>
    if (w.tasks id).isNone then some (w.set id (submitted w id s stamp endpoint)) else none
  | .task id event stamp => do
    let t ← w.tasks id
    let t' ← t.step env stamp event
    some (w.set id t')
  | .record id => do
    let t ← w.tasks id
    let (key, entry) ← recorded t.doc
    some { w with qcache := Function.update w.qcache key (some entry) }

def machine (env : Env) : Machine World Event := ⟨step env⟩

def start : World := ⟨fun _ => none, fun _ => none⟩

end TaskLifecycle
end Nl2SqlAgent

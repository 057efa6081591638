import Nl2SqlAgent.IdempotentReplay
import Nl2SqlAgent.PolicyInterceptor

/-! `TaskController.stream` and `TaskStreamService` of the gateway, any number of streams
beside the submits of the gateway and the API and the writes of the workers. A stream ends
when a command of its own raises. Keys of Redis may expire at any moment. -/
namespace Nl2SqlAgent

open Lib

namespace TaskStream

open JavaTaskState (TaskState)
open GatewaySubmit (Attempt)
open PolicyInterceptor (Policy)

inductive SseEvent where
  | token (text : String)
  | status (status : Option String) (progress : Int) (node sqlPreview : String) (error : Json)
  | nodeDone (node : String)
  | complete (status : Option String) (sql : String) (execResult : Json)
      (tokenUsage nodeTimings : JavaTaskState.Fields) (error : Json)
  | error (text : String)
  | timeout (text : String)

/-- The event tells something of the task. -/
def SseEvent.reveals : SseEvent → Bool
  | .error _ => false
  | .timeout _ => false
  | _ => true

def SseEvent.ends : SseEvent → Bool
  | .complete .. => true
  | .error _ => true
  | _ => false

/-- `EventCursor`, except for its queue of tokens. -/
structure EventCursor where
  lastUpdated : String := ""
  lastNode : String := ""
  notFound : Bool := false
  pendingStatus : Option SseEvent := none
  pendingNode : Option SseEvent := none
  completeEvent : Option SseEvent := none

def statusEvent (s : TaskState) : SseEvent :=
  .status s.status s.progress (s.node.getD "")
    (.ofList (JavaTaskState.utf16Prefix 200 (s.sql.getD "").toList)) s.error

def overEvent (s : TaskState) : SseEvent :=
  .complete s.status (s.sql.getD "") s.execResult s.tokenUsage s.nodeTimings s.error

def isOver (s : TaskState) : Bool :=
  s.status ∈ [some "SUCCESS", some "FAILED", some "TIMEOUT", some "CANCELLED"]

def EventCursor.seen (cursor : EventCursor) (s : TaskState) (updatedAt : String) : EventCursor where
  lastUpdated := updatedAt
  lastNode := s.node.getD cursor.lastNode
  notFound := cursor.notFound
  pendingStatus :=
    if updatedAt = cursor.lastUpdated then cursor.pendingStatus else some (statusEvent s)
  pendingNode :=
    match s.node with
    | none => cursor.pendingNode
    | some node => if node = cursor.lastNode then cursor.pendingNode else some (.nodeDone node)
  completeEvent := if isOver s then some (overEvent s) else cursor.completeEvent

/-- `pollStatus`, which raises on a state without `updated_at`. -/
def pollStatus (read : Option TaskState) (cursor : EventCursor) : Option EventCursor :=
  match read with
  | none => some { cursor with notFound := true }
  | some s => s.updatedAt.map (cursor.seen s)

/-- What `nextEvent` takes from the cursor when there is no token. -/
def EventCursor.take (cursor : EventCursor) : Option SseEvent × EventCursor :=
  if cursor.notFound then (some (.error "Task not found"), cursor)
  else
    match cursor.pendingStatus with
    | some event => (some event, { cursor with pendingStatus := none })
    | none =>
      match cursor.pendingNode with
      | some event => (some event, { cursor with pendingNode := none })
      | none => (cursor.completeEvent, cursor)

/-- What waiting for a token comes to. -/
inductive Waited where
  | token (text : String)
  | nothing
  | interrupted
  deriving DecidableEq, Repr

/-- The commands of one stream; `check` reads the state before the stream is opened. -/
inductive Command where
  | check
  | owner
  | reject (code : Nat) (detail : String)
  | subscribe
  | poll
  | get
  | wait
  | emit (event : SseEvent)
  | close

def Command.Answer : Command → Type
  | .check => Attempt (Option TaskState)
  | .owner => Attempt (Option String)
  | .reject _ _ => Unit
  | .subscribe => Bool
  | .poll => Option String
  | .get => Attempt (Option TaskState)
  | .wait => Waited
  | .emit _ => Bool
  | .close => Unit

abbrev Stream := Prog Command Command.Answer

def ask (e : Command) : Stream e.Answer := Prog.perform e

/-- The event that a wait ends with, from the cursor of a poll that did not raise. -/
def awaited : Option EventCursor → Stream (Option (Option SseEvent × EventCursor))
  | none => pure none
  | some cursor => do
    match ← ask .wait with
    | .token token => pure (some (some (.token token), cursor))
    | .nothing => pure (some cursor.take)
    | .interrupted => pure (some (none, cursor))

/-- `nextEvent`, or `none` when it raises. -/
def nextEvent (cursor : EventCursor) : Stream (Option (Option SseEvent × EventCursor)) := do
  match ← ask .poll with
  | some token => pure (some (some (.token token), cursor))
  | none =>
    match ← ask .get with
    | .raised _ => pure none
    | .done read => awaited (pollStatus read cursor)

def close : Stream Unit := ask .close

/-- What the loop does with an event. -/
def relay (again : EventCursor → Stream Unit) : Option (Option SseEvent × EventCursor) → Stream Unit
  | none => close
  | some (none, cursor) => again cursor
  | some (some event, cursor) => do
    let written : Bool ← ask (.emit event)
    if written then
      if event.ends then close else again cursor
    else close

/-- The loop of `stream`, for the rounds that begin before the deadline. -/
def deliver : Nat → EventCursor → Stream Unit
  | 0, _ => do
    let _ ← ask (.emit (.timeout "Stream timeout (5 min)"))
    close
  | rounds + 1, cursor => nextEvent cursor >>= relay (deliver rounds)

/-- From the subscription on. -/
def opened (rounds : Nat) : Stream Unit := do
  let subscribed : Bool ← ask .subscribe
  if subscribed then deliver rounds {} else pure ()

def refuse : Stream Unit := ask (.reject 403 "not task owner")

def stream (policy : Policy) (rounds : Nat) : Stream Unit := do
  match ← ask .check with
  | .raised _ => pure ()
  | .done none => opened rounds
  | .done (some _) =>
    if policy.isAdmin then opened rounds
    else
      match ← ask .owner with
      | .raised _ => pure ()
      | .done owner => if owner = some policy.userTag then opened rounds else refuse

/-- One request for a stream. -/
structure Connection where
  number : Nat
  taskId : String
  policy : Policy
  rounds : Nat
  deriving DecidableEq, Repr

/-- A command of a worker, or a write of the gateway to a task that it has read. -/
inductive Work where
  | save (taskId : String) (doc : Doc)
  | publishToken (taskId text : String)

inductive Desc where
  | submit (d : IdempotentReplay.Desc)
  | stream (c : Connection)
  | worker (work : List Work)

inductive Effect where
  | submit (e : IdempotentReplay.Effect)
  | stream (c : Connection) (e : Command)
  | work (w : Work)

def Effect.Answer : Effect → Type
  | .submit e => e.Answer
  | .stream _ e => e.Answer
  | .work _ => Unit

structure Choice extends toSubmit : IdempotentReplay.Choice where
  interrupted : Bool := false
  gone : Bool := false

/-- What is delivered is not kept by the code, nor which streams are `unchecked`: let
through because the task was missing, which has not yet been found out again. -/
structure World where
  submits : IdempotentReplay.World
  connections : List Connection
  subscribed : List Connection
  tokens : Connection → List String
  unchecked : List Connection
  delivered : List (Connection × SseEvent)

def World.state (w : World) (taskId : String) : Option TaskState :=
  (w.submits.redis.states.lookup taskId).bind JavaTaskState.decode

def World.owner (w : World) (taskId : String) : Option String :=
  w.submits.redis.owners.lookup taskId

/-- The read command is carried out and finds no task. -/
def World.misses (w : World) (c : Choice) (taskId : String) : Bool :=
  !c.raises && (w.state taskId).isNone

def streamAfter (w : World) (c : Choice) (connection : Connection) : Command → World
  | .check =>
    { w with
      unchecked := if w.misses c connection.taskId then connection :: w.unchecked else w.unchecked }
  | .subscribe =>
    { w with
      subscribed := if c.raises then w.subscribed else connection :: w.subscribed
      unchecked := if c.raises then w.unchecked.filter (· ≠ connection) else w.unchecked }
  | .poll => { w with tokens := Function.update w.tokens connection (w.tokens connection).tail }
  | .get =>
    { w with
      unchecked :=
        if w.misses c connection.taskId then w.unchecked.filter (· ≠ connection) else w.unchecked }
  | .wait =>
    { w with
      tokens :=
        if c.interrupted then w.tokens
        else Function.update w.tokens connection (w.tokens connection).tail }
  | .emit event =>
    { w with delivered := if c.gone then w.delivered else (connection, event) :: w.delivered }
  | .close =>
    { w with
      subscribed := w.subscribed.filter (· ≠ connection)
      unchecked := w.unchecked.filter (· ≠ connection) }
  | _ => w

def streamReply (w : World) (c : Choice) (connection : Connection) : (e : Command) → e.Answer
  | .check => c.attempt (w.state connection.taskId)
  | .owner => c.attempt (w.owner connection.taskId)
  | .reject _ _ => ()
  | .subscribe => !c.raises
  | .poll => (w.tokens connection).head?
  | .get => c.attempt (w.state connection.taskId)
  | .wait =>
    if c.interrupted then .interrupted
    else
      match (w.tokens connection).head? with
      | some token => .token token
      | none => .nothing
  | .emit _ => !c.gone
  | .close => ()

def World.save (w : World) (taskId : String) (doc : Doc) : World :=
  { w with
    submits :=
      { w.submits with
        redis := { w.submits.redis with states := (taskId, doc) :: w.submits.redis.states } } }

def workAfter (w : World) : Work → World
  | .save taskId doc => w.save taskId doc
  | .publishToken taskId text =>
    { w with
      tokens := fun connection =>
        if connection ∈ w.subscribed ∧ connection.taskId = taskId then w.tokens connection ++ [text]
        else w.tokens connection }

def World.after (w : World) (c : Choice) : Effect → World
  | .submit e => { w with submits := w.submits.after c.toSubmit e }
  | .stream connection e => streamAfter w c connection e
  | .work e => workAfter w e

def reply (w : World) (c : Choice) : (e : Effect) → e.Answer
  | .submit e => IdempotentReplay.reply w.submits c.toSubmit e
  | .stream connection e => streamReply w c connection e
  | .work _ => ()

def perform : List Work → Prog Effect Effect.Answer Unit
  | [] => pure ()
  | work :: rest => do
    let _ ← Prog.perform (.work work)
    perform rest

def body (digest : String → String) : Desc → Prog Effect Effect.Answer Unit
  | .submit d => (IdempotentReplay.body digest d).embed .submit fun _ r => r
  | .stream c => (stream c.policy c.rounds).embed (.stream c) fun _ r => r
  | .worker work => perform work

def arrive (w : World) : Desc → Option World
  | .submit d =>
    if d.taskId ∈ w.submits.requests.map IdempotentReplay.Desc.taskId then none
    else some { w with submits := { w.submits with requests := d :: w.submits.requests } }
  | .stream c =>
    if c ∈ w.connections then none else some { w with connections := c :: w.connections }
  | .worker _ => some w

/-- A key that expires. -/
inductive Expiry where
  | idempotent (key : String)
  | state (taskId : String)
  | owner (taskId : String)
  deriving DecidableEq, Repr

def expireRedis (redis : GatewaySubmit.World) : Expiry → GatewaySubmit.World
  | .idempotent key => { redis with keys := redis.keys.filter fun entry => entry.1 ≠ key }
  | .state taskId => { redis with states := redis.states.filter fun entry => entry.1 ≠ taskId }
  | .owner taskId => { redis with owners := redis.owners.filter fun entry => entry.1 ≠ taskId }

def system (digest : String → String) : Threads Effect Effect.Answer World Desc Choice Expiry where
  body := body digest
  perform w c e := some (w.after c e, reply w c e, [])
  arrive := arrive
  ambient w expiry :=
    some { w with submits := { w.submits with redis := expireRedis w.submits.redis expiry } }

def start : Config Effect Effect.Answer World Desc :=
  ⟨⟨⟨⟨[], [], [], [], []⟩, [], []⟩, [], [], fun _ => [], [], []⟩, []⟩

end TaskStream
end Nl2SqlAgent

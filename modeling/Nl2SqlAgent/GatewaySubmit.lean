import Nl2SqlAgent.Lib.Interleave
import Nl2SqlAgent.JavaTaskState

/-! `TaskController.submit` of the gateway, for any number of requests in any order, with
the idempotency keys it takes in Redis. Keys do not expire within a run. A command that
raises may have been carried out or not; the limiter, the quota and the result cache
answer without raising. What they answer, and what raises, are choices. -/
namespace Nl2SqlAgent

open Lib

namespace GatewaySubmit

structure Policy where
  userTag : String
  allowedDbIds : List String
  qpsLimit : Nat
  dailyQuota : Nat
  deriving DecidableEq, Repr

structure SubmitRequest where
  question : Option String
  dbId : Option String
  databaseUrl : Option String
  idempotencyKey : Option String
  deriving DecidableEq, Repr

/-- What is read from a cached result. -/
structure Cached where
  sql : Option String
  execResult : Json
  tokenUsage : JavaTaskState.Fields
  nodeTimings : JavaTaskState.Fields

inductive Attempt (α : Type) where
  | done (a : α)
  | raised (carriedOut : Bool)
  deriving DecidableEq, Repr

inductive Effect where
  | allowGlobal
  | allowUser (userTag : String) (qpsLimit : Nat)
  | idempotentGet (key : String)
  | idempotentTryAcquire (key taskId : String)
  | tryConsume (userTag : String) (dailyQuota : Nat)
  | cacheGet (question : Option String) (dbId : Option String)
  | create (taskId question dbId databaseUrl : String)
  | createFromCache (taskId question dbId : String) (cached : Cached)
  | setOwner (taskId userTag : String)
  | publishSubmitted (taskId : String)
  | accepted (taskId : String)

def Effect.Answer : Effect → Type
  | .allowGlobal => Bool
  | .allowUser _ _ => Bool
  | .idempotentGet _ => Attempt (Option String)
  | .idempotentTryAcquire _ _ => Attempt Bool
  | .tryConsume _ _ => Bool
  | .cacheGet _ _ => Option Cached
  | .create .. => Attempt Unit
  | .createFromCache .. => Attempt Unit
  | .setOwner _ _ => Attempt Unit
  | .publishSubmitted _ => Attempt Unit
  | .accepted _ => Unit

structure Choice where
  now : String := ""
  allowed : Bool := true
  raises : Bool := false
  carriedOut : Bool := false
  cached : Option Cached := none

/-- The keys `idempotent:…`, `task:…` and `taskowner:…`; the ids in use and those that
were returned are not kept by the code. -/
structure World where
  keys : List (String × String)
  states : List (String × Doc)
  owners : List (String × String)
  used : List String
  returned : List String

/-- The outcome of a command that would answer `a`. -/
def Choice.attempt (c : Choice) (a : α) : Attempt α :=
  if c.raises then .raised c.carriedOut else .done a

theorem attempt_raises {c : Choice} {a : α} (raises : c.raises = true) :
    c.attempt a = .raised c.carriedOut := by
  rw [Choice.attempt, if_pos raises]

theorem attempt_done {c : Choice} {a : α} (raises : ¬ c.raises = true) : c.attempt a = .done a := by
  rw [Choice.attempt, if_neg raises]

def Choice.runs (c : Choice) : Bool := !c.raises || c.carriedOut

def World.store (w : World) (taskId : String) (s : JavaTaskState.TaskState) : World :=
  { w with states := (taskId, JavaTaskState.encode s) :: w.states }

def World.after (w : World) (c : Choice) : Effect → World
  | .idempotentTryAcquire key taskId =>
    if c.runs ∧ w.keys.lookup key = none then { w with keys := (key, taskId) :: w.keys } else w
  | .create taskId question dbId databaseUrl =>
    if c.runs then w.store taskId (JavaTaskState.create taskId question dbId databaseUrl c.now) else w
  | .createFromCache taskId question dbId cached =>
    if c.runs then
      w.store taskId (JavaTaskState.createFromCache taskId question dbId c.now cached.sql
        cached.execResult cached.tokenUsage cached.nodeTimings)
    else w
  | .setOwner taskId userTag =>
    if c.runs then { w with owners := (taskId, userTag) :: w.owners } else w
  | .accepted taskId => { w with returned := taskId :: w.returned }
  | _ => w

def reply (w : World) (c : Choice) : (e : Effect) → e.Answer
  | .allowGlobal => c.allowed
  | .allowUser _ _ => c.allowed
  | .idempotentGet key => c.attempt (w.keys.lookup key)
  | .idempotentTryAcquire key _ => c.attempt (w.keys.lookup key).isNone
  | .tryConsume _ _ => c.allowed
  | .cacheGet _ _ => c.cached
  | .create .. => c.attempt ()
  | .createFromCache .. => c.attempt ()
  | .setOwner _ _ => c.attempt ()
  | .publishSubmitted _ => c.attempt ()
  | .accepted _ => ()

abbrev Task := Prog Effect Effect.Answer

def ask (e : Effect) : Task e.Answer := Prog.perform e

/-- A command whose exception ends the request with an error. -/
def orFail (attempt : Task (Attempt α)) (rest : α → Task Unit) : Task Unit := do
  match ← attempt with
  | .raised _ => pure ()
  | .done a => rest a

def dbAllowed (policy : Policy) (dbId : Option String) : Bool :=
  "*" ∈ policy.allowedDbIds ∨ dbId.getD "" = "" ∨ dbId.getD "" ∈ policy.allowedDbIds

/-- `Character.isWhitespace`. -/
def isWhitespace (c : Char) : Bool :=
  c.toNat ∈ [0x20, 0x1680, 0x2028, 0x2029, 0x205F, 0x3000] ∨ (0x9 ≤ c.toNat ∧ c.toNat ≤ 0xD) ∨
    (0x1C ≤ c.toNat ∧ c.toNat ≤ 0x1F) ∨ (0x2000 ≤ c.toNat ∧ c.toNat ≤ 0x200A ∧ c.toNat ≠ 0x2007)

def isBlank (s : String) : Bool := s.toList.all isWhitespace

/-- `TaskIdempotency.key`; `digest` is the hash of the text, in hexadecimal and cut. -/
def idempotencyKey (digest : String → String) (key question : String) : String :=
  digest (key ++ ":" ++ .ofList (JavaTaskState.utf16Prefix 80 question.toList))

/-- From the state of a new task on; a missing question raises when it is stored. -/
def create (taskId : String) (policy : Policy) (req : SubmitRequest) : Task Unit :=
  match req.question with
  | none => pure ()
  | some question =>
    orFail (ask (.create taskId question (req.dbId.getD "") (req.databaseUrl.getD ""))) fun _ =>
    orFail (ask (.setOwner taskId policy.userTag)) fun _ =>
    orFail (ask (.publishSubmitted taskId)) fun _ =>
    ask (.accepted taskId)

/-- From a hit of the result cache on. -/
def createFromCache (taskId : String) (policy : Policy) (req : SubmitRequest) (cached : Cached) :
    Task Unit :=
  match req.question with
  | none => pure ()
  | some question =>
    orFail (ask (.createFromCache taskId question (req.dbId.getD "") cached)) fun _ =>
    orFail (ask (.setOwner taskId policy.userTag)) fun _ =>
    ask (.accepted taskId)

/-- From the daily quota on. -/
def consume (taskId : String) (policy : Policy) (req : SubmitRequest) : Task Unit := do
  let granted : Bool ← ask (.tryConsume policy.userTag policy.dailyQuota)
  if granted then
    match ← ask (.cacheGet req.question req.dbId) with
    | some cached => createFromCache taskId policy req cached
    | none => create taskId policy req
  else pure ()

/-- With an idempotency key: a known one is answered, a new one is taken first. -/
def acquire (taskId : String) (policy : Policy) (req : SubmitRequest) (idemKey : String) : Task Unit :=
  orFail (ask (.idempotentGet idemKey)) fun existing =>
  match existing with
  | some existing => ask (.accepted existing)
  | none =>
    orFail (ask (.idempotentTryAcquire idemKey taskId)) fun acquired =>
    if acquired then consume taskId policy req
    else
      orFail (ask (.idempotentGet idemKey)) fun winner =>
      ask (.accepted (winner.getD taskId))

def submit (digest : String → String) (taskId : String) (policy : Policy) (req : SubmitRequest) :
    Task Unit :=
  if dbAllowed policy req.dbId then do
    let allowed : Bool ← ask .allowGlobal
    if allowed then
      let allowed : Bool ← ask (.allowUser policy.userTag policy.qpsLimit)
      if allowed then
        match req.idempotencyKey with
        | none => consume taskId policy req
        | some key =>
          if isBlank key then consume taskId policy req
          else
            match req.question with
            | none => pure ()
            | some question => acquire taskId policy req (idempotencyKey digest key question)
      else pure ()
    else pure ()
  else pure ()

/-- A request, with the id that it draws for a new task. -/
structure Desc where
  taskId : String
  policy : Policy
  request : SubmitRequest
  deriving DecidableEq, Repr

def system (digest : String → String) : Threads Effect Effect.Answer World Desc Choice Empty where
  body d := submit digest d.taskId d.policy d.request
  perform w c e := some (w.after c e, reply w c e, [])
  arrive w d := if d.taskId ∈ w.used then none else some { w with used := d.taskId :: w.used }
  ambient _ move := nomatch move

def start : Config Effect Effect.Answer World Desc := ⟨⟨[], [], [], [], []⟩, []⟩

end GatewaySubmit
end Nl2SqlAgent

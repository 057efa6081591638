import Nl2SqlAgent.TaskThreads

/-! How long the keys `task:…` and `taskowner:…` of one task live. The state is written
again and again, for a time that depends on its status; the owner is written once. -/
namespace Nl2SqlAgent

open Lib

namespace OwnerLifetime

open TaskThreads (Submission)

def ttlForStatus (status : String) : Nat :=
  if status = "PENDING" ∨ status = "RUNNING" then 7200
  else if status = "TIMEOUT" then 3600
  else if status ∈ ["SUCCESS","FAILED","CANCELLED"] then 86400
  else 7200

/-- The life that `TaskStoreService.save` gives. -/
def saveTtl (status : String) : Nat :=
  if status = "PENDING" ∨ status = "RUNNING" then 7200
  else if status = "TIMEOUT" then 3600
  else 86400

def ownerTtl : Nat := 86400

def cancelTtl : Nat := 3600

/-- The life of the state that an effect writes, by its status. -/
def ttl : TaskThreads.Effect → Option Nat
  | .create (.api ..) => some (ttlForStatus "PENDING")
  | .create (.gateway ..) => some (saveTtl "PENDING")
  | .create (.cached ..) => some (saveTtl "SUCCESS")
  | .update _ basis write =>
    some (ttlForStatus (TaskStore.status (TaskStore.merged "" basis write.fields)))
  | .save state operation =>
    some (saveTtl ((JavaTaskState.Operation.saved "" state operation).status.getD ""))
  | _ => none

inductive Effect where
  | task (e : TaskThreads.Effect)
  | setOwner (userTag : String)

def Effect.Answer : Effect → Type
  | .task e => e.Answer
  | .setOwner _ => Unit

abbrev Task := Prog Effect Effect.Answer

def ask (e : Effect) : Task e.Answer := Prog.perform e

inductive Desc where
  | submit (submission : Submission) (userTag : String)
  | task (d : TaskThreads.Desc)

def publishRequest : Task Unit := ask (.task (.publishRequest 0))

/-- The writes of a submit; the API knows no owners. -/
def submit (submission : Submission) (userTag : String) : Task Unit := do
  let _ ← ask (.task (.create submission))
  match submission with
  | .api .. => publishRequest
  | .gateway .. => do
    let _ ← ask (.setOwner userTag)
    publishRequest
  | .cached .. => ask (.setOwner userTag)

def body : Desc → Task Unit
  | .submit submission userTag => submit submission userTag
  | .task d => (TaskThreads.body d).embed .task fun _ r => r

/-- The keys with the seconds at which they expire, and the clock; the owner is kept with
the tag that was written. -/
structure World where
  task : TaskThreads.World
  now : Nat
  stateUntil : Nat
  cancelUntil : Nat
  owner : Option (String × Nat)
  submitted : Bool

/-- What the commands see: expired keys are gone. -/
def World.current (w : World) : TaskThreads.World :=
  { w.task with
    doc := if w.now < w.stateUntil then w.task.doc else none
    cancelled := w.task.cancelled && w.now < w.cancelUntil }

/-- `TaskStoreService.owner`, which is also what `isOwnerOrAdmin` reads. -/
def World.taskOwner (w : World) : Option String :=
  match w.owner with
  | none => none
  | some (userTag, until_) => if w.now < until_ then some userTag else none

/-- `isOwnerOrAdmin` for a user who is no admin. -/
def World.isOwner (w : World) (userTag : String) : Bool := w.taskOwner = some userTag

/-- The tag that `record` writes. -/
def World.recordedTag (w : World) : String := w.taskOwner.getD "unknown"

def perform (w : World) (c : TaskThreads.Choice) :
    (e : Effect) → Option (World × e.Answer × List Desc)
  | .task e =>
    (TaskThreads.perform w.current c e).map fun (task, r, forks) =>
      ({ w with
          task := task
          stateUntil := ((ttl e).map (w.now + ·)).getD w.stateUntil
          cancelUntil :=
            match e with
            | .requestCancel => w.now + cancelTtl
            | _ => w.cancelUntil },
        r, forks.map .task)
  | .setOwner userTag =>
    some ({ w with owner := some (userTag, w.now + ownerTtl) }, (), [])

/-- A task is submitted once, since its id is new. -/
def arrive (w : World) : Desc → Option World
  | .submit _ _ => if w.submitted then none else some { w with submitted := true }
  | .task (.submit _) => none
  | .task d => (TaskThreads.arrive w.task d).map fun task => { w with task := task }

/-- The ambient moves are the seconds that pass. -/
def system : Threads Effect Effect.Answer World Desc TaskThreads.Choice Nat where
  body := body
  perform := perform
  arrive := arrive
  ambient w seconds := some { w with now := w.now + seconds }

def start : Config Effect Effect.Answer World Desc :=
  ⟨⟨TaskThreads.start.world, 0, 0, 0, none, false⟩, []⟩

/-- A write after the owner's gives the state no longer life than the owner still has. -/
def InTime (w : World) (_ : Desc) (e : Effect) (_ : e.Answer) : Prop :=
  match e with
  | .task e => ∀ seconds ∈ ttl e, ∀ owner ∈ w.owner, w.now + seconds ≤ owner.2
  | .setOwner _ => True

instance (w : World) (d : Desc) (e : Effect) (r : e.Answer) : Decidable (InTime w d e r) := by
  cases e with
  | task e => exact inferInstanceAs (Decidable (∀ seconds ∈ ttl e, ∀ owner ∈ w.owner, _))
  | setOwner userTag => exact isTrue trivial

theorem ttlForStatus_le (status : String) : ttlForStatus status ≤ ownerTtl := by
  unfold ttlForStatus ownerTtl
  split
  · omega
  · split
    · omega
    · split <;> omega

theorem saveTtl_le (status : String) : saveTtl status ≤ ownerTtl := by
  unfold saveTtl ownerTtl
  split
  · omega
  · split <;> omega

/-- No state lives longer than an owner does from its registration on. -/
theorem ttl_le {e : TaskThreads.Effect} {seconds : Nat} (written : ttl e = some seconds) :
    seconds ≤ ownerTtl := by
  cases e with
  | create submission =>
    cases submission <;> obtain rfl := Option.some.inj written
    · exact ttlForStatus_le "PENDING"
    · exact saveTtl_le "PENDING"
    · exact saveTtl_le "SUCCESS"
  | update seen basis write =>
    obtain rfl := Option.some.inj written
    exact ttlForStatus_le _
  | save state operation =>
    obtain rfl := Option.some.inj written
    exact saveTtl_le _
  | _ => contradiction

/-- The state does not outlive the owner, once there is one. -/
structure Covered (w : World) : Prop where
  bounded : w.stateUntil ≤ w.now + ownerTtl
  owned : ∀ userTag until_, w.owner = some (userTag, until_) → w.stateUntil ≤ until_

theorem Covered.perform {w w' : World} {c : TaskThreads.Choice} {d : Desc} {e : Effect}
    {r : e.Answer} {forks : List Desc} (covered : Covered w) (inTime : InTime w d e r)
    (performed : perform w c e = some (w', r, forks)) : Covered w' := by
  cases e with
  | setOwner userTag =>
    cases performed
    refine ⟨covered.bounded, fun tag until_ same => ?_⟩
    cases same
    exact covered.bounded
  | task e =>
    obtain ⟨⟨task, r', forks'⟩, -, same⟩ := Option.map_eq_some_iff.mp performed
    cases same
    cases written : ttl e with
    | none =>
      constructor
      · simpa [written] using covered.bounded
      · simpa [written] using covered.owned
    | some seconds =>
      have short : seconds ≤ ownerTtl := ttl_le written
      constructor
      · simp only [Option.map_some, Option.getD_some]
        omega
      · intro userTag until_ owned
        have covers : w.now + seconds ≤ until_ := inTime seconds written (userTag, until_) owned
        simpa [written] using covers

theorem Covered.arrive {w w' : World} {d : Desc} (covered : Covered w)
    (arrived : arrive w d = some w') : Covered w' := by
  cases d with
  | submit submission userTag =>
    simp only [OwnerLifetime.arrive] at arrived
    split at arrived
    · contradiction
    · cases arrived
      exact ⟨covered.bounded, covered.owned⟩
  | task d =>
    have other : ∃ task, w' = { w with task := task } := by
      cases d with
      | submit submission => contradiction
      | _ =>
        simp only [OwnerLifetime.arrive] at arrived
        obtain ⟨task, -, rfl⟩ := Option.map_eq_some_iff.mp arrived
        exact ⟨task, rfl⟩
    obtain ⟨task, rfl⟩ := other
    exact ⟨covered.bounded, covered.owned⟩

theorem Covered.step {c c' : Config Effect Effect.Answer World Desc}
    {event : Event Desc TaskThreads.Choice Nat} (covered : Covered c.world)
    (stepped : system.machine.step c event = some c') (inTime : system.Meets InTime c event c') :
    Covered c'.world := by
  rcases Threads.step_cases stepped with
    ⟨pid, choice, d, e, k, w, r, forks, rfl, fetched, performed, rfl⟩ |
    ⟨d, w, rfl, arrived, rfl⟩ | ⟨seconds, w, rfl, moved, rfl⟩
  · exact covered.perform (inTime d e k w r forks fetched performed) performed
  · exact covered.arrive arrived
  · cases moved
    have bounded := covered.bounded
    exact ⟨by simp only; omega, covered.owned⟩

/-- As long as every write of the state is in time, the owner of a state that is still
there has access to it and is recorded with it. -/
theorem owner_outlives (events : List (Event Desc TaskThreads.Choice Nat))
    (c : Config Effect Effect.Answer World Desc)
    (along : system.machine.Along (system.Meets InTime) start events)
    (run : system.machine.exec start events = some c) :
    ∀ userTag until_, c.world.owner = some (userTag, until_) →
      c.world.current.doc.isSome = true →
      c.world.isOwner userTag = true ∧ c.world.recordedTag = userTag := by
  have initially : Covered start.world := ⟨Nat.zero_le _, fun _ _ none => nomatch none⟩
  have covered : Covered c.world :=
    Machine.invariant_along (fun c => Covered c.world)
      (fun _ _ _ covered stepped inTime => covered.step stepped inTime) initially along run
  intro userTag until_ owned alive
  have living : c.world.now < c.world.stateUntil := by
    by_contra expired
    simp only [World.current, if_neg expired] at alive
    contradiction
  have covers : c.world.stateUntil ≤ until_ := covered.owned userTag until_ owned
  have held : c.world.taskOwner = some userTag := by
    rw [World.taskOwner, owned]
    exact if_pos (by omega)
  exact ⟨decide_eq_true held, by rw [World.recordedTag, held]; rfl⟩

def oneStep : TaskThreads.Choice where
  graph := ⟨[[⟨"router", 5, none, [], []⟩]], .ok (⟨some "SELECT 1", .null, [], []⟩, ⟨"", "", "", []⟩)⟩

def runs (pid count : Nat) : List (Event Desc TaskThreads.Choice Nat) :=
  List.replicate count (.run pid {})

/-- Alice's task is submitted and handled up to the start of its graph: thread 0 is the
submit, thread 1 the handler, thread 2 the graph. -/
def handled : List (Event Desc TaskThreads.Choice Nat) :=
  .arrive (.submit (.gateway "t1" "How many orders?" "shop" "") "alice") :: runs 0 3 ++
    .arrive (.task (.handleTask 0)) :: runs 1 4 ++ [.run 1 oneStep]

/-- The handler's wait ends after an hour, and the task's life with it. -/
def timedOut : List (Event Desc TaskThreads.Choice Nat) :=
  handled ++ [.ambient 3600, .run 1 { timedOut := true }] ++ runs 1 4 ++ [.ambient 3000]

theorem owner_outlives_timeout :
    ∃ c, system.machine.exec start timedOut = some c ∧ c.world.current.doc.isSome = true ∧
      c.world.isOwner "alice" = true ∧ c.world.recordedTag = "alice" := by
  have ends : (system.machine.exec start timedOut).any (fun c =>
      c.world.owner = some ("alice", 86400) ∧ c.world.current.doc.isSome = true ∧
      c.world.current.doc.map TaskStore.status = some "TIMEOUT") = true := by decide
  obtain ⟨c, run, shown⟩ := (Option.any_eq_true _ _).mp ends
  obtain ⟨owned, alive, -⟩ := of_decide_eq_true shown
  exact ⟨c, run, alive, owner_outlives timedOut c (by decide) run "alice" 86400 owned alive⟩

/-- A success after a minute lives on for a day, a minute longer than its owner. -/
def succeeded : List (Event Desc TaskThreads.Choice Nat) :=
  handled ++ runs 2 6 ++ .ambient 60 :: runs 1 4 ++ [.ambient 86340]

theorem owner_expires_first :
    ∃ c, system.machine.exec start succeeded = some c ∧
      c.world.owner = some ("alice", 86400) ∧
      c.world.current.doc.map TaskStore.status = some "SUCCESS" ∧
      c.world.isOwner "alice" = false ∧ c.world.recordedTag = "unknown" := by
  have ends : (system.machine.exec start succeeded).any (fun c =>
      c.world.owner = some ("alice", 86400) ∧
      c.world.current.doc.map TaskStore.status = some "SUCCESS" ∧
      c.world.isOwner "alice" = false ∧ c.world.recordedTag = "unknown") = true := by decide
  obtain ⟨c, run, shown⟩ := (Option.any_eq_true _ _).mp ends
  exact ⟨c, run, of_decide_eq_true shown⟩

end OwnerLifetime
end Nl2SqlAgent

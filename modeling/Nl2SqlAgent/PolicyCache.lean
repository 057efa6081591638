import Nl2SqlAgent.Lib.Watch
import Nl2SqlAgent.JavaTaskState

/-! `UserPolicyService`: the policy of one user in the database and in the cache, read by
any number of `resolve` calls while any number of `update` calls change it. The cache does
not expire and no command fails. -/
namespace Nl2SqlAgent

open Lib

namespace PolicyCache

/-- A row of `user_policy`; `allowed_db_ids` is a JSON column. -/
structure UserPolicy where
  userTag : String
  role : String
  allowedDbIds : Json
  qpsLimit : Int
  dailyQuota : Int
  status : Int

structure Policy where
  userTag : String
  role : String
  allowedDbIds : List (Option String)
  qpsLimit : Int
  dailyQuota : Int
  enabled : Bool
  deriving DecidableEq, Repr

def readList : Json → Option (List (Option String))
  | .arr items => items.mapM JavaTaskState.readText
  | _ => none

def toPolicy (row : UserPolicy) : Policy :=
  ⟨row.userTag, row.role, (readList row.allowedDbIds).getD [], row.qpsLimit, row.dailyQuota,
    row.status = 1⟩

/-- `om.writeValueAsString(p)`. -/
def writeValue (p : Policy) : Json :=
  .obj [("userTag", .str p.userTag), ("role", .str p.role),
    ("allowedDbIds", .arr (p.allowedDbIds.map TaskStore.text)), ("qpsLimit", .int p.qpsLimit),
    ("dailyQuota", .int p.dailyQuota), ("enabled", .bool p.enabled)]

/-- `om.readValue(json, Policy.class)`, for what `writeValue` can have written. -/
def readValue : Json → Option Policy
  | .obj fields => do
    let .str userTag ← fields.lookup "userTag" | none
    let .str role ← fields.lookup "role" | none
    let allowedDbIds ← readList (← fields.lookup "allowedDbIds")
    let .int qpsLimit ← fields.lookup "qpsLimit" | none
    let .int dailyQuota ← fields.lookup "dailyQuota" | none
    let .bool enabled ← fields.lookup "enabled" | none
    return ⟨userTag, role, allowedDbIds, qpsLimit, dailyQuota, enabled⟩
  | _ => none

theorem readList_texts (dbs : List (Option String)) :
    readList (.arr (dbs.map TaskStore.text)) = some dbs := by
  have texts : (dbs.map TaskStore.text).mapM JavaTaskState.readText = some dbs := by
    induction dbs with
    | nil => rfl
    | cons db rest ih => cases db <;> simp [TaskStore.text, JavaTaskState.readText, ih]
  exact texts

/-- What is written for a policy is read as that policy. -/
theorem readValue_writeValue (p : Policy) : readValue (writeValue p) = some p := by
  simp [readValue, writeValue, List.lookup_cons, readList_texts]

/-- What is kept under `policy:{tag}`. -/
inductive Raw where
  | negative
  | json (value : Json)

/-- What `resolve` answers for a cached value. -/
def Raw.policy : Raw → Option Policy
  | .negative => none
  | .json value => readValue value

/-- What `resolve` caches for the row that it found, if any. -/
def rawOf : Option UserPolicy → Raw
  | none => .negative
  | some row => .json (writeValue (toPolicy row))

@[simp] theorem rawOf_policy (row : Option UserPolicy) : (rawOf row).policy = row.map toPolicy := by
  cases row with
  | none => rfl
  | some row => exact readValue_writeValue (toPolicy row)

inductive Effect where
  | cacheGet
  | selectById
  | cacheSet (raw : Raw)
  | answer (policy : Option Policy)
  | upsert (row : UserPolicy)
  | cacheDelete
  | returned (policy : Policy)

def Effect.Answer : Effect → Type
  | .cacheGet => Option Raw
  | .selectById => Option UserPolicy
  | _ => Unit

abbrev Task := Prog Effect Effect.Answer

def ask (e : Effect) : Task e.Answer := Prog.perform e

def resolve : Task Unit := do
  match ← ask .cacheGet with
  | some raw => ask (.answer raw.policy)
  | none => do
    match ← ask .selectById with
    | none => do
      let _ ← ask (.cacheSet .negative)
      ask (.answer none)
    | some row => do
      let p := toPolicy row
      let _ ← ask (.cacheSet (.json (writeValue p)))
      ask (.answer (some p))

def update (row : UserPolicy) : Task Unit := do
  let _ ← ask (.upsert row)
  let _ ← ask .cacheDelete
  ask (.returned (toPolicy row))

/-- A call, with a number of its own. -/
inductive Desc where
  | resolve (id : Nat)
  | update (id : Nat) (row : UserPolicy)

def Desc.id : Desc → Nat
  | .resolve id => id
  | .update id _ => id

def body : Desc → Task Unit
  | .resolve _ => resolve
  | .update _ row => update row

/-- The user's row and the value cached for it; the numbers in use are not kept by the code. -/
structure World where
  row : Option UserPolicy
  cache : Option Raw
  used : List Nat

def World.after (w : World) : Effect → World
  | .cacheSet raw => { w with cache := some raw }
  | .upsert row => { w with row := some row }
  | .cacheDelete => { w with cache := none }
  | _ => w

def reply (w : World) : (e : Effect) → e.Answer
  | .cacheGet => w.cache
  | .selectById => w.row
  | .cacheSet _ | .answer _ | .upsert _ | .cacheDelete | .returned _ => ()

def system : Threads Effect Effect.Answer World Desc Unit Empty where
  body := body
  perform w _ e := some (w.after e, reply w e, [])
  arrive w d := if d.id ∈ w.used then none else some { w with used := d.id :: w.used }
  ambient _ move := nomatch move

/-- The versions of the row, the one that each call wrote, read or found returned when it
began, the newest whose update has deleted the cached value or returned, and what each
resolve answered, with the version that had returned when it began. -/
structure Record where
  version : Nat := 0
  rowAt : Nat → Option UserPolicy
  upserted : Nat → Nat := fun _ => 0
  selected : Nat → Nat := fun _ => 0
  floor : Nat → Nat := fun _ => 0
  deleted : Nat := 0
  returned : Nat := 0
  answers : List (Nat × Option Policy) := []

def Record.after (g : Record) (id : Nat) : Effect → Record
  | .selectById => { g with selected := Function.update g.selected id g.version }
  | .upsert row =>
    { g with
      version := g.version + 1
      rowAt := Function.update g.rowAt (g.version + 1) (some row)
      upserted := Function.update g.upserted id (g.version + 1) }
  | .cacheDelete => { g with deleted := max g.deleted (g.upserted id) }
  | .returned _ => { g with returned := max g.returned (g.upserted id) }
  | .answer p => { g with answers := (g.floor id, p) :: g.answers }
  | .cacheGet | .cacheSet _ => g

def notes : Notes Effect Effect.Answer World Desc Empty Record where
  run _ g d e _ := g.after d.id e
  arrive _ g d := { g with floor := Function.update g.floor d.id g.returned }

abbrev watched := system.watched notes

abbrev Run := Config (Desc × Effect) (fun e => e.2.Answer) (World × Record) Desc

def start (row : Option UserPolicy) : Run := ⟨(⟨row, none, []⟩, { rowAt := fun _ => row }), []⟩

/-- When a resolve writes the cache, no update of a later version than the one it has read
has deleted the cached value yet. -/
def Ordered (w : World × Record) (d : Desc) (e : Desc × Effect) (_ : e.2.Answer) : Prop :=
  match e.2 with
  | .cacheSet _ => w.2.deleted ≤ w.2.selected d.id
  | _ => True

/-- How far a call has come. -/
inductive Point where
  | looking
  | found (row : Option UserPolicy)
  | knows (policy : Option Policy)
  | updating
  | upserted
  | evicted
  | finished

def protocol : Prog.Protocol Effect Effect.Answer Point where
  allows
    | .looking, .cacheGet => True
    | .looking, .selectById => True
    | .found row, .cacheSet raw => raw = rawOf row
    | .knows p, .answer p' => p' = p
    | .updating, .upsert _ => True
    | .upserted, .cacheDelete => True
    | .evicted, .returned _ => True
    | _, _ => False
  next
    | .looking, .cacheGet, none, p' => p' = .looking
    | .looking, .cacheGet, some raw, p' => p' = .knows raw.policy
    | .looking, .selectById, row, p' => p' = .found row
    | .found row, .cacheSet _, _, p' => p' = .knows (row.map toPolicy)
    | .updating, .upsert _, _, p' => p' = .upserted
    | .upserted, .cacheDelete, _, p' => p' = .evicted
    | _, _, _, p' => p' = .finished
  final _ := True

theorem answer_follows (policy : Option Policy) :
    (ask (.answer policy)).Follows protocol (.knows policy) :=
  ⟨rfl, fun _ _ _ => trivial⟩

theorem resolve_follows : resolve.Follows protocol .looking := by
  refine ⟨trivial, fun cached p next => ?_⟩
  cases (cached : Option Raw) with
  | some raw =>
    obtain rfl := next
    exact answer_follows raw.policy
  | none =>
    obtain rfl := next
    refine ⟨trivial, fun row p next => ?_⟩
    obtain rfl := next
    cases (row : Option UserPolicy) with
    | none =>
      refine ⟨rfl, fun _ p next => ?_⟩
      obtain rfl := next
      exact answer_follows none
    | some row =>
      refine ⟨rfl, fun _ p next => ?_⟩
      obtain rfl := next
      exact answer_follows (some (toPolicy row))

theorem update_follows (row : UserPolicy) : (update row).Follows protocol .updating := by
  refine ⟨trivial, fun _ p next => ?_⟩
  obtain rfl := next
  refine ⟨trivial, fun _ p next => ?_⟩
  obtain rfl := next
  exact ⟨trivial, fun _ _ _ => trivial⟩

/-- The policy of a version that is no older than `old`. -/
def Record.Since (g : Record) (old : Nat) (policy : Option Policy) : Prop :=
  ∃ v, old ≤ v ∧ v ≤ g.version ∧ policy = (g.rowAt v).map toPolicy

/-- What a call's point says of the versions. -/
def Point.Holds (g : Record) (id : Nat) : Point → Prop
  | .looking => g.floor id ≤ g.deleted
  | .found row =>
    g.floor id ≤ g.selected id ∧ g.selected id ≤ g.version ∧ row = g.rowAt (g.selected id)
  | .knows policy => g.Since (g.floor id) policy
  | .upserted => g.upserted id ≤ g.version
  | .evicted => g.upserted id ≤ g.deleted
  | .updating | .finished => True

/-- The row is the newest version, and the cached value belongs to one that is no older
than any whose update has deleted it. -/
structure Coherent (w : World × Record) : Prop where
  row : w.1.row = w.2.rowAt w.2.version
  returned : w.2.returned ≤ w.2.deleted
  deleted : w.2.deleted ≤ w.2.version
  cached : ∀ raw, w.1.cache = some raw → w.2.Since w.2.deleted raw.policy
  answers : ∀ old policy, (old, policy) ∈ w.2.answers → w.2.Since old policy

/-- What a step of another call leaves as it was. -/
structure Grows (g g' : Record) (other : Nat) : Prop where
  version : g.version ≤ g'.version
  rowAt : ∀ v ≤ g.version, g'.rowAt v = g.rowAt v
  deleted : g.deleted ≤ g'.deleted
  floor : ∀ id, id ≠ other → g'.floor id = g.floor id
  selected : ∀ id, id ≠ other → g'.selected id = g.selected id
  upserted : ∀ id, id ≠ other → g'.upserted id = g.upserted id

theorem after_grows (g : Record) (id : Nat) (e : Effect) : Grows g (g.after id e) id := by
  cases e with
  | selectById =>
    refine ⟨le_rfl, fun _ _ => rfl, le_rfl, fun _ _ => rfl, fun other apart => ?_, fun _ _ => rfl⟩
    exact Function.update_of_ne apart _ _
  | upsert row =>
    refine ⟨Nat.le_succ _, fun v old => ?_, le_rfl, fun _ _ => rfl, fun _ _ => rfl,
      fun other apart => Function.update_of_ne apart _ _⟩
    exact Function.update_of_ne (by omega) _ _
  | cacheDelete =>
    exact ⟨le_rfl, fun _ _ => rfl, le_max_left _ _, fun _ _ => rfl, fun _ _ => rfl, fun _ _ => rfl⟩
  | _ => exact ⟨le_rfl, fun _ _ => rfl, le_rfl, fun _ _ => rfl, fun _ _ => rfl, fun _ _ => rfl⟩

theorem Grows.since {g g' : Record} {other old : Nat} {policy : Option Policy}
    (grows : Grows g g' other) (since : g.Since old policy) : g'.Since old policy := by
  obtain ⟨v, newer, known, rfl⟩ := since
  exact ⟨v, newer, known.trans grows.version, by rw [grows.rowAt v known]⟩

theorem Grows.holds {g g' : Record} {other id : Nat} {p : Point} (grows : Grows g g' other)
    (apart : id ≠ other) (holds : p.Holds g id) : p.Holds g' id := by
  have floor := grows.floor id apart
  have selected := grows.selected id apart
  have upserted := grows.upserted id apart
  have version := grows.version
  have deleted := grows.deleted
  cases p with
  | looking =>
    change g.floor id ≤ g.deleted at holds
    change g'.floor id ≤ g'.deleted
    omega
  | found row =>
    obtain ⟨newer, known, rfl⟩ := holds
    change g'.floor id ≤ g'.selected id ∧ g'.selected id ≤ g'.version ∧ _ = g'.rowAt (g'.selected id)
    rw [floor, selected, grows.rowAt _ known]
    exact ⟨newer, known.trans version, rfl⟩
  | knows policy =>
    change g'.Since (g'.floor id) policy
    rw [floor]
    exact grows.since holds
  | updating => trivial
  | upserted =>
    change g.upserted id ≤ g.version at holds
    change g'.upserted id ≤ g'.version
    omega
  | evicted =>
    change g.upserted id ≤ g.deleted at holds
    change g'.upserted id ≤ g'.deleted
    omega
  | finished => trivial

/-- A call's own step keeps the cache coherent and leads to a point that holds. -/
theorem advance {w : World × Record} {d : Desc} {p : Point} {e : Effect} (coherent : Coherent w)
    (at_ : p.Holds w.2 d.id) (allowed : protocol.allows p e)
    (ordered : Ordered w d (d, e) (reply w.1 e)) :
    Coherent (w.1.after e, w.2.after d.id e) ∧
      ∃ p', protocol.next p e (reply w.1 e) p' ∧ p'.Holds (w.2.after d.id e) d.id := by
  obtain ⟨row, returned, deleted, cached, answers⟩ := coherent
  have grows : Grows w.2 (w.2.after d.id e) d.id := after_grows w.2 d.id e
  have answered (old : Nat) (policy : Option Policy) (member : (old, policy) ∈ w.2.answers) :
      (w.2.after d.id e).Since old policy := grows.since (answers old policy member)
  cases e with
  | cacheGet =>
    refine ⟨⟨row, returned, deleted, cached, answers⟩, ?_⟩
    cases p with
    | looking =>
      cases hit : w.1.cache with
      | none => exact ⟨.looking, by simp only [reply, hit, protocol], at_⟩
      | some raw =>
        refine ⟨.knows raw.policy, by simp only [reply, hit, protocol], ?_⟩
        obtain ⟨v, newer, known, same⟩ := cached raw hit
        exact ⟨v, at_.trans newer, known, same⟩
    | _ => exact absurd allowed id
  | selectById =>
    refine ⟨⟨row, returned, deleted, cached, answered⟩, ?_⟩
    cases p with
    | looking =>
      refine ⟨.found w.1.row, rfl, ?_⟩
      have now : (w.2.after d.id .selectById).selected d.id = w.2.version :=
        Function.update_self d.id _ _
      refine ⟨?_, ?_, ?_⟩
      · rw [now]
        exact at_.trans deleted
      · rw [now]
        exact le_rfl
      · rw [now]
        exact row
    | _ => exact absurd allowed id
  | cacheSet raw =>
    cases p with
    | found found =>
      obtain rfl : raw = rawOf found := allowed
      obtain ⟨newer, known, rfl⟩ := at_
      refine ⟨⟨row, returned, deleted, ?_, answers⟩, _, rfl, ?_⟩
      · rintro _ ⟨⟩
        exact ⟨w.2.selected d.id, ordered, known, rawOf_policy _⟩
      · exact ⟨w.2.selected d.id, newer, known, rfl⟩
    | _ => exact absurd allowed id
  | answer policy =>
    cases p with
    | knows known =>
      obtain rfl : policy = known := allowed
      refine ⟨⟨row, returned, deleted, cached, ?_⟩, .finished, rfl, trivial⟩
      intro old other member
      rcases List.mem_cons.mp member with same | before
      · obtain ⟨rfl, rfl⟩ := Prod.mk.inj same
        exact at_
      · exact answers old other before
    | _ => exact absurd allowed id
  | upsert new =>
    cases p with
    | updating =>
      refine ⟨⟨?_, returned, deleted.trans (Nat.le_succ _), ?_, answered⟩, .upserted, rfl, ?_⟩
      · exact (Function.update_self (w.2.version + 1) (some new) w.2.rowAt).symm
      · exact fun raw hit => grows.since (cached raw hit)
      · exact (Function.update_self d.id _ _).le
    | _ => exact absurd allowed id
  | cacheDelete =>
    cases p with
    | upserted =>
      refine ⟨⟨row, returned.trans (le_max_left _ _), max_le deleted at_, ?_, answered⟩,
        .evicted, rfl, le_max_right _ _⟩
      rintro raw ⟨⟩
    | _ => exact absurd allowed id
  | returned policy =>
    cases p with
    | evicted =>
      exact ⟨⟨row, max_le returned at_, deleted, cached, answered⟩, .finished, rfl, trivial⟩
    | _ => exact absurd allowed id

/-- A call has a number in use, and what it has left to do fits how far it has come. -/
def Underway (w : World × Record)
    (t : Thread (Desc × Effect) (fun e => e.2.Answer) Desc) : Prop :=
  t.desc.id ∈ w.1.used ∧
    ∃ p, t.rest.Follows (protocol.tagged t.desc) p ∧ p.Holds w.2 t.desc.id

theorem after_used (w : World) (e : Effect) : (w.after e).used = w.used := by
  cases e <;> rfl

theorem arrive_cases {w w' : World × Record} {d : Desc} (arrived : watched.arrive w d = some w') :
    d.id ∉ w.1.used ∧ w' = ({ w.1 with used := d.id :: w.1.used },
      { w.2 with floor := Function.update w.2.floor d.id w.2.returned }) := by
  obtain ⟨taken, noted⟩ := Threads.watched_arrived arrived
  obtain ⟨fresh, same⟩ := Option.ite_none_left_eq_some.mp taken
  exact ⟨fresh, Prod.ext (Option.some.inj same).symm noted⟩

theorem arrive_grows (g : Record) (id : Nat) :
    Grows g { g with floor := Function.update g.floor id g.returned } id :=
  ⟨le_rfl, fun _ _ => rfl, le_rfl, fun _ apart => Function.update_of_ne apart _ _, fun _ _ => rfl,
    fun _ _ => rfl⟩

theorem perform_cases {w w' : World × Record} {e : Desc × Effect} {r : e.2.Answer}
    {forks : List Desc} (performed : watched.perform w () e = some (w', r, forks)) :
    w' = (w.1.after e.2, w.2.after e.1.id e.2) ∧ r = reply w.1 e.2 ∧ forks = [] := by
  obtain ⟨taken, noted⟩ := Threads.watched_performed performed
  obtain ⟨first, rfl, rfl⟩ := by simpa [system] using taken
  exact ⟨Prod.ext first.symm noted, rfl, rfl⟩

def outline : Threads.Outline watched Ordered where
  inv := Coherent
  ok := Underway
  apart d d' := d.id ≠ d'.id
  own {w _ d e k w' r forks} coherent underway ordered performed := by
    obtain ⟨inUse, p, ⟨⟨rfl, allowed⟩, later⟩, at_⟩ := underway
    obtain ⟨rfl, rfl, rfl⟩ := perform_cases performed
    obtain ⟨kept, p', next, after⟩ := advance coherent at_ allowed ordered
    refine ⟨kept, ⟨?_, p', later _ p' next, after⟩, by simp⟩
    rw [after_used]
    exact inUse
  stable {w _ d e k w' r forks t} _ underway _ performed other apart := by
    obtain ⟨-, p, ⟨⟨rfl, -⟩, -⟩, -⟩ := underway
    obtain ⟨rfl, rfl, rfl⟩ := perform_cases performed
    obtain ⟨inUse, q, follows, at_⟩ := other
    refine ⟨?_, q, follows, (after_grows w.2 e.1.id e.2).holds apart.2 at_⟩
    rw [after_used]
    exact inUse
  fork_apart {w _ d e k w' r forks} _ _ performed := by
    obtain ⟨rfl, rfl, rfl⟩ := perform_cases performed
    simp
  arrive {w d w'} coherent arrived := by
    obtain ⟨fresh, rfl⟩ := arrive_cases arrived
    have grows := arrive_grows w.2 d.id
    refine ⟨⟨coherent.row, coherent.returned, coherent.deleted, coherent.cached, coherent.answers⟩,
      ⟨List.mem_cons_self, ?_⟩, ?_⟩
    · have floor : Function.update w.2.floor d.id w.2.returned d.id = w.2.returned :=
        Function.update_self d.id _ _
      cases d with
      | resolve id =>
        refine ⟨.looking, Prog.follows_tag _ resolve_follows, ?_⟩
        exact floor.le.trans coherent.returned
      | update id row => exact ⟨.updating, Prog.follows_tag _ (update_follows row), trivial⟩
    · intro t underway
      obtain ⟨inUse, p, follows, at_⟩ := underway
      have apart : t.desc.id ≠ d.id := fun same => fresh (same ▸ inUse)
      exact ⟨⟨List.mem_cons_of_mem _ inUse, p, follows, grows.holds apart at_⟩, apart, apart.symm⟩
  ambient {_ x _} _ _ := nomatch x

theorem start_coherent (row : Option UserPolicy) : Coherent (start row).world :=
  ⟨rfl, le_rfl, le_rfl, fun _ hit => (nomatch hit), fun _ _ member => (nomatch member)⟩

/-- In a run whose cache writes are ordered, every resolve answers the policy of an update
that is no older than the newest that had returned when it began. -/
theorem resolve_coherent {row : Option UserPolicy} {events : List (Event Desc Unit Empty)} {c : Run}
    (ordered : watched.machine.Along (watched.Meets Ordered) (start row) events)
    (run : watched.machine.exec (start row) events = some c) :
    ∀ old policy, (old, policy) ∈ c.world.2.answers → c.world.2.Since old policy :=
  (outline.run (outline.holds_empty (start_coherent row)) ordered run).world.answers

instance (w : World × Record) (d : Desc) : (e : Desc × Effect) → (r : e.2.Answer) →
    Decidable (Ordered w d e r)
  | (_, .cacheSet _), _ => inferInstanceAs (Decidable (w.2.deleted ≤ w.2.selected d.id))
  | (_, .cacheGet), _ | (_, .selectById), _ | (_, .answer _), _ | (_, .upsert _), _
  | (_, .cacheDelete), _ | (_, .returned _), _ => isTrue trivial

def alice : UserPolicy := ⟨"alice", "user", .arr [.str "*"], 10, 1000, 1⟩

def disabled : UserPolicy := { alice with status := 0 }

/-- A resolve fills the cache, an update disables the user, and another resolve follows. -/
def inTurn : List (Event Desc Unit Empty) :=
  .arrive (.resolve 0) :: List.replicate 4 (.run 0 ()) ++
    .arrive (.update 1 disabled) :: List.replicate 3 (.run 1 ()) ++
    .arrive (.resolve 2) :: List.replicate 4 (.run 2 ())

theorem resolve_coherent_in_turn :
    ∃ c, watched.machine.exec (start (some alice)) inTurn = some c ∧
      (1, some (toPolicy disabled)) ∈ c.world.2.answers ∧
      c.world.2.Since 1 (some (toPolicy disabled)) := by
  have ends : (watched.machine.exec (start (some alice)) inTurn).any (fun c =>
      (1, some (toPolicy disabled)) ∈ c.world.2.answers) = true := by decide +kernel
  obtain ⟨c, run, final⟩ := (Option.any_eq_true _ _).mp ends
  have answered := of_decide_eq_true final
  exact ⟨c, run, answered, resolve_coherent (by decide +kernel) run _ _ answered⟩

/-- The first resolve has read the row when the update comes, and writes the cache after it. -/
def overtaken : List (Event Desc Unit Empty) :=
  [.arrive (.resolve 0), .run 0 (), .run 0 (), .arrive (.update 1 disabled), .run 1 (), .run 1 (),
    .run 1 (), .run 0 (), .run 0 (), .arrive (.resolve 2), .run 2 (), .run 2 ()]

theorem disabled_user_served :
    ∃ c, watched.machine.exec (start (some alice)) overtaken = some c ∧
      (1, some (toPolicy alice)) ∈ c.world.2.answers ∧ (toPolicy alice).enabled = true ∧
      ¬ c.world.2.Since 1 (some (toPolicy alice)) := by
  have ends : (watched.machine.exec (start (some alice)) overtaken).any (fun c =>
      (1, some (toPolicy alice)) ∈ c.world.2.answers ∧ c.world.2.version = 1 ∧
        (c.world.2.rowAt 1).map toPolicy = some (toPolicy disabled)) = true := by decide +kernel
  obtain ⟨c, run, final⟩ := (Option.any_eq_true _ _).mp ends
  obtain ⟨answered, version, newest⟩ := of_decide_eq_true final
  refine ⟨c, run, answered, by decide, ?_⟩
  rintro ⟨v, newer, known, same⟩
  obtain rfl : v = 1 := by omega
  rw [newest] at same
  exact absurd same (by decide)

end PolicyCache
end Nl2SqlAgent

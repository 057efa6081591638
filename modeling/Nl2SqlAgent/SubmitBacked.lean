import Nl2SqlAgent.GatewaySubmit

/-! Which task ids a submit may return: those whose state and owner are stored, or whose
idempotency key obliges a request to store them. -/
namespace Nl2SqlAgent

open Lib

namespace GatewaySubmit

/-- How far a request has come: whether it took its key, stored the state and the owner,
which ids it has read, and which key it found taken. -/
structure Point where
  held : Bool := false
  saved : Bool := false
  owned : Bool := false
  known : List String := []
  lost : Option String := none

/-- A request writes under its own id only and returns an id that it has read or, when
state and owner are stored, its own; once it holds a key it goes through to the owner. -/
def protocol (taskId : String) : Prog.Protocol Effect Effect.Answer Point where
  allows p
    | .idempotentTryAcquire _ id => id = taskId ∧ p.held = false
    | .create id .. => id = taskId
    | .createFromCache id .. => id = taskId
    | .setOwner id _ => id = taskId
    | .accepted id => id ∈ p.known ∨ (id = taskId ∧ p.saved = true ∧ p.owned = true)
    | _ => True
  next
    | p, .idempotentGet _, .done (some id), p' => p' = { p with known := id :: p.known }
    | p, .idempotentGet key, .done none, p' => p.lost ≠ some key ∧ p' = p
    | p, .idempotentTryAcquire _ _, .done true, p' => p' = { p with held := true }
    | p, .idempotentTryAcquire key _, .done false, p' => p' = { p with lost := some key }
    | p, .idempotentTryAcquire _ _, .raised carriedOut, p' => carriedOut = false ∧ p' = p
    | p, .tryConsume _ _, granted, p' => (p.held = true → granted = true) ∧ p' = p
    | p, .create .., .done _, p' => p' = { p with saved := true }
    | p, .create .., .raised _, p' => p.held = false ∧ p' = p
    | p, .createFromCache .., .done _, p' => p' = { p with saved := true }
    | p, .createFromCache .., .raised _, p' => p.held = false ∧ p' = p
    | p, .setOwner _ _, .done _, p' => p' = { p with owned := true }
    | p, .setOwner _ _, .raised true, p' => p' = { p with owned := true }
    | p, .setOwner _ _, .raised false, p' => p.held = false ∧ p' = p
    | p, _, _, p' => p' = p
  final p := p.held = true → p.saved = true ∧ p.owned = true

variable {digest : String → String} {taskId : String} {policy : Policy} {req : SubmitRequest}
  {p : Point}

/-- Without its key a request owes nothing. -/
theorem Point.owes_nothing {goal : Prop} (free : p.held = false) : p.held = true → goal := by
  intro held
  rw [free] at held
  contradiction

theorem setOwner_follows {userTag : String} {rest : Unit → Task Unit} (saved : p.saved = true)
    (later : (rest ()).Follows (protocol taskId) { p with owned := true }) :
    (orFail (ask (.setOwner taskId userTag)) rest).Follows (protocol taskId) p := by
  refine ⟨rfl, fun owned p' next => ?_⟩
  cases (owned : Attempt Unit) with
  | raised carriedOut =>
    cases carriedOut with
    | true =>
      obtain rfl := next
      exact fun _ => ⟨saved, rfl⟩
    | false =>
      obtain ⟨free, rfl⟩ := next
      exact Point.owes_nothing free
  | done =>
    obtain rfl := next
    exact later

theorem accepted_follows {id : String} (may : id ∈ p.known ∨ (id = taskId ∧ p.saved = true ∧ p.owned = true))
    (final : p.held = true → p.saved = true ∧ p.owned = true) :
    (ask (.accepted id)).Follows (protocol taskId) p := by
  refine ⟨may, fun _ p' next => ?_⟩
  obtain rfl := next
  exact final

theorem create_follows (asked : p.held = true → req.question ≠ none) :
    (create taskId policy req).Follows (protocol taskId) p := by
  unfold create
  cases question : req.question with
  | none => exact fun held => absurd question (asked held)
  | some q =>
    refine ⟨rfl, fun saved p' next => ?_⟩
    cases (saved : Attempt Unit) with
    | raised =>
      obtain ⟨free, rfl⟩ := next
      exact Point.owes_nothing free
    | done =>
      obtain rfl := next
      apply setOwner_follows rfl
      refine ⟨trivial, fun published p' next => ?_⟩
      obtain rfl := next
      cases (published : Attempt Unit) with
      | raised => exact fun _ => ⟨rfl, rfl⟩
      | done => exact accepted_follows (.inr ⟨rfl, rfl, rfl⟩) fun _ => ⟨rfl, rfl⟩

theorem createFromCache_follows (cached : Cached) (asked : p.held = true → req.question ≠ none) :
    (createFromCache taskId policy req cached).Follows (protocol taskId) p := by
  unfold createFromCache
  cases question : req.question with
  | none => exact fun held => absurd question (asked held)
  | some q =>
    refine ⟨rfl, fun saved p' next => ?_⟩
    cases (saved : Attempt Unit) with
    | raised =>
      obtain ⟨free, rfl⟩ := next
      exact Point.owes_nothing free
    | done =>
      obtain rfl := next
      apply setOwner_follows rfl
      exact accepted_follows (.inr ⟨rfl, rfl, rfl⟩) fun _ => ⟨rfl, rfl⟩

theorem consume_follows (asked : p.held = true → req.question ≠ none) :
    (consume taskId policy req).Follows (protocol taskId) p := by
  refine ⟨trivial, fun granted p' next => ?_⟩
  obtain ⟨grants, rfl⟩ := next
  cases (granted : Bool) with
  | false => exact fun held => absurd (grants held) Bool.false_ne_true
  | true =>
    refine ⟨trivial, fun cached p' next => ?_⟩
    obtain rfl := next
    cases (cached : Option Cached) with
    | none => exact create_follows asked
    | some cached => exact createFromCache_follows cached asked

theorem acquire_follows {idemKey : String} (free : p.held = false) (asked : req.question ≠ none) :
    (acquire taskId policy req idemKey).Follows (protocol taskId) p := by
  have ends : p.held = true → p.saved = true ∧ p.owned = true :=
    Point.owes_nothing free
  refine ⟨trivial, fun existing p' next => ?_⟩
  cases (existing : Attempt (Option String)) with
  | raised =>
    obtain rfl := next
    exact ends
  | done existing =>
    cases existing with
    | some id =>
      obtain rfl := next
      exact accepted_follows (.inl List.mem_cons_self) ends
    | none =>
      obtain ⟨-, rfl⟩ := next
      refine ⟨⟨rfl, free⟩, fun acquired p' next => ?_⟩
      cases (acquired : Attempt Bool) with
      | raised =>
        obtain ⟨-, rfl⟩ := next
        exact ends
      | done acquired =>
        cases acquired with
        | true =>
          obtain rfl := next
          exact consume_follows fun _ => asked
        | false =>
          obtain rfl := next
          refine ⟨trivial, fun winner p' next => ?_⟩
          cases (winner : Attempt (Option String)) with
          | raised =>
            obtain rfl := next
            exact ends
          | done winner =>
            cases winner with
            | some id =>
              obtain rfl := next
              exact accepted_follows (.inl List.mem_cons_self) ends
            | none => exact absurd rfl next.1

theorem submit_follows (free : p.held = false) :
    (submit digest taskId policy req).Follows (protocol taskId) p := by
  have ends : p.held = true → p.saved = true ∧ p.owned = true :=
    Point.owes_nothing free
  have asked : p.held = true → req.question ≠ none :=
    Point.owes_nothing free
  unfold submit
  by_cases permitted : dbAllowed policy req.dbId = true
  · rw [if_pos permitted]
    refine ⟨trivial, fun allowed p' next => ?_⟩
    obtain rfl := next
    cases (allowed : Bool) with
    | false => exact ends
    | true =>
      refine ⟨trivial, fun allowed p' next => ?_⟩
      obtain rfl := next
      cases (allowed : Bool) with
      | false => exact ends
      | true =>
        cases req.idempotencyKey with
        | none => exact consume_follows asked
        | some key =>
          by_cases blank : isBlank key = true
          · simp only [blank]
            exact consume_follows asked
          · simp only [blank]
            cases question : req.question with
            | none => exact ends
            | some q => exact acquire_follows free (by simp [question])
  · rw [if_neg permitted]
    exact ends

def World.keyed (w : World) (taskId : String) : Prop := taskId ∈ w.keys.map Prod.snd

instance (w : World) (taskId : String) : Decidable (w.keyed taskId) :=
  inferInstanceAs (Decidable (taskId ∈ w.keys.map Prod.snd))

/-- The task has a stored state and an owner. -/
structure Backed (w : World) (taskId : String) : Prop where
  state : taskId ∈ w.states.map Prod.fst
  owner : taskId ∈ w.owners.map Prod.fst

/-- A request that has taken its key is neither rejected by the quota nor stopped by an
exception before state and owner are stored, nor does one take the key and raise. -/
def Completes (w : World) (d : Desc) (e : Effect) (r : e.Answer) : Prop :=
  match e, r with
  | .idempotentTryAcquire _ _, r => r ≠ Attempt.raised true
  | .tryConsume _ _, granted => w.keyed d.taskId → granted = true
  | .create .., r => w.keyed d.taskId → r = Attempt.done ()
  | .createFromCache .., r => w.keyed d.taskId → r = Attempt.done ()
  | .setOwner _ _, r => w.keyed d.taskId → r ≠ Attempt.raised false
  | _, _ => True

/-- What a request's point says of the world. -/
structure At (w : World) (taskId : String) (p : Point) : Prop where
  held : p.held = true ↔ w.keyed taskId
  saved : p.saved = true → taskId ∈ w.states.map Prod.fst
  owned : p.owned = true → taskId ∈ w.owners.map Prod.fst
  known : ∀ id ∈ p.known, w.keyed id
  lost : ∀ key, p.lost = some key → w.keys.lookup key ≠ none

theorem keyed_of_lookup {w : World} {key id : String} (found : w.keys.lookup key = some id) :
    w.keyed id :=
  List.mem_map_of_mem (mem_of_lookup found)

/-- An effect adds keys, states and owners under the id it names, and no others. -/
structure Extends (w w' : World) (taskId : String) : Prop where
  keyed : ∀ id, w.keyed id → w'.keyed id
  new : ∀ id, w'.keyed id → w.keyed id ∨ id = taskId
  lookup : ∀ key, w.keys.lookup key ≠ none → w'.keys.lookup key ≠ none
  states : ∀ id ∈ w.states.map Prod.fst, id ∈ w'.states.map Prod.fst
  owners : ∀ id ∈ w.owners.map Prod.fst, id ∈ w'.owners.map Prod.fst

theorem extends_same (w : World) (taskId : String) (returned used : List String) :
    Extends w { w with returned := returned, used := used } taskId :=
  ⟨fun _ keyed => keyed, fun _ keyed => .inl keyed, fun _ found => found, fun _ member => member,
    fun _ member => member⟩

theorem after_extends {w : World} {c : Choice} {e : Effect} (allowed : (protocol taskId).allows p e) :
    Extends w (w.after c e) taskId := by
  have same : Extends w w taskId := extends_same w taskId w.returned w.used
  cases e with
  | idempotentTryAcquire key id =>
    obtain ⟨rfl, -⟩ := allowed
    by_cases taken : c.runs ∧ w.keys.lookup key = none
    · simp only [World.after, taken]
      refine ⟨fun id keyed => List.mem_cons_of_mem _ keyed, fun other keyed => ?_, fun k found => ?_,
        same.states, same.owners⟩
      · rcases List.mem_cons.mp keyed with new | old
        · exact .inr new
        · exact .inl old
      · change List.lookup k ((key, id) :: w.keys) ≠ none
        rw [List.lookup_cons]
        split
        · simp
        · exact found
    · simp only [World.after, taken]
      exact same
  | create id question dbId databaseUrl =>
    cases runs : c.runs with
    | false => simpa [World.after, runs] using same
    | true =>
      simp only [World.after, runs, if_true]
      exact ⟨same.keyed, same.new, same.lookup, fun _ member => List.mem_cons_of_mem _ member, same.owners⟩
  | createFromCache id question dbId cached =>
    cases runs : c.runs with
    | false => simpa [World.after, runs] using same
    | true =>
      simp only [World.after, runs, if_true]
      exact ⟨same.keyed, same.new, same.lookup, fun _ member => List.mem_cons_of_mem _ member, same.owners⟩
  | setOwner id userTag =>
    cases runs : c.runs with
    | false => simpa [World.after, runs] using same
    | true =>
      simp only [World.after, runs, if_true]
      exact ⟨same.keyed, same.new, same.lookup, same.states, fun _ member => List.mem_cons_of_mem _ member⟩
  | accepted id => exact extends_same w taskId _ w.used
  | _ => exact same

/-- The facts about a request stay true when its own key is not touched. -/
theorem At.frame {w w' : World} {other : String} (at_ : At w taskId p) (extends_ : Extends w w' other)
    (apart : w'.keyed taskId → w.keyed taskId) : At w' taskId p where
  held := at_.held.trans ⟨extends_.keyed taskId, apart⟩
  saved saved := extends_.states taskId (at_.saved saved)
  owned owned := extends_.owners taskId (at_.owned owned)
  known id member := extends_.keyed id (at_.known id member)
  lost key lost := extends_.lookup key (at_.lost key lost)

theorem At.stored {w : World} {s : JavaTaskState.TaskState} (at_ : At w taskId p) :
    At (w.store taskId s) taskId { p with saved := true } :=
  ⟨at_.held, fun _ => List.mem_cons_self, at_.owned, at_.known, at_.lost⟩

/-- Storing the state either goes through, or raises for a request without a key. -/
theorem At.saving {w : World} {c : Choice} {s : JavaTaskState.TaskState} (at_ : At w taskId p)
    (completes : w.keyed taskId → c.attempt () = Attempt.done ()) :
    ∃ p', (c.attempt () = Attempt.done () ∧ p' = { p with saved := true } ∨
      ∃ carriedOut, c.attempt () = Attempt.raised carriedOut ∧ p.held = false ∧ p' = p) ∧
      At (if c.runs then w.store taskId s else w) taskId p' := by
  by_cases raises : c.raises = true
  · have failed : c.attempt () = Attempt.raised c.carriedOut := attempt_raises raises
    have free : p.held = false := by
      rw [failed] at completes
      exact Bool.eq_false_iff.mpr fun held => nomatch completes (at_.held.mp held)
    refine ⟨p, .inr ⟨_, failed, free, rfl⟩, ?_⟩
    split
    · exact ⟨at_.held, fun saved => List.mem_cons_of_mem _ (at_.saved saved), at_.owned, at_.known,
        at_.lost⟩
    · exact at_
  · have runs : c.runs = true := by simp [Choice.runs, raises]
    refine ⟨_, .inl ⟨attempt_done raises, rfl⟩, ?_⟩
    rw [if_pos runs]
    exact at_.stored

theorem At.owner {w : World} {userTag : String} (at_ : At w taskId p) :
    At { w with owners := (taskId, userTag) :: w.owners } taskId { p with owned := true } :=
  ⟨at_.held, at_.saved, fun _ => List.mem_cons_self, at_.known, at_.lost⟩

section Advance

variable {w : World} {c : Choice} {d : Desc}

/-- A read of a key makes its id known. -/
theorem At.read (at_ : At w d.taskId p) (key : String) :
    ∃ p', (protocol d.taskId).next p (.idempotentGet key) (reply w c (.idempotentGet key)) p' ∧
      At w d.taskId p' := by
  by_cases raises : c.raises = true
  · rw [show reply w c (.idempotentGet key) = Attempt.raised c.carriedOut from attempt_raises raises]
    exact ⟨p, rfl, at_⟩
  · rw [show reply w c (.idempotentGet key) = Attempt.done (w.keys.lookup key) from
      attempt_done raises]
    cases found : w.keys.lookup key with
    | none => exact ⟨p, ⟨fun lost => at_.lost key lost found, rfl⟩, at_⟩
    | some id =>
      refine ⟨_, rfl, at_.held, at_.saved, at_.owned, ?_, at_.lost⟩
      intro other member
      rcases List.mem_cons.mp member with rfl | old
      · exact keyed_of_lookup found
      · exact at_.known other old

/-- A request that takes its key holds it; one that finds it taken remembers that. -/
theorem At.acquire {key id : String} (at_ : At w d.taskId p)
    (allowed : (protocol d.taskId).allows p (.idempotentTryAcquire key id))
    (completes : Completes w d (.idempotentTryAcquire key id)
      (reply w c (.idempotentTryAcquire key id))) :
    ∃ p', (protocol d.taskId).next p (.idempotentTryAcquire key id)
        (reply w c (.idempotentTryAcquire key id)) p' ∧
      At (w.after c (.idempotentTryAcquire key id)) d.taskId p' := by
  have extended : Extends w (w.after c (.idempotentTryAcquire key id)) d.taskId :=
    after_extends allowed
  obtain ⟨rfl, free⟩ := allowed
  by_cases raises : c.raises = true
  · have failed : reply w c (.idempotentTryAcquire key d.taskId) = Attempt.raised c.carriedOut :=
      attempt_raises raises
    have dropped : c.carriedOut = false := by
      rw [failed] at completes
      cases out : c.carriedOut with
      | false => rfl
      | true => exact absurd (by rw [out]) completes
    have same : w.after c (.idempotentTryAcquire key d.taskId) = w := by
      simp [World.after, Choice.runs, raises, dropped]
    rw [failed, same]
    exact ⟨p, ⟨dropped, rfl⟩, at_⟩
  · have runs : c.runs = true := by simp [Choice.runs, raises]
    cases found : w.keys.lookup key with
    | none =>
      have acquired : reply w c (.idempotentTryAcquire key d.taskId) = Attempt.done true :=
        (attempt_done raises).trans (by rw [found]; rfl)
      have taken : w.after c (.idempotentTryAcquire key d.taskId) =
          { w with keys := (key, d.taskId) :: w.keys } := by
        simp [World.after, runs, found]
      rw [acquired]
      refine ⟨_, rfl, ?_⟩
      rw [taken] at extended ⊢
      refine ⟨?_, at_.saved, at_.owned, ?_, ?_⟩
      · simp [World.keyed]
      · exact fun id member => extended.keyed id (at_.known id member)
      · exact fun k lost => extended.lookup k (at_.lost k lost)
    | some winner =>
      have occupied : reply w c (.idempotentTryAcquire key d.taskId) = Attempt.done false :=
        (attempt_done raises).trans (by rw [found]; rfl)
      have same : w.after c (.idempotentTryAcquire key d.taskId) = w := by
        simp [World.after, found]
      rw [occupied, same]
      refine ⟨_, rfl, at_.held, at_.saved, at_.owned, at_.known, ?_⟩
      intro k lost
      obtain rfl := Option.some.inj lost
      simp [found]

/-- The owner is stored, or the command raises for a request without a key. -/
theorem At.owning {userTag : String} (at_ : At w d.taskId p)
    (completes : Completes w d (.setOwner d.taskId userTag)
      (reply w c (.setOwner d.taskId userTag))) :
    ∃ p', (protocol d.taskId).next p (.setOwner d.taskId userTag)
        (reply w c (.setOwner d.taskId userTag)) p' ∧
      At (w.after c (.setOwner d.taskId userTag)) d.taskId p' := by
  by_cases raises : c.raises = true
  · have failed : reply w c (.setOwner d.taskId userTag) = Attempt.raised c.carriedOut :=
      attempt_raises raises
    rw [failed] at completes ⊢
    cases out : c.carriedOut with
    | true =>
      have runs : c.runs = true := by simp [Choice.runs, out]
      refine ⟨_, rfl, ?_⟩
      simp only [World.after, runs, if_true]
      exact at_.owner
    | false =>
      rw [out] at completes
      have free : p.held = false :=
        Bool.eq_false_iff.mpr fun held => completes (at_.held.mp held) rfl
      have dropped : c.runs = false := by simp [Choice.runs, raises, out]
      refine ⟨p, ⟨free, rfl⟩, ?_⟩
      simp only [World.after, dropped]
      exact at_
  · have runs : c.runs = true := by simp [Choice.runs, raises]
    rw [show reply w c (.setOwner d.taskId userTag) = Attempt.done () from attempt_done raises]
    refine ⟨_, rfl, ?_⟩
    simp only [World.after, runs, if_true]
    exact at_.owner

theorem At.step {e : Effect} (at_ : At w d.taskId p) (allowed : (protocol d.taskId).allows p e)
    (completes : Completes w d e (reply w c e)) :
    ∃ p', (protocol d.taskId).next p e (reply w c e) p' ∧ At (w.after c e) d.taskId p' := by
  cases e with
  | allowGlobal => exact ⟨p, rfl, at_⟩
  | allowUser => exact ⟨p, rfl, at_⟩
  | cacheGet => exact ⟨p, rfl, at_⟩
  | publishSubmitted => exact ⟨p, rfl, at_⟩
  | tryConsume userTag dailyQuota =>
    exact ⟨p, ⟨fun held => completes (at_.held.mp held), rfl⟩, at_⟩
  | accepted id => exact ⟨p, rfl, at_.frame (after_extends (c := c) allowed) fun keyed => keyed⟩
  | idempotentGet key => exact at_.read key
  | idempotentTryAcquire key id => exact at_.acquire allowed completes
  | create id question dbId databaseUrl =>
    obtain rfl := allowed
    let state := JavaTaskState.create d.taskId question dbId databaseUrl c.now
    obtain ⟨p', ⟨done, rfl⟩ | ⟨carriedOut, failed, free, rfl⟩, after⟩ :=
      at_.saving (s := state) completes
    · rw [show reply w c (.create d.taskId question dbId databaseUrl) = Attempt.done () from done]
      exact ⟨_, rfl, after⟩
    · rw [show reply w c (.create d.taskId question dbId databaseUrl) = Attempt.raised carriedOut
        from failed]
      exact ⟨_, ⟨free, rfl⟩, after⟩
  | createFromCache id question dbId cached =>
    obtain rfl := allowed
    let state := JavaTaskState.createFromCache d.taskId question dbId c.now cached.sql
      cached.execResult cached.tokenUsage cached.nodeTimings
    obtain ⟨p', ⟨done, rfl⟩ | ⟨carriedOut, failed, free, rfl⟩, after⟩ :=
      at_.saving (s := state) completes
    · rw [show reply w c (.createFromCache d.taskId question dbId cached) = Attempt.done () from done]
      exact ⟨_, rfl, after⟩
    · rw [show reply w c (.createFromCache d.taskId question dbId cached) =
        Attempt.raised carriedOut from failed]
      exact ⟨_, ⟨free, rfl⟩, after⟩
  | setOwner id userTag =>
    obtain rfl := allowed
    exact at_.owning completes

end Advance

/-- Ids that hold a key are in use; a returned id holds one or is backed. -/
structure Owed (w : World) : Prop where
  used : ∀ id, w.keyed id → id ∈ w.used
  returned : ∀ id ∈ w.returned, w.keyed id ∨ Backed w id

theorem after_used (w : World) (c : Choice) (e : Effect) : (w.after c e).used = w.used := by
  cases e <;> simp only [World.after] <;> first | rfl | (split <;> rfl)

theorem after_returned (w : World) (c : Choice) (e : Effect) : (w.after c e).returned =
    match e with
    | .accepted id => id :: w.returned
    | _ => w.returned := by
  cases e <;> simp only [World.after] <;> first | rfl | (split <;> rfl)

theorem owed_after {w : World} {c : Choice} {d : Desc} {e : Effect} (owed : Owed w)
    (at_ : At w d.taskId p) (inUse : d.taskId ∈ w.used) (allowed : (protocol d.taskId).allows p e) :
    Owed (w.after c e) := by
  have extended : Extends w (w.after c e) d.taskId := after_extends allowed
  have kept (id : String) (before : w.keyed id ∨ Backed w id) :
      (w.after c e).keyed id ∨ Backed (w.after c e) id :=
    before.imp (extended.keyed id) fun backed =>
      ⟨extended.states id backed.state, extended.owners id backed.owner⟩
  constructor
  · intro id keyed
    rw [after_used]
    rcases extended.new id keyed with old | rfl
    · exact owed.used id old
    · exact inUse
  · intro id member
    rw [after_returned] at member
    cases e with
    | accepted other =>
      rcases List.mem_cons.mp member with rfl | old
      · rcases allowed with known | ⟨rfl, saved, owned⟩
        · exact kept id (.inl (at_.known id known))
        · exact kept _ (.inr ⟨at_.saved saved, at_.owned owned⟩)
      · exact kept id (owed.returned id old)
    | _ => exact kept id (owed.returned id member)

/-- A request's id is in use, and what it has left to do fits how far it has come. -/
def Underway (w : World) (t : Thread Effect Effect.Answer Desc) : Prop :=
  t.desc.taskId ∈ w.used ∧
    ∃ p, t.rest.Follows (protocol t.desc.taskId) p ∧ At w t.desc.taskId p

def obligations (digest : String → String) : Threads.Outline (system digest) Completes where
  inv := Owed
  ok := Underway
  apart d d' := d.taskId ≠ d'.taskId
  own {w c d e k _ _ _} owed underway completes performed := by
    obtain ⟨rfl, rfl, rfl⟩ := by simpa [system] using performed
    obtain ⟨inUse, p, ⟨allowed, later⟩, at_⟩ := underway
    obtain ⟨p', next, after⟩ := at_.step allowed completes
    refine ⟨owed_after owed at_ inUse allowed, ⟨?_, p', later _ p' next, after⟩, by simp⟩
    rw [after_used]
    exact inUse
  stable {w c d e k _ _ _ t} _ underway _ performed other apart := by
    obtain ⟨rfl, rfl, rfl⟩ := by simpa [system] using performed
    obtain ⟨-, p, ⟨allowed, -⟩, -⟩ := underway
    obtain ⟨inUse, q, follows, at_⟩ := other
    have extended : Extends w (w.after c e) d.taskId := after_extends allowed
    refine ⟨?_, q, follows, at_.frame extended ?_⟩
    · rw [after_used]
      exact inUse
    · intro keyed
      exact (extended.new _ keyed).resolve_right apart.2
  fork_apart {w c d e k _ _ _} _ _ performed := by
    obtain ⟨rfl, rfl, rfl⟩ := by simpa [system] using performed
    simp
  arrive {w d w'} owed arrived := by
    obtain ⟨fresh, same⟩ := Option.ite_none_left_eq_some.mp arrived
    obtain rfl := Option.some.inj same
    have unkeyed : ¬ w.keyed d.taskId := fun keyed => fresh (owed.used _ keyed)
    refine ⟨⟨?_, ?_⟩, ⟨List.mem_cons_self, {}, submit_follows rfl, ?_⟩, ?_⟩
    · exact fun id keyed => List.mem_cons_of_mem _ (owed.used id keyed)
    · intro id member
      exact (owed.returned id member).imp (fun keyed => keyed) fun backed => ⟨backed.1, backed.2⟩
    · refine ⟨⟨?_, ?_⟩, ?_, ?_, ?_, ?_⟩
      · exact fun held => absurd held (by decide)
      · exact fun keyed => absurd keyed unkeyed
      · exact fun saved => absurd saved (by decide)
      · exact fun owned => absurd owned (by decide)
      · exact fun id member => absurd member (by simp)
      · exact fun key lost => absurd lost (by simp)
    · intro t underway
      obtain ⟨inUse, p, follows, at_⟩ := underway
      have different : t.desc.taskId ≠ d.taskId := fun same => fresh (same ▸ inUse)
      refine ⟨⟨List.mem_cons_of_mem _ inUse, p, follows, ?_⟩, different, different.symm⟩
      exact ⟨at_.held, at_.saved, at_.owned, at_.known, at_.lost⟩
  ambient {_ x _} _ _ := nomatch x

/-- Every id in use belongs to a request of the pool. -/
def Tracked (c : Config Effect Effect.Answer World Desc) : Prop :=
  ∀ id ∈ c.world.used, id ∈ (c.pool.map Thread.desc).map Desc.taskId

theorem tracked_step {c c' : Config Effect Effect.Answer World Desc}
    {event : Event Desc Choice Empty} (tracked : Tracked c)
    (stepped : (system digest).machine.step c event = some c') : Tracked c' := by
  rcases Threads.step_cases stepped with
    ⟨pid, choice, d, e, k, w, r, forks, rfl, fetched, performed, rfl⟩ |
    ⟨d, w, rfl, arrived, rfl⟩ | ⟨x, _⟩
  · obtain ⟨rfl, rfl, rfl⟩ := by simpa [system] using performed
    intro id member
    change id ∈ (c.world.after choice e).used at member
    rw [after_used] at member
    change id ∈ ((c.pool.set pid ⟨d, k _⟩ ++ []).map Thread.desc).map Desc.taskId
    rw [List.append_nil, Threads.Outline.desc_set fetched]
    exact tracked id member
  · obtain ⟨-, same⟩ := Option.ite_none_left_eq_some.mp arrived
    obtain rfl := Option.some.inj same
    intro id member
    rw [List.map_append, List.map_append, List.mem_append]
    rcases List.mem_cons.mp member with rfl | old
    · exact .inr (by simp [Threads.start])
    · exact .inl (tracked id old)
  · exact x.elim

/-- No submit is in progress. -/
def Idle (c : Config Effect Effect.Answer World Desc) : Prop := ∀ t ∈ c.pool, t.rest.ended = true

/-- When no submit is in progress, every id that was returned, and every id that a key
leads to, has a stored state and an owner, if each request that took a key went through. -/
theorem returned_backed {events : List (Event Desc Choice Empty)}
    {c : Config Effect Effect.Answer World Desc}
    (completes : (system digest).machine.Along ((system digest).Meets Completes) start events)
    (run : (system digest).machine.exec start events = some c) (idle : Idle c) :
    ∀ id, id ∈ c.world.returned ∨ c.world.keyed id → Backed c.world id := by
  have holds := (obligations digest).run
    ((obligations digest).holds_empty ⟨by simp [World.keyed], by simp⟩) completes run
  have tracked : Tracked c :=
    Machine.invariant Tracked (fun _ _ _ tracked stepped => tracked_step tracked stepped)
      (by simp [Tracked, start]) run
  have keyed_backed (id : String) (keyed : c.world.keyed id) : Backed c.world id := by
    obtain ⟨d, member, rfl⟩ := List.mem_map.mp (tracked id (holds.world.used id keyed))
    obtain ⟨t, inPool, rfl⟩ := List.mem_map.mp member
    obtain ⟨-, p, follows, at_⟩ := holds.threads t inPool
    have done := idle t inPool
    cases rest : t.rest with
    | act e k => simp [rest, Prog.ended] at done
    | ret _ =>
      rw [rest] at follows
      obtain ⟨saved, owned⟩ := follows (at_.held.mpr keyed)
      exact ⟨at_.saved saved, at_.owned owned⟩
  rintro id (returned | keyed)
  · rcases holds.world.returned id returned with keyed | backed
    · exact keyed_backed id keyed
    · exact backed
  · exact keyed_backed id keyed

instance (c : Config Effect Effect.Answer World Desc) : Decidable (Idle c) :=
  inferInstanceAs (Decidable (∀ t ∈ c.pool, t.rest.ended = true))

instance (w : World) (d : Desc) : (e : Effect) → (r : e.Answer) → Decidable (Completes w d e r)
  | .idempotentTryAcquire _ _, (r : Attempt Bool) =>
    inferInstanceAs (Decidable (r ≠ Attempt.raised true))
  | .tryConsume _ _, (granted : Bool) =>
    inferInstanceAs (Decidable (w.keyed d.taskId → granted = true))
  | .create .., (r : Attempt Unit) =>
    inferInstanceAs (Decidable (w.keyed d.taskId → r = Attempt.done ()))
  | .createFromCache .., (r : Attempt Unit) =>
    inferInstanceAs (Decidable (w.keyed d.taskId → r = Attempt.done ()))
  | .setOwner _ _, (r : Attempt Unit) =>
    inferInstanceAs (Decidable (w.keyed d.taskId → r ≠ Attempt.raised false))
  | .allowGlobal, _ | .allowUser _ _, _ | .idempotentGet _, _ | .cacheGet _ _, _
  | .publishSubmitted _, _ | .accepted _, _ => isTrue trivial

/-- The hash of `k1:How many orders?`. -/
def hashed (_ : String) : String := "8501ab22c29d580c1fac061a02aaf37b"

def request (taskId : String) : Desc :=
  ⟨taskId, ⟨"local_user", ["*"], 10, 100⟩, ⟨some "How many orders?", none, none, some "k1"⟩⟩

/-- A request, and a replay while it has taken the key and not gone on. -/
def replayed : List (Event Desc Choice Empty) :=
  [.arrive (request "t1"), .run 0 {}, .run 0 {}, .run 0 {}, .run 0 {}, .arrive (request "t2"),
    .run 1 {}, .run 1 {}, .run 1 {}, .run 1 {}, .run 0 {}, .run 0 {}, .run 0 {}, .run 0 {},
    .run 0 {}, .run 0 {}]

theorem returned_backed_replayed :
    ∃ c, (system hashed).machine.exec start replayed = some c ∧
      c.world.returned = ["t1","t1"] ∧ Backed c.world "t1" := by
  have ends : ((system hashed).machine.exec start replayed).any (fun c =>
      Idle c ∧ c.world.returned = ["t1","t1"]) = true := by decide
  obtain ⟨c, run, final⟩ := (Option.any_eq_true _ _).mp ends
  obtain ⟨idle, returned⟩ := of_decide_eq_true final
  have backed := returned_backed (by decide) run idle "t1" (.inl (by simp [returned]))
  exact ⟨c, run, returned, backed⟩

/-- The quota rejects the request that took the key; then the key is used again. -/
def rejected : List (Event Desc Choice Empty) :=
  [.arrive (request "t1"), .run 0 {}, .run 0 {}, .run 0 {}, .run 0 {}, .run 0 { allowed := false },
    .arrive (request "t2"), .run 1 {}, .run 1 {}, .run 1 {}, .run 1 {}]

theorem replay_returns_missing_task :
    ∃ c, (system hashed).machine.exec start rejected = some c ∧ Idle c ∧
      "t1" ∈ c.world.returned ∧ c.world.states = [] ∧ c.world.owners = [] ∧
      ¬ Backed c.world "t1" := by
  have ends : ((system hashed).machine.exec start rejected).any (fun c =>
      Idle c ∧ "t1" ∈ c.world.returned ∧ c.world.states.map Prod.fst = [] ∧ c.world.owners = []) =
      true := by decide
  obtain ⟨c, run, final⟩ := (Option.any_eq_true _ _).mp ends
  obtain ⟨idle, returned, states, owners⟩ := of_decide_eq_true final
  refine ⟨c, run, idle, returned, List.map_eq_nil_iff.mp states, owners, ?_⟩
  intro backed
  have state := backed.state
  rw [states] at state
  exact List.not_mem_nil state

end GatewaySubmit
end Nl2SqlAgent

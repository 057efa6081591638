import Mathlib.Logic.Equiv.Basic
import Nl2SqlAgent.GatewaySubmit

/-! The idempotency keys of the gateway's `submit` and of `task_submit` in the API, which
share one Redis, for any number of requests in any order: which requests can be answered
with one task id. Here the keys also expire. -/
namespace Nl2SqlAgent

open Lib

namespace IdempotentReplay

/-- A submit to the API, with the id that it draws for a new task. -/
structure ApiRequest where
  taskId : String
  question : String
  dbId : Option String
  databaseUrl : Option String
  idempotencyKey : Option String
  deriving DecidableEq, Repr

inductive ApiEffect where
  | idempotentCheck (key : String)
  | idempotentSet (key taskId : String)
  | taskCreate (taskId question dbId databaseUrl : String)
  | publish (taskId : String)
  | respond (taskId : String)

def ApiEffect.Answer : ApiEffect → Type
  | .idempotentCheck _ => GatewaySubmit.Attempt (Option String)
  | .idempotentSet _ _ => GatewaySubmit.Attempt Unit
  | .taskCreate .. => GatewaySubmit.Attempt Unit
  | .publish _ => Bool
  | .respond _ => Unit

abbrev ApiTask := Prog ApiEffect ApiEffect.Answer

def ask (e : ApiEffect) : ApiTask e.Answer := Prog.perform e

def respond (taskId : String) : ApiTask Unit := ask (.respond taskId)

/-- The client's key and what is kept of the question, if the request has a key. -/
def ApiRequest.parts (r : ApiRequest) : Option (String × String) :=
  match r.idempotencyKey with
  | some key => if key = "" then none else some (key, Py.take 80 r.question)
  | none => none

/-- `f"{req.idempotency_key}:{req.question[:80]}"`. -/
def text (parts : String × String) : String := parts.1 ++ ":" ++ parts.2

/-- From the state of a new task on; what `broker.publish` reports is ignored. -/
def create (r : ApiRequest) : ApiTask Unit := do
  match ← ask (.taskCreate r.taskId r.question (r.dbId.getD "") (r.databaseUrl.getD "")) with
  | .raised _ => pure ()
  | .done _ =>
    let _ ← ask (.publish r.taskId)
    respond r.taskId

/-- A task that is known is answered, else the key is taken. -/
def checked (digest : String → String) (r : ApiRequest) (parts : String × String)
    (existing : Option String) : ApiTask Unit :=
  if Py.truthy existing then respond (existing.getD "")
  else do
    match ← ask (.idempotentSet (digest (text parts)) r.taskId) with
    | .raised _ => pure ()
    | .done _ => create r

def taskSubmit (digest : String → String) (r : ApiRequest) : ApiTask Unit :=
  match r.parts with
  | none => create r
  | some parts => do
    match ← ask (.idempotentCheck (digest (text parts))) with
    | .raised _ => pure ()
    | .done existing => checked digest r parts existing

inductive Desc where
  | gateway (d : GatewaySubmit.Desc)
  | api (r : ApiRequest)
  deriving DecidableEq, Repr

def Desc.taskId : Desc → String
  | .gateway d => d.taskId
  | .api r => r.taskId

def Desc.parts : Desc → Option (String × String)
  | .gateway d =>
    match d.request.idempotencyKey, d.request.question with
    | some key, some question =>
      if GatewaySubmit.isBlank key then none
      else some (key, .ofList (JavaTaskState.utf16Prefix 80 question.toList))
    | _, _ => none
  | .api r => r.parts

/-- What comes after `idempotent:` in the key of the request. -/
def Desc.key (digest : String → String) (d : Desc) : Option String :=
  d.parts.map fun parts => digest (text parts)

/-- A command, and the request that it belongs to. -/
inductive Effect where
  | gateway (d : GatewaySubmit.Desc) (e : GatewaySubmit.Effect)
  | api (r : ApiRequest) (e : ApiEffect)

def Effect.Answer : Effect → Type
  | .gateway _ e => e.Answer
  | .api _ e => e.Answer

/-- `connected`: the API has a Redis client. -/
structure Choice extends GatewaySubmit.Choice where
  connected : Bool := true
  published : Bool := true

/-- The requests and their answers are not kept by the code. -/
structure World where
  redis : GatewaySubmit.World
  requests : List Desc
  answers : List (Desc × String)

def apiAfter (redis : GatewaySubmit.World) (c : Choice) : ApiEffect → GatewaySubmit.World
  | .idempotentSet key taskId =>
    if c.connected ∧ c.runs then { redis with keys := (key, taskId) :: redis.keys } else redis
  | .taskCreate taskId question dbId databaseUrl =>
    if c.connected ∧ c.runs then
      { redis with
        states := (taskId, TaskStore.taskCreate taskId question dbId databaseUrl c.now) :: redis.states }
    else redis
  | _ => redis

def apiReply (redis : GatewaySubmit.World) (c : Choice) : (e : ApiEffect) → e.Answer
  | .idempotentCheck key => if c.connected then c.attempt (redis.keys.lookup key) else .done none
  | .idempotentSet _ _ => if c.connected then c.attempt () else .done ()
  | .taskCreate .. => if c.connected then c.attempt () else .done ()
  | .publish _ => c.published
  | .respond _ => ()

def reply (w : World) (c : Choice) : (e : Effect) → e.Answer
  | .gateway _ e => GatewaySubmit.reply w.redis c.toChoice e
  | .api _ e => apiReply w.redis c e

/-- The answer that the effect gives to its request. -/
def Effect.answers : Effect → Option (Desc × String)
  | .gateway d (.accepted id) => some (.gateway d, id)
  | .api r (.respond id) => some (.api r, id)
  | _ => none

def World.after (w : World) (c : Choice) (e : Effect) : World where
  redis :=
    match e with
    | .gateway _ e => w.redis.after c.toChoice e
    | .api _ e => apiAfter w.redis c e
  requests := w.requests
  answers := e.answers.toList ++ w.answers

def body (digest : String → String) : Desc → Prog Effect Effect.Answer Unit
  | .gateway d =>
    (GatewaySubmit.submit digest d.taskId d.policy d.request).embed (.gateway d) fun _ r => r
  | .api r => (taskSubmit digest r).embed (.api r) fun _ answer => answer

/-- Ids are new. The ambient moves are the keys that expire. -/
def system (digest : String → String) : Threads Effect Effect.Answer World Desc Choice String where
  body := body digest
  perform w c e := some (w.after c e, reply w c e, [])
  arrive w d :=
    if d.taskId ∈ w.requests.map Desc.taskId then none
    else some { w with requests := d :: w.requests }
  ambient w key :=
    some { w with redis := { w.redis with keys := w.redis.keys.filter fun entry => entry.1 ≠ key } }

def start : Config Effect Effect.Answer World Desc := ⟨⟨⟨[], [], [], [], []⟩, [], []⟩, []⟩

/-- The key that the effect looks up. -/
def Effect.looksUp : Effect → Option String
  | .gateway _ (.idempotentGet key) => some key
  | .api _ (.idempotentCheck key) => some key
  | _ => none

/-- The key that the effect may take, and for which id. -/
def Effect.takes : Effect → Option (String × String)
  | .gateway _ (.idempotentTryAcquire key taskId) => some (key, taskId)
  | .api _ (.idempotentSet key taskId) => some (key, taskId)
  | _ => none

/-- The id that a lookup found. -/
def found : (e : Effect) → e.Answer → Option String
  | .gateway _ (.idempotentGet _), .done existing => existing
  | .api _ (.idempotentCheck _), .done existing => existing
  | _, _ => none

/-- A request looks up and takes its own key only, takes it for its own id, and answers
that id or one that it has found. -/
def protocol (digest : String → String) (d : Desc) :
    Prog.Protocol Effect Effect.Answer (List String) where
  allows known e :=
    (∀ key, e.looksUp = some key → d.key digest = some key) ∧
    (∀ key id, e.takes = some (key, id) → d.key digest = some key ∧ id = d.taskId) ∧
    ∀ other id, e.answers = some (other, id) → other = d ∧ (id ∈ known ∨ id = d.taskId)
  next known e r known' := known' = (found e r).toList ++ known
  final _ := True

section Gateway

variable {digest : String → String} {d : GatewaySubmit.Desc} {known : List String}

/-- The protocol of a submit to the gateway, on the gateway's effects. -/
abbrev gatewayProtocol (digest : String → String) (d : GatewaySubmit.Desc) :
    Prog.Protocol GatewaySubmit.Effect GatewaySubmit.Effect.Answer (List String) :=
  (protocol digest (.gateway d)).comap (Effect.gateway d) fun _ r => r

theorem quiet_allowed {e : GatewaySubmit.Effect} (looks : (Effect.gateway d e).looksUp = none)
    (takes : (Effect.gateway d e).takes = none) (answers : (Effect.gateway d e).answers = none) :
    (gatewayProtocol digest d).allows known e := by
  simp [Prog.Protocol.comap, protocol, looks, takes, answers]

theorem lookup_allowed {key : String} (own : (Desc.gateway d).key digest = some key) :
    (gatewayProtocol digest d).allows known (.idempotentGet key) := by
  simp [Prog.Protocol.comap, protocol, Effect.looksUp, Effect.takes, Effect.answers, own]

theorem take_allowed {key : String} (own : (Desc.gateway d).key digest = some key) :
    (gatewayProtocol digest d).allows known (.idempotentTryAcquire key d.taskId) := by
  simp [Prog.Protocol.comap, protocol, Effect.looksUp, Effect.takes, Effect.answers, own, Desc.taskId]

theorem accepted_follows {id : String} (may : id ∈ known ∨ id = d.taskId) :
    (GatewaySubmit.ask (.accepted id)).Follows (gatewayProtocol digest d) known := by
  refine ⟨?_, fun _ _ _ => trivial⟩
  simpa [Prog.Protocol.comap, protocol, Effect.looksUp, Effect.takes, Effect.answers, Desc.taskId]
    using may

theorem setOwner_follows {userTag : String} {rest : Unit → GatewaySubmit.Task Unit}
    (later : (rest ()).Follows (gatewayProtocol digest d) known) :
    (GatewaySubmit.orFail (GatewaySubmit.ask (.setOwner d.taskId userTag)) rest).Follows
      (gatewayProtocol digest d) known := by
  refine ⟨quiet_allowed rfl rfl rfl, fun _ known' next => ?_⟩
  obtain ⟨owned, rfl, rfl⟩ := next
  cases (owned : GatewaySubmit.Attempt Unit) with
  | raised => trivial
  | done => exact later

theorem create_follows : (GatewaySubmit.create d.taskId d.policy d.request).Follows
    (gatewayProtocol digest d) known := by
  unfold GatewaySubmit.create
  cases d.request.question with
  | none => trivial
  | some question =>
    refine ⟨quiet_allowed rfl rfl rfl, fun _ known' next => ?_⟩
    obtain ⟨saved, rfl, rfl⟩ := next
    cases (saved : GatewaySubmit.Attempt Unit) with
    | raised => trivial
    | done =>
      apply setOwner_follows
      refine ⟨quiet_allowed rfl rfl rfl, fun _ known' next => ?_⟩
      obtain ⟨published, rfl, rfl⟩ := next
      cases (published : GatewaySubmit.Attempt Unit) with
      | raised => trivial
      | done => exact accepted_follows (.inr rfl)

theorem createFromCache_follows (cached : GatewaySubmit.Cached) :
    (GatewaySubmit.createFromCache d.taskId d.policy d.request cached).Follows
      (gatewayProtocol digest d) known := by
  unfold GatewaySubmit.createFromCache
  cases d.request.question with
  | none => trivial
  | some question =>
    refine ⟨quiet_allowed rfl rfl rfl, fun _ known' next => ?_⟩
    obtain ⟨saved, rfl, rfl⟩ := next
    cases (saved : GatewaySubmit.Attempt Unit) with
    | raised => trivial
    | done =>
      apply setOwner_follows
      exact accepted_follows (.inr rfl)

theorem consume_follows : (GatewaySubmit.consume d.taskId d.policy d.request).Follows
    (gatewayProtocol digest d) known := by
  refine ⟨quiet_allowed rfl rfl rfl, fun _ known' next => ?_⟩
  obtain ⟨granted, rfl, rfl⟩ := next
  cases (granted : Bool) with
  | false => trivial
  | true =>
    refine ⟨quiet_allowed rfl rfl rfl, fun _ known' next => ?_⟩
    obtain ⟨cached, rfl, rfl⟩ := next
    cases (cached : Option GatewaySubmit.Cached) with
    | none => exact create_follows
    | some cached => exact createFromCache_follows cached

theorem acquire_follows {key : String} (own : (Desc.gateway d).key digest = some key) :
    (GatewaySubmit.acquire d.taskId d.policy d.request key).Follows
      (gatewayProtocol digest d) known := by
  refine ⟨lookup_allowed own, fun _ known' next => ?_⟩
  obtain ⟨existing, rfl, rfl⟩ := next
  cases (existing : GatewaySubmit.Attempt (Option String)) with
  | raised => trivial
  | done existing =>
    cases existing with
    | some id => exact accepted_follows (.inl List.mem_cons_self)
    | none =>
      refine ⟨take_allowed own, fun _ known' next => ?_⟩
      obtain ⟨acquired, rfl, rfl⟩ := next
      cases (acquired : GatewaySubmit.Attempt Bool) with
      | raised => trivial
      | done acquired =>
        cases acquired with
        | true => exact consume_follows
        | false =>
          refine ⟨lookup_allowed own, fun _ known' next => ?_⟩
          obtain ⟨winner, rfl, rfl⟩ := next
          cases (winner : GatewaySubmit.Attempt (Option String)) with
          | raised => trivial
          | done winner =>
            cases winner with
            | some id => exact accepted_follows (.inl List.mem_cons_self)
            | none => exact accepted_follows (.inr rfl)

theorem submit_follows : (GatewaySubmit.submit digest d.taskId d.policy d.request).Follows
    (gatewayProtocol digest d) known := by
  unfold GatewaySubmit.submit
  by_cases permitted : GatewaySubmit.dbAllowed d.policy d.request.dbId = true
  · rw [if_pos permitted]
    refine ⟨quiet_allowed rfl rfl rfl, fun _ known' next => ?_⟩
    obtain ⟨allowed, rfl, rfl⟩ := next
    cases (allowed : Bool) with
    | false => trivial
    | true =>
      refine ⟨quiet_allowed rfl rfl rfl, fun _ known' next => ?_⟩
      obtain ⟨allowed, rfl, rfl⟩ := next
      cases (allowed : Bool) with
      | false => trivial
      | true =>
        cases asked : d.request.idempotencyKey with
        | none => exact consume_follows
        | some key =>
          by_cases blank : GatewaySubmit.isBlank key = true
          · simp only [blank]
            exact consume_follows
          · simp only [blank]
            cases question : d.request.question with
            | none => trivial
            | some question' =>
              have own : (Desc.gateway d).key digest =
                  some (GatewaySubmit.idempotencyKey digest key question') := by
                simp only [Desc.key, Desc.parts, asked, question, blank]
                rfl
              exact acquire_follows own
  · rw [if_neg permitted]
    trivial

end Gateway

section Api

variable {digest : String → String} {r : ApiRequest} {known : List String}

/-- The protocol of a submit to the API, on the API's effects. -/
abbrev apiProtocol (digest : String → String) (r : ApiRequest) :
    Prog.Protocol ApiEffect ApiEffect.Answer (List String) :=
  (protocol digest (.api r)).comap (Effect.api r) fun _ answer => answer

theorem respond_follows {id : String} (may : id ∈ known ∨ id = r.taskId) :
    (respond id).Follows (apiProtocol digest r) known := by
  refine ⟨?_, fun _ _ _ => trivial⟩
  simpa [Prog.Protocol.comap, protocol, Effect.looksUp, Effect.takes, Effect.answers, Desc.taskId]
    using may

theorem apiCreate_follows : (create r).Follows (apiProtocol digest r) known := by
  have quiet (e : ApiEffect) (looks : (Effect.api r e).looksUp = none)
      (takes : (Effect.api r e).takes = none) (answers : (Effect.api r e).answers = none) :
      (apiProtocol digest r).allows known e := by
    simp [Prog.Protocol.comap, protocol, looks, takes, answers]
  refine ⟨quiet _ rfl rfl rfl, fun _ known' next => ?_⟩
  obtain ⟨saved, rfl, rfl⟩ := next
  cases (saved : GatewaySubmit.Attempt Unit) with
  | raised => trivial
  | done =>
    refine ⟨quiet _ rfl rfl rfl, fun _ known' next => ?_⟩
    obtain ⟨published, rfl, rfl⟩ := next
    exact respond_follows (.inr rfl)

theorem checked_follows {parts : String × String} {existing : Option String}
    (own : (Desc.api r).key digest = some (digest (text parts)))
    (may : ∀ id, existing = some id → id ∈ known) :
    (checked digest r parts existing).Follows (apiProtocol digest r) known := by
  unfold checked
  by_cases answered : Py.truthy existing = true
  · rw [if_pos answered]
    cases existing with
    | none => contradiction
    | some id => exact respond_follows (.inl (may id rfl))
  · rw [if_neg answered]
    refine ⟨?_, fun _ known' next => ?_⟩
    · simp [Prog.Protocol.comap, protocol, Effect.looksUp, Effect.takes, Effect.answers, own,
        Desc.taskId]
    · obtain ⟨taken, rfl, rfl⟩ := next
      cases (taken : GatewaySubmit.Attempt Unit) with
      | raised => trivial
      | done => exact apiCreate_follows

theorem taskSubmit_follows : (taskSubmit digest r).Follows (apiProtocol digest r) known := by
  unfold taskSubmit
  cases split : r.parts with
  | none => exact apiCreate_follows
  | some parts =>
    have own : (Desc.api r).key digest = some (digest (text parts)) := by
      simp only [Desc.key, Desc.parts, split, Option.map_some]
    refine ⟨?_, fun _ known' next => ?_⟩
    · simp [Prog.Protocol.comap, protocol, Effect.looksUp, Effect.takes, Effect.answers, own]
    · obtain ⟨existing, rfl, rfl⟩ := next
      cases (existing : GatewaySubmit.Attempt (Option String)) with
      | raised => trivial
      | done existing =>
        apply checked_follows own
        rintro id rfl
        exact List.mem_cons_self

end Api

theorem body_follows (digest : String → String) (d : Desc) :
    (body digest d).Follows (protocol digest d) [] := by
  cases d with
  | gateway d => exact Prog.follows_embed _ _ submit_follows
  | api r => exact Prog.follows_embed _ _ taskSubmit_follows

/-- The request whose id is found under the key of `d`. -/
def Shares (digest : String → String) (w : World) (d : Desc) (id : String) : Prop :=
  ∃ winner ∈ w.requests, winner.taskId = id ∧ ∃ key, winner.key digest = some key ∧
    d.key digest = some key

/-- Every key belongs to a request that computed it, ids are distinct, and what was
answered is the request's own id or that of one with the same key. -/
structure Keyed (digest : String → String) (w : World) : Prop where
  keys : ∀ key id, (key, id) ∈ w.redis.keys → ∃ d ∈ w.requests, d.taskId = id ∧
    d.key digest = some key
  distinct : ∀ d ∈ w.requests, ∀ d' ∈ w.requests, d.taskId = d'.taskId → d = d'
  answers : ∀ d id, (d, id) ∈ w.answers → d ∈ w.requests ∧ (id = d.taskId ∨ Shares digest w d id)

/-- A request under way, with the ids that it knows. -/
def Underway (digest : String → String) (w : World) (t : Thread Effect Effect.Answer Desc) : Prop :=
  t.desc ∈ w.requests ∧ ∃ known, t.rest.Follows (protocol digest t.desc) known ∧
    ∀ id ∈ known, Shares digest w t.desc id

theorem after_keys {w : World} {c : Choice} {e : Effect} {key id : String}
    (member : (key, id) ∈ (w.after c e).redis.keys) :
    (key, id) ∈ w.redis.keys ∨ e.takes = some (key, id) := by
  cases e with
  | gateway d e =>
    cases e with
    | idempotentTryAcquire other id' =>
      simp only [World.after, GatewaySubmit.World.after] at member
      split at member
      · rcases List.mem_cons.mp member with new | old
        · exact .inr (by rw [new]; rfl)
        · exact .inl old
      · exact .inl member
    | _ =>
      refine .inl ?_
      simp only [World.after, GatewaySubmit.World.after, GatewaySubmit.World.store] at member
      first
        | exact member
        | (split at member <;> exact member)
  | api r e =>
    cases e with
    | idempotentSet other id' =>
      simp only [World.after, apiAfter] at member
      split at member
      · rcases List.mem_cons.mp member with new | old
        · exact .inr (by rw [new]; rfl)
        · exact .inl old
      · exact .inl member
    | _ =>
      refine .inl ?_
      simp only [World.after, apiAfter] at member
      first
        | exact member
        | (split at member <;> exact member)

/-- What a lookup finds is an entry of the key it looks up. -/
theorem found_keyed {w : World} {c : Choice} {e : Effect} {id : String}
    (finds : found e (reply w c e) = some id) :
    ∃ key, e.looksUp = some key ∧ (key, id) ∈ w.redis.keys := by
  cases e with
  | gateway d e =>
    cases e with
    | idempotentGet key =>
      have read : GatewaySubmit.reply w.redis c.toChoice (.idempotentGet key) =
          c.attempt (w.redis.keys.lookup key) := rfl
      refine ⟨key, rfl, mem_of_lookup ?_⟩
      simp only [reply, read, GatewaySubmit.Choice.attempt] at finds
      split at finds
      · contradiction
      · exact finds
    | _ => contradiction
  | api r e =>
    cases e with
    | idempotentCheck key =>
      by_cases connected : c.connected = true
      · have read : apiReply w.redis c (.idempotentCheck key) =
            c.attempt (w.redis.keys.lookup key) := if_pos connected
        refine ⟨key, rfl, mem_of_lookup ?_⟩
        simp only [reply, read, GatewaySubmit.Choice.attempt] at finds
        split at finds
        · contradiction
        · exact finds
      · have read : apiReply w.redis c (.idempotentCheck key) = GatewaySubmit.Attempt.done none :=
          if_neg connected
        simp only [reply, read] at finds
        contradiction
    | _ => contradiction

theorem Shares.mono {digest : String → String} {w w' : World} {d : Desc} {id : String}
    (shares : Shares digest w d id) (more : ∀ r ∈ w.requests, r ∈ w'.requests) :
    Shares digest w' d id := by
  obtain ⟨winner, member, named, key, same⟩ := shares
  exact ⟨winner, more winner member, named, key, same⟩

/-- An effect that its request is allowed keeps the world's part of the outline. -/
theorem keyed_after {digest : String → String} {w : World} {c : Choice} {d : Desc} {e : Effect}
    {known : List String} (keyed : Keyed digest w) (member : d ∈ w.requests)
    (allowed : (protocol digest d).allows known e) (knows : ∀ id ∈ known, Shares digest w d id) :
    Keyed digest (w.after c e) := by
  obtain ⟨-, takes, answers⟩ := allowed
  refine ⟨?_, keyed.distinct, ?_⟩
  · intro key id entry
    rcases after_keys entry with old | new
    · exact keyed.keys key id old
    · obtain ⟨own, rfl⟩ := takes key id new
      exact ⟨d, member, rfl, own⟩
  · intro other id answer
    rcases List.mem_append.mp answer with new | old
    · obtain ⟨rfl, may⟩ := answers other id (Option.mem_toList.mp new)
      refine ⟨member, ?_⟩
      rcases may with found | own
      · exact .inr (knows id found)
      · exact .inl own
    · exact keyed.answers other id old

def replays (digest : String → String) :
    Threads.Outline (system digest) fun _ _ _ _ => True where
  inv := Keyed digest
  ok := Underway digest
  apart _ _ := True
  own {w c d e k _ _ _} keyed underway _ performed := by
    obtain ⟨rfl, rfl, rfl⟩ := by simpa [system] using performed
    obtain ⟨member, known, ⟨allowed, later⟩, knows⟩ := underway
    refine ⟨keyed_after keyed member allowed knows, ⟨member, _, later _ _ rfl, ?_⟩, by simp⟩
    intro id finds
    rcases List.mem_append.mp finds with new | old
    · obtain ⟨key, looked, entry⟩ := found_keyed (Option.mem_toList.mp new)
      obtain ⟨winner, inRequests, named, same⟩ := keyed.keys key id entry
      exact ⟨winner, inRequests, named, key, same, allowed.1 key looked⟩
    · exact knows id old
  stable {w c d e k _ _ _ t} _ _ _ performed other _ := by
    obtain ⟨rfl, rfl, rfl⟩ := by simpa [system] using performed
    exact other
  fork_apart {w c d e k _ _ _} _ _ performed := by
    obtain ⟨rfl, rfl, rfl⟩ := by simpa [system] using performed
    simp
  arrive {w d w'} keyed arrived := by
    obtain ⟨fresh, same⟩ := Option.ite_none_left_eq_some.mp arrived
    obtain rfl := Option.some.inj same
    have more (r : Desc) (member : r ∈ w.requests) : r ∈ d :: w.requests :=
      List.mem_cons_of_mem _ member
    have unused (r : Desc) (member : r ∈ w.requests) : r.taskId ≠ d.taskId :=
      fun same => fresh (List.mem_map.mpr ⟨r, member, same⟩)
    refine ⟨⟨?_, ?_, ?_⟩, ⟨List.mem_cons_self, [], body_follows digest d, by simp⟩, ?_⟩
    · intro key id entry
      obtain ⟨r, member, owns⟩ := keyed.keys key id entry
      exact ⟨r, more r member, owns⟩
    · intro r member r' member' ids
      rcases List.mem_cons.mp member with rfl | old <;> rcases List.mem_cons.mp member' with rfl | old'
      · rfl
      · exact absurd ids.symm (unused r' old')
      · exact absurd ids (unused r old)
      · exact keyed.distinct r old r' old' ids
    · intro r id answer
      obtain ⟨member, answered⟩ := keyed.answers r id answer
      exact ⟨more r member, answered.imp_right fun shares => shares.mono more⟩
    · rintro t ⟨member, known, follows, knows⟩
      exact ⟨⟨more _ member, known, follows, fun id found => (knows id found).mono more⟩, trivial,
        trivial⟩
  ambient {w key w'} keyed moved := by
    obtain rfl := Option.some.inj moved
    refine ⟨⟨?_, keyed.distinct, keyed.answers⟩, fun t underway => underway⟩
    intro key id entry
    exact keyed.keys key id (List.mem_filter.mp entry).1

/-- Two texts of keys without a separator of their own agree part by part. -/
theorem text_parts {parts parts' : String × String} (same : text parts = text parts')
    (plain : ':' ∉ parts.1.toList) (plain' : ':' ∉ parts'.1.toList) : parts = parts' := by
  have chars : parts.1.toList ++ ':' :: parts.2.toList = parts'.1.toList ++ ':' :: parts'.2.toList := by
    simpa [text] using congrArg String.toList same
  obtain ⟨keys, rests⟩ := Py.separated_inj chars plain plain'
  exact Prod.ext (String.toList_inj.mp keys) (String.toList_inj.mp rests)

/-- The key of a request is the hash of its text. -/
theorem same_text {digest : String → String} {d d' : Desc} {key : String}
    (injective : Function.Injective digest) (first : d.key digest = some key)
    (second : d'.key digest = some key) :
    ∃ parts parts', d.parts = some parts ∧ d'.parts = some parts' ∧ text parts = text parts' ∧
      (':' ∉ parts.1.toList → ':' ∉ parts'.1.toList → parts = parts') := by
  obtain ⟨parts, has, hashed⟩ := Option.map_eq_some_iff.mp first
  obtain ⟨parts', has', hashed'⟩ := Option.map_eq_some_iff.mp second
  have same : text parts = text parts' := injective (hashed.trans hashed'.symm)
  exact ⟨parts, parts', has, has', same, text_parts same⟩

/-- Two requests that are answered with one id are the same or hash the same text; keys
without a colon are then equal, and so is what is kept of the questions. -/
theorem replay_same_text {digest : String → String} {events : List (Event Desc Choice String)}
    {c : Config Effect Effect.Answer World Desc} (injective : Function.Injective digest)
    (run : (system digest).machine.exec start events = some c) :
    ∀ d d' id, (d, id) ∈ c.world.answers → (d', id) ∈ c.world.answers →
      d = d' ∨ ∃ parts parts', d.parts = some parts ∧ d'.parts = some parts' ∧
        text parts = text parts' ∧
        (':' ∉ parts.1.toList → ':' ∉ parts'.1.toList → parts = parts') := by
  have initially : Keyed digest start.world := by
    constructor <;> simp [start]
  have holds := (replays digest).run ((replays digest).holds_empty initially)
    (Machine.along_true.mono fun _ _ _ _ => (system digest).meets_true _ _ _) run
  have keyed : Keyed digest c.world := holds.world
  intro d d' id answer answer'
  obtain ⟨member, answered⟩ := keyed.answers d id answer
  obtain ⟨member', answered'⟩ := keyed.answers d' id answer'
  rcases answered with rfl | ⟨winner, inRequests, named, key, first, second⟩
  · rcases answered' with own | ⟨winner, inRequests, named, key, first, second⟩
    · exact .inl (keyed.distinct d member d' member' own)
    · obtain rfl := keyed.distinct winner inRequests d member named
      exact .inr (same_text injective first second)
  · rcases answered' with rfl | ⟨winner', inRequests', named', key', first', second'⟩
    · obtain rfl := keyed.distinct winner inRequests d' member' named
      exact .inr (same_text injective second first)
    · obtain rfl := keyed.distinct winner inRequests winner' inRequests' (named.trans named'.symm)
      have one : key = key' := Option.some.inj (first.symm.trans first')
      exact .inr (same_text injective second (one ▸ second'))

def question : String :=
  "List the names of all customers who ordered something in the last thirty days,"

/-- The hash of `k:a:` and the question. -/
def hashed : String → String := Equiv.swap ("k:a:" ++ question) "9f77304483ddbcd9710d0491e2a59087"

def alice : GatewaySubmit.Desc :=
  ⟨"t1", ⟨"alice", ["sales"], 10, 100⟩, ⟨some question, some "sales", none, some "k:a"⟩⟩

/-- Another user, key, database and question, with the same text. -/
def bob : GatewaySubmit.Desc :=
  ⟨"t2", ⟨"bob", ["*"], 10, 100⟩, ⟨some ("a:" ++ question ++ " and of those in the last year"),
    some "crm", some "sqlite:///crm.db", some "k"⟩⟩

/-- One request after the other. -/
def answeredAlike : List (Event Desc Choice String) :=
  .arrive (.gateway alice) :: List.replicate 10 (.run 0 {}) ++
    .arrive (.gateway bob) :: List.replicate 4 (.run 1 {})

theorem replay_same_text_answered :
    ∃ c, (system hashed).machine.exec start answeredAlike = some c ∧
      c.world.answers = [(.gateway bob, "t1"), (.gateway alice, "t1")] ∧
      ∃ parts parts', (Desc.gateway alice).parts = some parts ∧
        (Desc.gateway bob).parts = some parts' ∧ text parts = text parts' := by
  have ends : ((system hashed).machine.exec start answeredAlike).any (fun c =>
      c.world.answers = [(.gateway bob, "t1"), (.gateway alice, "t1")]) = true := by decide +kernel
  obtain ⟨c, run, final⟩ := (Option.any_eq_true _ _).mp ends
  have answers := of_decide_eq_true final
  have same := replay_same_text (Equiv.injective _) run (.gateway alice) (.gateway bob) "t1"
    (by simp [answers]) (by simp [answers])
  rcases same with equal | ⟨parts, parts', first, second, texts, -⟩
  · exact absurd equal (by decide +kernel)
  · exact ⟨c, run, answers, parts, parts', first, second, texts⟩

theorem replay_other_request :
    ∃ c, (system hashed).machine.exec start answeredAlike = some c ∧
      (.gateway alice, "t1") ∈ c.world.answers ∧ (.gateway bob, "t1") ∈ c.world.answers ∧
      alice.policy.userTag ≠ bob.policy.userTag ∧
      alice.request.idempotencyKey ≠ bob.request.idempotencyKey ∧
      alice.request.question ≠ bob.request.question ∧ alice.request.dbId ≠ bob.request.dbId ∧
      alice.request.databaseUrl ≠ bob.request.databaseUrl := by
  have ends : ((system hashed).machine.exec start answeredAlike).any (fun c =>
      c.world.answers = [(.gateway bob, "t1"), (.gateway alice, "t1")]) = true := by decide +kernel
  obtain ⟨c, run, final⟩ := (Option.any_eq_true _ _).mp ends
  have answers := of_decide_eq_true final
  refine ⟨c, run, by simp [answers], by simp [answers], ?_, ?_, ?_, ?_, ?_⟩ <;> decide +kernel

end IdempotentReplay
end Nl2SqlAgent

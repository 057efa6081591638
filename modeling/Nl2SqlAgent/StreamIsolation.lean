import Nl2SqlAgent.TaskStream

/-! Whom the streams tell of a task. The ownership test is left out where the task is
missing and is not made again, so what matters is who listens when a task appears. -/
namespace Nl2SqlAgent

open Lib

namespace TaskStream

open GatewaySubmit (Attempt)

/-- The request makes its user the owner of the task. -/
def gives (taskId userTag : String) : IdempotentReplay.Desc → Bool
  | .gateway d => d.taskId = taskId ∧ d.policy.userTag = userTag
  | .api _ => false

/-- The stream's user has submitted the task or is an admin. -/
def Entitled (w : World) (c : Connection) : Prop :=
  c.policy.isAdmin = true ∨ ∃ d ∈ w.submits.requests, gives c.taskId c.policy.userTag d = true

instance (w : World) (c : Connection) : Decidable (Entitled w c) :=
  inferInstanceAs (Decidable (_ ∨ ∃ d ∈ w.submits.requests, _))

def carriedOut : Attempt α → Bool
  | .raised false => false
  | _ => true

/-- The task whose state the effect writes. -/
def written : (e : Effect) → e.Answer → Option String
  | .submit (.gateway _ (.create taskId ..)), r =>
    if carriedOut (r : Attempt Unit) then some taskId else none
  | .submit (.gateway _ (.createFromCache taskId ..)), r =>
    if carriedOut (r : Attempt Unit) then some taskId else none
  | .submit (.api _ (.taskCreate taskId ..)), r =>
    if carriedOut (r : Attempt Unit) then some taskId else none
  | .work (.save taskId doc), _ => if (JavaTaskState.decode doc).isSome then some taskId else none
  | _, _ => none

/-- The task of which the effect publishes a token. -/
def publishes : Effect → Option String
  | .work (.publishToken taskId _) => some taskId
  | _ => none

/-- Nobody else listens to a task that appears, unless already told that it is missing,
or to a token that is published. -/
def Unobserved (w : World) (_ : Desc) (e : Effect) (r : e.Answer) : Prop :=
  (∀ taskId ∈ written e r, (w.state taskId).isNone = true →
    ∀ c ∈ w.unchecked, c.taskId = taskId → Entitled w c) ∧
  ∀ taskId ∈ publishes e, ∀ c ∈ w.subscribed, c.taskId = taskId → Entitled w c

instance (w : World) (d : Desc) (e : Effect) (r : e.Answer) : Decidable (Unobserved w d e r) :=
  inferInstanceAs (Decidable (_ ∧ _))

/-- How far the stream of a user who is not entitled has come; `told` that the task is
missing, it gives no more than that. -/
inductive Point where
  | fresh
  | asking
  | opened (told : Bool)
  | ended

/-- Such a stream is refused, or finds the task missing and tells nothing of it. -/
def protocol (userTag : String) : Prog.Protocol Command Command.Answer Point where
  allows
    | .fresh, .check => True
    | .asking, .owner => True
    | .opened _, .emit event => event.reveals = false
    | .opened _, .check => False
    | .opened _, .owner => False
    | .opened _, _ => True
    | .ended, .reject _ _ => True
    | _, _ => False
  next
    | .fresh, .check, .done none, p' => p' = .opened false
    | .fresh, .check, .done (some _), p' => p' = .asking
    | .asking, .owner, .done owner, p' => owner ≠ some userTag ∧ p' = .ended
    | .opened _, .subscribe, false, p' => p' = .ended
    | .opened _, .close, _, p' => p' = .ended
    | .opened told, .poll, token, p' => token = none ∧ p' = .opened told
    | .opened _, .get, .done none, p' => p' = .opened true
    | .opened told, .get, .done (some _), p' => told = true ∧ p' = .opened told
    | .opened told, .wait, r, p' => (∀ text, r ≠ .token text) ∧ p' = .opened told
    | p, _, _, p' => p' = p
  final _ := True

section Follows

variable {userTag : String} {policy : PolicyInterceptor.Policy}

theorem close_follows (told : Bool) : close.Follows (protocol userTag) (.opened told) :=
  ⟨trivial, fun _ _ _ => trivial⟩

theorem pollStatus_told {cursor cursor' : EventCursor} {read : Option JavaTaskState.TaskState}
    (polled : pollStatus read cursor = some cursor') (missed : read = none ∨ cursor.notFound = true) :
    cursor'.notFound = true := by
  cases read with
  | none =>
    obtain rfl := Option.some.inj polled
    rfl
  | some s =>
    obtain ⟨updatedAt, -, rfl⟩ := Option.map_eq_some_iff.mp polled
    rcases missed with absent | told
    · contradiction
    · exact told

theorem take_told {cursor : EventCursor} (told : cursor.notFound = true) :
    cursor.take = (some (.error "Task not found"), cursor) := if_pos told

/-- Once told that the task is missing, a stream can only say so. -/
theorem awaited_follows {again : EventCursor → Stream Unit} {polled : Option EventCursor}
    (told : ∀ cursor ∈ polled, cursor.notFound = true)
    (later : ∀ cursor, cursor.notFound = true →
      (again cursor).Follows (protocol userTag) (.opened true)) :
    (awaited polled >>= relay again).Follows (protocol userTag) (.opened true) := by
  cases polled with
  | none => exact close_follows true
  | some cursor =>
    refine ⟨trivial, fun waited p next => ?_⟩
    obtain ⟨tokenless, rfl⟩ := next
    cases (waited : Waited) with
    | token text => exact absurd rfl (tokenless text)
    | nothing =>
      change (relay again (some cursor.take)).Follows (protocol userTag) (.opened true)
      rw [take_told (told cursor rfl)]
      refine ⟨rfl, fun written p next => ?_⟩
      obtain rfl := next
      cases (written : Bool) <;> exact close_follows true
    | interrupted => exact later cursor (told cursor rfl)

theorem deliver_follows (rounds : Nat) (cursor : EventCursor) :
    (deliver rounds cursor).Follows (protocol userTag) (.opened cursor.notFound) := by
  induction rounds generalizing cursor with
  | zero => exact ⟨rfl, fun _ _ next => next ▸ close_follows _⟩
  | succ rounds ih =>
    refine ⟨trivial, fun token p next => ?_⟩
    obtain ⟨rfl, rfl⟩ := next
    refine ⟨trivial, fun read p next => ?_⟩
    cases (read : Attempt (Option JavaTaskState.TaskState)) with
    | raised carriedOut =>
      obtain rfl := next
      exact close_follows cursor.notFound
    | done read =>
      obtain ⟨rfl, missed⟩ : p = .opened true ∧ (read = none ∨ cursor.notFound = true) := by
        cases read with
        | none => exact ⟨next, .inl rfl⟩
        | some s =>
          obtain ⟨told, rfl⟩ := next
          exact ⟨by rw [told], .inr told⟩
      apply awaited_follows
      · exact fun cursor' polled => pollStatus_told polled missed
      · intro cursor' told
        have later := ih cursor'
        rwa [told] at later

theorem opened_follows (rounds : Nat) :
    (opened rounds).Follows (protocol userTag) (.opened false) := by
  refine ⟨trivial, fun subscribed p next => ?_⟩
  cases (subscribed : Bool) with
  | false => trivial
  | true =>
    obtain rfl := next
    exact deliver_follows rounds {}

theorem stream_follows (rounds : Nat) (plain : policy.isAdmin = false) :
    (stream policy rounds).Follows (protocol policy.userTag) .fresh := by
  refine ⟨trivial, fun read p next => ?_⟩
  cases (read : Attempt (Option JavaTaskState.TaskState)) with
  | raised carriedOut => trivial
  | done read =>
    cases read with
    | none =>
      obtain rfl := next
      exact opened_follows rounds
    | some s =>
      obtain rfl := next
      simp only [plain]
      refine ⟨trivial, fun owner p next => ?_⟩
      cases (owner : Attempt (Option String)) with
      | raised carriedOut => trivial
      | done owner =>
        obtain ⟨other, rfl⟩ := next
        change (if owner = some policy.userTag then opened rounds else refuse).Follows
          (protocol policy.userTag) .ended
        rw [if_neg other]
        exact ⟨trivial, fun _ _ _ => trivial⟩

end Follows

/-- The submit registers its own task for its own user. -/
def Registers (d : IdempotentReplay.Desc) : Effect → Prop
  | .submit (.gateway _ (.setOwner taskId userTag)) => gives taskId userTag d = true
  | .submit _ => True
  | _ => False

section Registers

variable {d : GatewaySubmit.Desc}

/-- The effects of a submit to the gateway that registers its own task. -/
abbrev Own (d : GatewaySubmit.Desc) (e : GatewaySubmit.Effect) : Prop :=
  Registers (.gateway d) (.submit (.gateway d e))

theorem orFail_own {attempt : GatewaySubmit.Task (Attempt α)} {rest : α → GatewaySubmit.Task Unit}
    (first : attempt.Emits (Own d)) (later : ∀ a, (rest a).Emits (Own d)) :
    (GatewaySubmit.orFail attempt rest).Emits (Own d) := by
  apply Prog.emits_bind _ _ _ first
  intro outcome
  cases outcome with
  | done a => exact later a
  | raised carriedOut => trivial

theorem ask_own {e : GatewaySubmit.Effect} (own : Own d e) :
    (GatewaySubmit.ask e).Emits (Own d) := Prog.emits_perform _ e own

theorem setOwner_own {rest : Unit → GatewaySubmit.Task Unit}
    (later : ∀ a, (rest a).Emits (Own d)) :
    (GatewaySubmit.orFail (GatewaySubmit.ask (.setOwner d.taskId d.policy.userTag)) rest).Emits
      (Own d) := by
  have own : Own d (.setOwner d.taskId d.policy.userTag) := decide_eq_true ⟨rfl, rfl⟩
  exact orFail_own (ask_own own) later

theorem create_own : (GatewaySubmit.create d.taskId d.policy d.request).Emits (Own d) := by
  unfold GatewaySubmit.create
  cases d.request.question with
  | none => trivial
  | some question =>
    refine orFail_own (ask_own trivial) fun _ => ?_
    apply setOwner_own
    intro _
    exact orFail_own (ask_own trivial) fun _ => ask_own trivial

theorem createFromCache_own (cached : GatewaySubmit.Cached) :
    (GatewaySubmit.createFromCache d.taskId d.policy d.request cached).Emits (Own d) := by
  unfold GatewaySubmit.createFromCache
  cases d.request.question with
  | none => trivial
  | some question =>
    refine orFail_own (ask_own trivial) fun _ => ?_
    exact setOwner_own fun _ => ask_own trivial

theorem consume_own : (GatewaySubmit.consume d.taskId d.policy d.request).Emits (Own d) := by
  refine ⟨trivial, fun granted => ?_⟩
  cases (granted : Bool) with
  | false => trivial
  | true =>
    refine ⟨trivial, fun cached => ?_⟩
    cases (cached : Option GatewaySubmit.Cached) with
    | none => exact create_own
    | some cached => exact createFromCache_own cached

theorem acquire_own (idemKey : String) :
    (GatewaySubmit.acquire d.taskId d.policy d.request idemKey).Emits (Own d) := by
  refine orFail_own (ask_own trivial) fun existing => ?_
  cases existing with
  | some existing => exact ask_own trivial
  | none =>
    refine orFail_own (ask_own trivial) fun acquired => ?_
    cases acquired with
    | true => exact consume_own
    | false => exact orFail_own (ask_own trivial) fun _ => ask_own trivial

theorem submit_own (digest : String → String) :
    (GatewaySubmit.submit digest d.taskId d.policy d.request).Emits (Own d) := by
  unfold GatewaySubmit.submit
  by_cases permitted : GatewaySubmit.dbAllowed d.policy d.request.dbId = true
  · rw [if_pos permitted]
    refine ⟨trivial, fun allowed => ?_⟩
    cases (allowed : Bool) with
    | false => trivial
    | true =>
      refine ⟨trivial, fun allowed => ?_⟩
      cases (allowed : Bool) with
      | false => trivial
      | true =>
        cases d.request.idempotencyKey with
        | none => exact consume_own
        | some key =>
          by_cases blank : GatewaySubmit.isBlank key = true
          · simp only [blank]
            exact consume_own
          · simp only [blank]
            cases d.request.question with
            | none => trivial
            | some question => exact acquire_own _
  · rw [if_neg permitted]
    trivial

end Registers

theorem body_registers (digest : String → String) (d : IdempotentReplay.Desc) :
    (body digest (.submit d)).Emits (Registers d) := by
  apply Prog.emits_embed
  cases d with
  | gateway d => exact Prog.emits_embed _ _ (submit_own digest)
  | api r => exact Prog.emits_embed _ _ (Prog.emits_of_all (fun _ => trivial) _)

section After

variable {w : World} {ch : Choice} {e : Effect}

theorem after_requests (w : World) (ch : Choice) (e : Effect) :
    (w.after ch e).submits.requests = w.submits.requests := by
  rcases e with e | ⟨c, cmd⟩ | work
  · rfl
  · cases cmd <;> rfl
  · cases work <;> rfl

theorem after_connections (w : World) (ch : Choice) (e : Effect) :
    (w.after ch e).connections = w.connections := by
  rcases e with e | ⟨c, cmd⟩ | work
  · rfl
  · cases cmd <;> rfl
  · cases work <;> rfl

theorem Entitled.mono {w' : World} {c : Connection} (entitled : Entitled w c)
    (more : ∀ d ∈ w.submits.requests, d ∈ w'.submits.requests) : Entitled w' c := by
  rcases entitled with admin | ⟨d, member, owns⟩
  · exact .inl admin
  · exact .inr ⟨d, more d member, owns⟩

theorem Entitled.after {c : Connection} (entitled : Entitled w c) : Entitled (w.after ch e) c :=
  entitled.mono (by rw [after_requests]; exact fun _ member => member)

theorem after_owners {taskId userTag : String}
    (member : (taskId, userTag) ∈ (w.after ch e).submits.redis.owners) :
    (taskId, userTag) ∈ w.submits.redis.owners ∨
      ∃ d, e = .submit (.gateway d (.setOwner taskId userTag)) := by
  rcases e with e | ⟨c, cmd⟩ | work
  · rcases e with ⟨d, e⟩ | ⟨r, e⟩
    · cases e with
      | setOwner taskId' userTag' =>
        simp only [World.after, IdempotentReplay.World.after, GatewaySubmit.World.after] at member
        split at member
        · rcases List.mem_cons.mp member with new | old
          · obtain ⟨rfl, rfl⟩ := Prod.mk.inj new
            exact .inr ⟨d, rfl⟩
          · exact .inl old
        · exact .inl member
      | _ =>
        simp only [World.after, IdempotentReplay.World.after, GatewaySubmit.World.after,
          GatewaySubmit.World.store] at member
        first
          | exact .inl member
          | (split at member <;> exact .inl member)
    · cases e with
      | _ =>
        simp only [World.after, IdempotentReplay.World.after, IdempotentReplay.apiAfter] at member
        first
          | exact .inl member
          | (split at member <;> exact .inl member)
  · cases cmd <;> exact .inl member
  · cases work <;> exact .inl member

theorem carriedOut_attempt (c : GatewaySubmit.Choice) (a : α) :
    carriedOut (c.attempt a) = c.runs := by
  unfold GatewaySubmit.Choice.attempt GatewaySubmit.Choice.runs
  cases c.raises <;> cases c.carriedOut <;> rfl

theorem appears_stored {states : List (String × Doc)} {taskId other : String} {doc : Doc}
    (missing : (states.lookup taskId).bind JavaTaskState.decode = none)
    (found : (((other, doc) :: states).lookup taskId).bind JavaTaskState.decode ≠ none) :
    taskId = other ∧ JavaTaskState.decode doc ≠ none := by
  rw [List.lookup_cons] at found
  by_cases same : taskId = other
  · subst same
    rw [beq_self_eq_true] at found
    exact ⟨rfl, found⟩
  · rw [beq_false_of_ne same] at found
    exact absurd missing found

/-- Where a task appears, its state was written. -/
theorem after_state {taskId : String} (missing : w.state taskId = none)
    (found : (w.after ch e).state taskId ≠ none) : written e (reply w ch e) = some taskId := by
  rcases e with e | ⟨c, cmd⟩ | work
  · rcases e with ⟨d, e⟩ | ⟨r, e⟩
    · cases e with
      | create other question dbId databaseUrl =>
        have answered : written _ (reply w ch (.submit (.gateway d
            (.create other question dbId databaseUrl)))) = if ch.runs then some other else none := by
          rw [← carriedOut_attempt ch.toSubmit.toChoice ()]
          rfl
        simp only [World.state, World.after, IdempotentReplay.World.after,
          GatewaySubmit.World.after] at found
        split at found
        next runs => rw [answered, if_pos runs, (appears_stored missing found).1]
        next => exact absurd missing found
      | createFromCache other question dbId cached =>
        have answered : written _ (reply w ch (.submit (.gateway d
            (.createFromCache other question dbId cached)))) =
            if ch.runs then some other else none := by
          rw [← carriedOut_attempt ch.toSubmit.toChoice ()]
          rfl
        simp only [World.state, World.after, IdempotentReplay.World.after,
          GatewaySubmit.World.after] at found
        split at found
        next runs => rw [answered, if_pos runs, (appears_stored missing found).1]
        next => exact absurd missing found
      | _ =>
        simp only [World.state, World.after, IdempotentReplay.World.after,
          GatewaySubmit.World.after] at found
        first
          | exact absurd missing found
          | (split at found <;> exact absurd missing found)
    · cases e with
      | taskCreate other question dbId databaseUrl =>
        simp only [World.state, World.after, IdempotentReplay.World.after,
          IdempotentReplay.apiAfter] at found
        split at found
        next done =>
          obtain ⟨connected, runs⟩ := done
          have answered : IdempotentReplay.apiReply w.submits.redis ch.toSubmit
              (.taskCreate other question dbId databaseUrl) = ch.toSubmit.toChoice.attempt () :=
            if_pos connected
          have carried : carriedOut (IdempotentReplay.apiReply w.submits.redis ch.toSubmit
              (.taskCreate other question dbId databaseUrl) : Attempt Unit) = true := by
            rw [answered, carriedOut_attempt]
            exact runs
          rw [(appears_stored missing found).1]
          exact if_pos carried
        next => exact absurd missing found
      | _ =>
        simp only [World.state, World.after, IdempotentReplay.World.after,
          IdempotentReplay.apiAfter] at found
        first
          | exact absurd missing found
          | (split at found <;> exact absurd missing found)
  · cases cmd <;> exact absurd missing found
  · cases work with
    | save other doc =>
      obtain ⟨rfl, readable⟩ := appears_stored missing found
      exact if_pos (Option.isSome_iff_ne_none.mpr readable)
    | publishToken other text => exact absurd missing found

theorem after_tokens {c : Connection} (some_token : (w.after ch e).tokens c ≠ []) :
    w.tokens c ≠ [] ∨ (publishes e = some c.taskId ∧ c ∈ w.subscribed) := by
  have kept (tokens : Connection → List String) (other : Connection)
      (left : Function.update tokens other (tokens other).tail c ≠ []) : tokens c ≠ [] := by
    by_cases same : c = other
    · subst same
      rw [Function.update_self] at left
      intro empty
      rw [empty] at left
      exact left rfl
    · rwa [Function.update_of_ne same] at left
  rcases e with e | ⟨other, cmd⟩ | work
  · exact .inl some_token
  · cases cmd with
    | poll => exact .inl (kept w.tokens other some_token)
    | wait =>
      change (if ch.interrupted then w.tokens
        else Function.update w.tokens other (w.tokens other).tail) c ≠ [] at some_token
      split at some_token
      · exact .inl some_token
      · exact .inl (kept w.tokens other some_token)
    | _ => exact .inl some_token
  · cases work with
    | save taskId doc => exact .inl some_token
    | publishToken taskId text =>
      change (if c ∈ w.subscribed ∧ c.taskId = taskId then w.tokens c ++ [text]
        else w.tokens c) ≠ [] at some_token
      split at some_token
      · rename_i reached
        exact .inr ⟨by rw [reached.2]; rfl, reached.1⟩
      · exact .inl some_token

theorem after_delivered {c : Connection} {event : SseEvent}
    (member : (c, event) ∈ (w.after ch e).delivered) :
    (c, event) ∈ w.delivered ∨ e = .stream c (.emit event) := by
  rcases e with e | ⟨other, cmd⟩ | work
  · exact .inl member
  · cases cmd with
    | emit event' =>
      change _ ∈ (if ch.gone then w.delivered else (other, event') :: w.delivered) at member
      split at member
      · exact .inl member
      · rcases List.mem_cons.mp member with new | old
        · obtain ⟨rfl, rfl⟩ := Prod.mk.inj new
          exact .inr rfl
        · exact .inl old
    | _ => exact .inl member
  · cases work <;> exact .inl member

/-- Only a stream's own commands take it off the unchecked ones. -/
theorem after_unchecked {c : Connection} (member : c ∈ w.unchecked)
    (other : ∀ cmd, e ≠ .stream c cmd) : c ∈ (w.after ch e).unchecked := by
  rcases e with e | ⟨other', cmd⟩ | work
  · exact member
  · have distinct : c ≠ other' := by
      rintro rfl
      exact other cmd rfl
    have stays : c ∈ w.unchecked.filter (· ≠ other') :=
      List.mem_filter.mpr ⟨member, decide_eq_true distinct⟩
    cases cmd with
    | check =>
      change c ∈ (if w.misses ch other'.taskId then other' :: w.unchecked else w.unchecked)
      split
      · exact List.mem_cons_of_mem _ member
      · exact member
    | subscribe =>
      change c ∈ (if ch.raises then w.unchecked.filter (· ≠ other') else w.unchecked)
      split
      · exact stays
      · exact member
    | get =>
      change c ∈ (if w.misses ch other'.taskId then w.unchecked.filter (· ≠ other')
        else w.unchecked)
      split
      · exact stays
      · exact member
    | close => exact stays
    | _ => exact member
  · cases work <;> exact member

end After

/-- Owner records are those of the submits; events that reveal, and tokens, are with those
who are entitled to them. -/
structure Isolated (w : World) : Prop where
  owners : ∀ taskId userTag, (taskId, userTag) ∈ w.submits.redis.owners →
    ∃ d ∈ w.submits.requests, gives taskId userTag d = true
  tokens : ∀ c, w.tokens c ≠ [] → Entitled w c
  delivered : ∀ c event, (c, event) ∈ w.delivered → event.reveals = true → Entitled w c

/-- Until it is told, an open stream is a listed one, and the task is missing. -/
def At (w : World) (c : Connection) : Point → Prop
  | .opened false => w.state c.taskId = none ∧ c ∈ w.unchecked
  | _ => True

/-- The effects of the stream, as effects of the system. -/
def embedded (c : Connection) (q : Stream Unit) : Prog Effect Effect.Answer Unit :=
  q.embed (.stream c) fun _ r => r

/-- A stream is that of an entitled user, or one that tells nothing. -/
def Harmless (w : World) (c : Connection) (rest : Prog Effect Effect.Answer Unit) : Prop :=
  ∃ q, rest = embedded c q ∧
    (Entitled w c ∨ ∃ p, q.Follows (protocol c.policy.userTag) p ∧ At w c p)

/-- What holds of each thread. -/
def Fine (w : World) (t : Thread Effect Effect.Answer Desc) : Prop :=
  match t.desc with
  | .submit d => d ∈ w.submits.requests ∧ t.rest.Emits (Registers d)
  | .stream c => c ∈ w.connections ∧ Harmless w c t.rest
  | .worker _ => t.rest.Emits fun e => ∃ work, e = .work work

theorem At.kept {w w' : World} {c : Connection} {p : Point} (stage : At w c p)
    (submits : w'.submits = w.submits) (listed : c ∈ w.unchecked → c ∈ w'.unchecked) :
    At w' c p := by
  cases p with
  | opened told =>
    cases told with
    | true => trivial
    | false => exact ⟨by rw [World.state, submits]; exact stage.1, listed stage.2⟩
  | _ => trivial

theorem Harmless.frame {w : World} {ch : Choice} {e : Effect} {d : Desc} {c : Connection}
    {rest : Prog Effect Effect.Answer Unit} (harmless : Harmless w c rest)
    (unobserved : Unobserved w d e (reply w ch e)) (other : ∀ cmd, e ≠ .stream c cmd) :
    Harmless (w.after ch e) c rest := by
  obtain ⟨q, eq, entitled | ⟨p, follows, stage⟩⟩ := harmless
  · exact ⟨q, eq, .inl entitled.after⟩
  · by_cases appears : (w.after ch e).state c.taskId = none
    · refine ⟨q, eq, .inr ⟨p, follows, ?_⟩⟩
      cases p with
      | opened told =>
        cases told with
        | true => trivial
        | false => exact ⟨appears, after_unchecked stage.2 other⟩
      | _ => trivial
    · cases p with
      | opened told =>
        cases told with
        | true => exact ⟨q, eq, .inr ⟨_, follows, trivial⟩⟩
        | false =>
          have listed := unobserved.1 c.taskId (after_state stage.1 appears)
            (by rw [stage.1]; rfl) c stage.2 rfl
          exact ⟨q, eq, .inl listed.after⟩
      | _ => exact ⟨q, eq, .inr ⟨_, follows, trivial⟩⟩

theorem owner_entitled {w : World} {c : Connection} (isolated : Isolated w)
    (owned : w.owner c.taskId = some c.policy.userTag) : Entitled w c :=
  .inr (isolated.owners _ _ (mem_of_lookup owned))

/-- What a read of the state can be answered, and whether it counts as a miss. -/
theorem read_cases (w : World) (ch : Choice) (taskId : String) :
    (∃ carriedOut, ch.attempt (w.state taskId) = .raised carriedOut ∧ w.misses ch taskId = false) ∨
    (ch.attempt (w.state taskId) = .done none ∧ w.state taskId = none ∧
      w.misses ch taskId = true) ∨
    ∃ s, ch.attempt (w.state taskId) = .done (some s) ∧ w.state taskId = some s := by
  by_cases raises : ch.raises = true
  · exact .inl ⟨_, GatewaySubmit.attempt_raises raises, by simp [World.misses, raises]⟩
  · cases read : w.state taskId with
    | none => exact .inr (.inl ⟨GatewaySubmit.attempt_done raises, rfl,
        by simp [World.misses, raises, read]⟩)
    | some s => exact .inr (.inr ⟨s, GatewaySubmit.attempt_done raises, rfl⟩)

theorem advance_fresh (w : World) (ch : Choice) (c : Connection) :
    ∃ p, (protocol c.policy.userTag).next .fresh .check (streamReply w ch c .check) p ∧
      At (streamAfter w ch c .check) c p := by
  rcases read_cases w ch c.taskId with ⟨carriedOut, raised, -⟩ | ⟨answer, missing, missed⟩ |
    ⟨s, answer, -⟩
  · rw [show streamReply w ch c .check = Attempt.raised carriedOut from raised]
    exact ⟨.fresh, rfl, trivial⟩
  · rw [show streamReply w ch c .check = Attempt.done none from answer]
    refine ⟨.opened false, rfl, missing, ?_⟩
    simp only [streamAfter, missed, if_true, List.mem_cons_self]
  · rw [show streamReply w ch c .check = Attempt.done (some s) from answer]
    exact ⟨.asking, rfl, trivial⟩

theorem advance_asking {w : World} (ch : Choice) {c : Connection} (isolated : Isolated w)
    (foreign : ¬ Entitled w c) :
    ∃ p, (protocol c.policy.userTag).next .asking .owner (streamReply w ch c .owner) p ∧
      At (streamAfter w ch c .owner) c p := by
  by_cases raises : ch.raises = true
  · rw [show streamReply w ch c .owner = Attempt.raised _ from GatewaySubmit.attempt_raises raises]
    exact ⟨.asking, rfl, trivial⟩
  · rw [show streamReply w ch c .owner = Attempt.done _ from GatewaySubmit.attempt_done raises]
    exact ⟨.ended, ⟨fun owned => foreign (owner_entitled isolated owned), rfl⟩, trivial⟩

theorem advance_opened {w : World} (ch : Choice) {c : Connection} {told : Bool} {cmd : Command}
    (empty : w.tokens c = []) (allowed : (protocol c.policy.userTag).allows (.opened told) cmd)
    (stage : At w c (.opened told)) :
    ∃ p, (protocol c.policy.userTag).next (.opened told) cmd (streamReply w ch c cmd) p ∧
      At (streamAfter w ch c cmd) c p := by
  cases cmd with
  | check => exact absurd allowed id
  | owner => exact absurd allowed id
  | reject code detail => exact ⟨.opened told, rfl, stage⟩
  | subscribe =>
    cases raises : ch.raises with
    | true => exact ⟨.ended, by simp [protocol, streamReply, raises], trivial⟩
    | false =>
      refine ⟨.opened told, by simp [protocol, streamReply, raises], stage.kept rfl ?_⟩
      simp [streamAfter, raises]
  | poll =>
    refine ⟨.opened told, ⟨?_, rfl⟩, stage.kept rfl id⟩
    change (w.tokens c).head? = none
    rw [empty]
    rfl
  | get =>
    rcases read_cases w ch c.taskId with ⟨carriedOut, raised, hit⟩ | ⟨answer, -, -⟩ |
      ⟨s, answer, read⟩
    · rw [show streamReply w ch c .get = Attempt.raised carriedOut from raised]
      refine ⟨.opened told, rfl, stage.kept rfl fun listed => ?_⟩
      simpa only [streamAfter, hit, Bool.false_eq_true, if_false] using listed
    · rw [show streamReply w ch c .get = Attempt.done none from answer]
      exact ⟨.opened true, rfl, trivial⟩
    · rw [show streamReply w ch c .get = Attempt.done (some s) from answer]
      cases told with
      | false =>
        rw [stage.1] at read
        contradiction
      | true => exact ⟨.opened true, ⟨rfl, rfl⟩, trivial⟩
  | wait =>
    have tokenless : streamReply w ch c .wait =
        if ch.interrupted then Waited.interrupted else Waited.nothing := by
      simp only [streamReply, empty]
      rfl
    refine ⟨.opened told, ⟨fun text => ?_, rfl⟩, stage.kept rfl id⟩
    rw [tokenless]
    split <;> exact nofun
  | emit event => exact ⟨.opened told, rfl, stage.kept rfl id⟩
  | close => exact ⟨.ended, rfl, trivial⟩

/-- Whatever a command is answered, its stream comes to a point that is right. -/
theorem advance {w : World} (ch : Choice) {c : Connection} {p : Point} {cmd : Command}
    (isolated : Isolated w) (foreign : ¬ Entitled w c)
    (allowed : (protocol c.policy.userTag).allows p cmd) (stage : At w c p) :
    ∃ p', (protocol c.policy.userTag).next p cmd (streamReply w ch c cmd) p' ∧
      At (streamAfter w ch c cmd) c p' := by
  cases p with
  | fresh =>
    cases cmd with
    | check => exact advance_fresh w ch c
    | _ => exact absurd allowed id
  | asking =>
    cases cmd with
    | owner => exact advance_asking ch isolated foreign
    | _ => exact absurd allowed id
  | ended =>
    cases cmd with
    | reject code detail => exact ⟨.ended, rfl, trivial⟩
    | _ => exact absurd allowed id
  | opened told =>
    have empty : w.tokens c = [] := by
      by_contra some_token
      exact foreign (isolated.tokens c some_token)
    exact advance_opened ch empty allowed stage

/-- The stream's own step: what the answer leaves it with. -/
theorem Harmless.step {w : World} {ch : Choice} {c : Connection} {e : Effect}
    {k : e.Answer → Prog Effect Effect.Answer Unit} (isolated : Isolated w)
    (harmless : Harmless w c (.act e k)) :
    Harmless (w.after ch e) c (k (reply w ch e)) := by
  obtain ⟨q, eq, stage⟩ := harmless
  cases q with
  | ret a => simp [embedded, Prog.embed] at eq
  | act cmd next =>
    cases eq
    refine ⟨next (streamReply w ch c cmd), rfl, ?_⟩
    by_cases entitled : Entitled w c
    · exact .inl entitled.after
    · obtain ⟨p, follows, stage⟩ := stage.resolve_left entitled
      obtain ⟨p', advanced, stage'⟩ := advance ch isolated entitled follows.1 stage
      exact .inr ⟨p', follows.2 _ p' advanced, stage'⟩

theorem Isolated.after {w : World} {ch : Choice} {d : Desc} {e : Effect}
    {k : e.Answer → Prog Effect Effect.Answer Unit} (isolated : Isolated w)
    (fine : Fine w ⟨d, .act e k⟩) (unobserved : Unobserved w d e (reply w ch e)) :
    Isolated (w.after ch e) where
  owners taskId userTag member := by
    rw [after_requests]
    rcases after_owners member with old | ⟨g, rfl⟩
    · exact isolated.owners taskId userTag old
    · cases d with
      | submit d => exact ⟨d, fine.1, fine.2.1⟩
      | stream c =>
        obtain ⟨-, q, eq, -⟩ := fine
        cases q <;> cases eq
      | worker work =>
        obtain ⟨work, eq⟩ := fine.1
        cases eq
  tokens c some_token := by
    rcases after_tokens some_token with old | ⟨published, listens⟩
    · exact (isolated.tokens c old).after
    · exact (unobserved.2 c.taskId published c listens rfl).after
  delivered c event member reveals := by
    rcases after_delivered member with old | rfl
    · exact (isolated.delivered c event old reveals).after
    · cases d with
      | submit d => exact absurd fine.2.1 id
      | stream c' =>
        obtain ⟨-, q, eq, stage⟩ := fine
        cases q with
        | ret a => cases eq
        | act cmd next =>
          cases eq
          rcases stage with entitled | ⟨p, follows, -⟩
          · exact entitled.after
          · have silent := follows.1
            cases p with
            | opened told =>
              have quiet : event.reveals = false := silent
              rw [quiet] at reveals
              contradiction
            | _ => exact absurd silent id
      | worker work =>
        obtain ⟨work, eq⟩ := fine.1
        cases eq

theorem start_isolated : Isolated start.world where
  owners _ _ member := by cases member
  tokens _ some_token := absurd rfl some_token
  delivered _ _ member := by cases member

theorem perform_works (works : List Work) :
    (perform works).Emits fun e => ∃ work, e = .work work := by
  induction works with
  | nil => trivial
  | cons work rest ih => exact ⟨⟨work, rfl⟩, fun _ => ih⟩

/-- Two streams are not one and the same. -/
def Apart (d d' : Desc) : Prop := ∀ c, d = .stream c → d' ≠ .stream c

/-- A step keeps what holds of its own thread. -/
theorem Fine.step {w : World} {ch : Choice} {d : Desc} {e : Effect}
    {k : e.Answer → Prog Effect Effect.Answer Unit} (isolated : Isolated w)
    (fine : Fine w ⟨d, .act e k⟩) : Fine (w.after ch e) ⟨d, k (reply w ch e)⟩ := by
  cases d with
  | submit d => exact ⟨by rw [after_requests]; exact fine.1, fine.2.2 _⟩
  | stream c => exact ⟨by rw [after_connections]; exact fine.1, fine.2.step isolated⟩
  | worker work => exact fine.2 _

/-- A step keeps what holds of the other threads. -/
theorem Fine.frame {w : World} {ch : Choice} {d : Desc} {e : Effect}
    {k : e.Answer → Prog Effect Effect.Answer Unit} {t : Thread Effect Effect.Answer Desc}
    (acting : Fine w ⟨d, .act e k⟩) (unobserved : Unobserved w d e (reply w ch e))
    (fine : Fine w t) (apart : Apart d t.desc) : Fine (w.after ch e) t := by
  obtain ⟨desc, rest⟩ := t
  cases desc with
  | submit d => exact ⟨by rw [after_requests]; exact fine.1, fine.2⟩
  | stream c =>
    refine ⟨by rw [after_connections]; exact fine.1, fine.2.frame unobserved ?_⟩
    rintro cmd rfl
    cases d with
    | submit d => exact acting.2.1
    | stream c' =>
      obtain ⟨-, q, eq, -⟩ := acting
      cases q with
      | ret a => cases eq
      | act cmd next =>
        cases eq
        exact apart c rfl rfl
    | worker work =>
      obtain ⟨work, eq⟩ := acting.1
      cases eq
  | worker work => exact fine

theorem lookup_expired (states : List (String × Doc)) (taskId other : String) :
    (states.filter fun entry => entry.1 ≠ other).lookup taskId =
      if taskId = other then none else states.lookup taskId := by
  induction states with
  | nil => simp
  | cons entry rest ih =>
    obtain ⟨key, doc⟩ := entry
    by_cases dropped : key = other
    · subst dropped
      simp only [ne_eq, not_true_eq_false, decide_false, Bool.false_eq_true, not_false_eq_true,
        List.filter_cons_of_neg, ih, List.lookup_cons]
      by_cases same : taskId = key
      · simp [same]
      · simp [same, beq_false_of_ne same]
    · simp only [ne_eq, dropped, not_false_eq_true, decide_true, List.filter_cons_of_pos,
        List.lookup_cons, ih]
      by_cases same : taskId = key
      · subst same
        simp [dropped]
      · simp [beq_false_of_ne same]

/-- What arrives and what expires keeps what holds of the threads. -/
theorem Fine.kept {w w' : World} {t : Thread Effect Effect.Answer Desc} (fine : Fine w t)
    (requests : ∀ d ∈ w.submits.requests, d ∈ w'.submits.requests)
    (connections : ∀ c ∈ w.connections, c ∈ w'.connections)
    (unchecked : w'.unchecked = w.unchecked)
    (missing : ∀ taskId, w.state taskId = none → w'.state taskId = none) : Fine w' t := by
  obtain ⟨desc, rest⟩ := t
  cases desc with
  | submit d => exact ⟨requests d fine.1, fine.2⟩
  | stream c =>
    obtain ⟨listed, q, eq, entitled | ⟨p, follows, stage⟩⟩ := fine
    · exact ⟨connections c listed, q, eq, .inl (entitled.mono requests)⟩
    · refine ⟨connections c listed, q, eq, .inr ⟨p, follows, ?_⟩⟩
      cases p with
      | opened told =>
        cases told with
        | true => trivial
        | false => exact ⟨missing _ stage.1, by rw [unchecked]; exact stage.2⟩
      | _ => trivial
  | worker work => exact fine

theorem Isolated.submitted {w w' : World} (isolated : Isolated w)
    (requests : ∀ d ∈ w.submits.requests, d ∈ w'.submits.requests)
    (owners : ∀ entry ∈ w'.submits.redis.owners, entry ∈ w.submits.redis.owners)
    (tokens : w'.tokens = w.tokens) (delivered : w'.delivered = w.delivered) : Isolated w' where
  owners taskId userTag member := by
    obtain ⟨d, asked, owns⟩ := isolated.owners taskId userTag (owners _ member)
    exact ⟨d, requests d asked, owns⟩
  tokens c some_token := by
    rw [tokens] at some_token
    exact (isolated.tokens c some_token).mono requests
  delivered c event member reveals := by
    rw [delivered] at member
    exact (isolated.delivered c event member reveals).mono requests

theorem arrive_isolated {digest : String → String} {w w' : World} {d : Desc}
    (isolated : Isolated w) (arrived : arrive w d = some w') :
    Isolated w' ∧ Fine w' ((system digest).start d) ∧
      ∀ t, Fine w t → Fine w' t ∧ Apart t.desc d ∧ Apart d t.desc := by
  cases d with
  | submit d =>
    simp only [arrive] at arrived
    split at arrived
    next => contradiction
    next =>
      cases arrived
      have more : ∀ r ∈ w.submits.requests, r ∈ d :: w.submits.requests :=
        fun _ => List.mem_cons_of_mem d
      refine ⟨isolated.submitted more (fun _ => id) rfl rfl,
        ⟨List.mem_cons_self, body_registers digest d⟩, fun t fine => ?_⟩
      exact ⟨fine.kept more (fun _ => id) rfl (fun _ => id), fun _ _ => nofun, fun _ => nofun⟩
  | stream c =>
    simp only [arrive] at arrived
    split at arrived
    next => contradiction
    next fresh =>
      cases arrived
      refine ⟨isolated.submitted (fun _ => id) (fun _ => id) rfl rfl,
        ⟨List.mem_cons_self, stream c.policy c.rounds, rfl, ?_⟩, fun t fine => ?_⟩
      · cases plain : c.policy.isAdmin with
        | true => exact .inl (.inl plain)
        | false => exact .inr ⟨.fresh, stream_follows c.rounds plain, trivial⟩
      · refine ⟨fine.kept (fun _ => id) (fun _ => List.mem_cons_of_mem c) rfl (fun _ => id), ?_, ?_⟩
        · intro c' named same
          obtain rfl : c = c' := Desc.stream.inj same
          rw [Fine, named] at fine
          exact fresh fine.1
        · intro c' same named
          obtain rfl : c = c' := Desc.stream.inj same
          rw [Fine, named] at fine
          exact fresh fine.1
  | worker work =>
    obtain rfl : w = w' := Option.some.inj arrived
    exact ⟨isolated, perform_works work, fun t fine => ⟨fine, fun _ _ => nofun, fun _ => nofun⟩⟩

theorem expire_isolated {w : World} (expiry : Expiry) (isolated : Isolated w) :
    let w' := { w with submits := { w.submits with redis := expireRedis w.submits.redis expiry } }
    Isolated w' ∧ ∀ t, Fine w t → Fine w' t := by
  constructor
  · refine isolated.submitted (fun _ => id) ?_ rfl rfl
    intro entry member
    cases expiry with
    | owner taskId => exact (List.mem_filter.mp member).1
    | _ => exact member
  · intro t fine
    refine fine.kept (fun _ => id) (fun _ => id) rfl ?_
    intro taskId missing
    cases expiry with
    | state other =>
      have found := lookup_expired w.submits.redis.states taskId other
      rw [World.state]
      simp only [expireRedis]
      rw [found]
      split
      · rfl
      · exact missing
    | _ => exact missing

def outline (digest : String → String) : (system digest).Outline Unobserved where
  inv := Isolated
  ok := Fine
  apart := Apart
  own {w ch d e k w' r forks} isolated fine unobserved performed := by
    cases performed
    exact ⟨isolated.after fine unobserved, fine.step isolated, by simp⟩
  stable {w ch d e k w' r forks t} isolated acting unobserved performed fine apart := by
    cases performed
    exact acting.frame unobserved fine apart.1
  fork_apart {w ch d e k w' r forks} isolated fine performed := by
    cases performed
    exact ⟨by simp, .nil⟩
  arrive isolated arrived := arrive_isolated isolated arrived
  ambient {w expiry w'} isolated moved := by
    cases moved
    exact expire_isolated expiry isolated

/-- As long as no task appears, and no token is published, while somebody else's stream is
open that was let through for a missing task, no stream tells anything of a task to a user
who is neither its owner nor an admin. -/
theorem streams_isolated (digest : String → String) (events : List (Event Desc Choice Expiry))
    (c : Config Effect Effect.Answer World Desc)
    (along : (system digest).machine.Along ((system digest).Meets Unobserved) start events)
    (run : (system digest).machine.exec start events = some c) :
    ∀ connection event, (connection, event) ∈ c.world.delivered → event.reveals = true →
      Entitled c.world connection := by
  have initially : (outline digest).Holds start := (outline digest).holds_empty start_isolated
  have ends : (outline digest).Holds c := (outline digest).run initially along run
  have isolated : Isolated c.world := ends.world
  exact isolated.delivered

def asked (user : String) (taskId : String) : GatewaySubmit.Desc :=
  ⟨taskId, ⟨user, ["*"], 10, 100⟩, ⟨some "Who earns most?", none, none, some "k"⟩⟩

def opens (user : String) (number : Nat) : Connection := ⟨number, "t1", ⟨user, "user", true⟩, 5⟩

def steps (pid count : Nat) : List (Event Desc Choice Expiry) :=
  List.replicate count (.run pid { now := "2026-01-01T00:00:00Z" })

/-- Alice's stream of her own task; Bob's is refused. -/
def watched : List (Event Desc Choice Expiry) :=
  .arrive (.submit (.gateway (asked "alice" "t1"))) :: steps 0 10 ++
  .arrive (.stream (opens "alice" 1)) :: .arrive (.stream (opens "bob" 2)) ::
  steps 2 3 ++ steps 1 3 ++ .arrive (.worker [.publishToken "t1" "SELECT"]) :: steps 3 1 ++ steps 1 7

theorem streams_isolated_watched :
    ∃ c, (system id).machine.exec start watched = some c ∧
      c.world.delivered.map (fun entry => (entry.1.policy.userTag, entry.2.reveals)) =
        [("alice", true), ("alice", true)] ∧
      ∀ connection event, (connection, event) ∈ c.world.delivered → event.reveals = true →
        Entitled c.world connection := by
  have ends : ((system id).machine.exec start watched).any (fun c =>
      c.world.delivered.map (fun entry => (entry.1.policy.userTag, entry.2.reveals)) =
        [("alice", true), ("alice", true)]) = true := by decide +kernel
  obtain ⟨c, run, delivered⟩ := (Option.any_eq_true _ _).mp ends
  exact ⟨c, run, of_decide_eq_true delivered,
    streams_isolated id watched c (by decide +kernel) run⟩

/-- Bob learns the id from the replay of Alice's key and opens his stream before her
state is stored. -/
def overheard : List (Event Desc Choice Expiry) :=
  .arrive (.submit (.gateway (asked "alice" "t1"))) :: steps 0 4 ++
  .arrive (.submit (.gateway (asked "bob" "t2"))) :: steps 1 4 ++
  .arrive (.stream (opens "bob" 1)) :: steps 2 2 ++ steps 0 6 ++ steps 2 4 ++
  .arrive (.worker [.publishToken "t1" "SELECT"]) :: steps 3 1 ++ steps 2 2

theorem stream_overheard :
    ∃ c, (system id).machine.exec start overheard = some c ∧
      (∃ entry ∈ c.world.submits.answers, entry.1.taskId = "t2" ∧ entry.2 = "t1") ∧
      ∃ connection event, (connection, event) ∈ c.world.delivered ∧ event.reveals = true ∧
        ¬ Entitled c.world connection := by
  have ends : ((system id).machine.exec start overheard).any (fun c =>
      (∃ entry ∈ c.world.submits.answers, entry.1.taskId = "t2" ∧ entry.2 = "t1") ∧
      ∃ entry ∈ c.world.delivered, entry.2.reveals = true ∧ ¬ Entitled c.world entry.1) = true := by
    decide +kernel
  obtain ⟨c, run, shown⟩ := (Option.any_eq_true _ _).mp ends
  obtain ⟨replayed, entry, delivered, reveals, foreign⟩ := of_decide_eq_true shown
  exact ⟨c, run, replayed, entry.1, entry.2, delivered, reveals, foreign⟩

end TaskStream
end Nl2SqlAgent

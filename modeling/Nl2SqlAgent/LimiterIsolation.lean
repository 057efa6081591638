import Nl2SqlAgent.GatewaySubmit
import Nl2SqlAgent.Lib.Purge
import Nl2SqlAgent.RateLimiter

/-! What the submit requests of one user do to those of another through the limiters, the
quota and the idempotency keys. The requests take turns, one command at a time; a limiter
or quota that Redis fails lets the request through. -/
namespace Nl2SqlAgent

open Lib

namespace LimiterIsolation

open GatewaySubmit (Effect Desc Policy)
open RateLimiter (Window kept)

/-- What a command leaves open: whether it raises, the time stamp and the day that the
limiter and the quota have read before it, and what the result cache holds. -/
structure Choice extends GatewaySubmit.Choice where
  stamp : Nat := 0
  day : Nat := 0

/-- The keys `rl:…`, `idempotent:…` and `quota:…` of Redis; the last two with the time at
which they expire. -/
structure World where
  clock : Nat := 0
  windows : String → Window := fun _ => {}
  keys : String → Option (String × Nat) := fun _ => none
  quotas : String × Nat → Nat × Nat := fun _ => (0, 0)

/-- `RateLimiterService.check`, from the script on. -/
def World.limited (w : World) (c : Choice) (key : String) (limit : Int) : World × Bool :=
  let script := ((w.windows key).pass w.clock).script w.clock c.stamp 1000 limit
  (if c.runs then { w with windows := Function.update w.windows key script.1 } else w,
    c.raises || script.2)

/-- The task under the key, while it lives. -/
def World.known (w : World) (key : String) : Option String :=
  ((w.keys key).filter fun entry => w.clock < entry.2).map Prod.fst

def World.acquired (w : World) (c : Choice) (key taskId : String) : World :=
  if c.runs ∧ w.known key = none then
    { w with keys := Function.update w.keys key (some (taskId, w.clock + 300000)) }
  else w

/-- `QuotaService.tryConsume`, from the script on. -/
def World.consumed (w : World) (c : Choice) (userTag : String) (dailyQuota : Nat) : World × Bool :=
  let key := (userTag, c.day)
  let cur := if w.clock < (w.quotas key).2 then (w.quotas key).1 + 1 else 1
  let expires := if cur = 1 then w.clock + 172800000 else (w.quotas key).2
  (if c.runs then { w with quotas := Function.update w.quotas key (cur, expires) } else w,
    c.raises || decide (cur ≤ dailyQuota))

/-- What is stored and published for a task is not read by another submit request. -/
def perform (globalQps : Int) (w : World) (c : Choice) : (e : Effect) → World × e.Answer
  | .allowGlobal => w.limited c "rl:__global__" globalQps
  | .allowUser userTag qpsLimit => w.limited c ("rl:" ++ userTag) qpsLimit
  | .idempotentGet key => (w, c.attempt (w.known key))
  | .idempotentTryAcquire key taskId => (w.acquired c key taskId, c.attempt (w.known key).isNone)
  | .tryConsume userTag dailyQuota => w.consumed c userTag dailyQuota
  | .cacheGet _ _ => (w, c.cached)
  | .create .. => (w, c.attempt ())
  | .createFromCache .. => (w, c.attempt ())
  | .setOwner _ _ => (w, c.attempt ())
  | .publishSubmitted _ => (w, c.attempt ())
  | .accepted _ => (w, ())

/-- The ambient move is the time that passes, in milliseconds. -/
def system (globalQps : Int) : Turns Effect Effect.Answer World Choice Nat where
  perform := perform globalQps
  ambient w ms := { w with clock := w.clock + ms }

abbrev Request := Task Effect Effect.Answer

abbrev Gateway := Turns.Config Effect Effect.Answer World

abbrev Turn := Turns.Turn Choice Nat

/-- Any number of requests, none of which has begun. -/
def start (digest : String → String) (requests : Nat → Desc) : Gateway where
  world := {}
  tasks id :=
    ⟨GatewaySubmit.submit digest (requests id).taskId (requests id).policy (requests id).request, []⟩

/-- How a request is answered. -/
inductive Response where
  | forbidden
  | rateLimited
  | quotaExceeded
  | accepted (taskId : String)
  | failed
  deriving DecidableEq, Repr

/-- The response that follows a command when the request ends after it. -/
def answered : (e : Effect) → e.Answer → Response
  | .allowGlobal, r => bif r then .failed else .rateLimited
  | .allowUser _ _, r => bif r then .failed else .rateLimited
  | .tryConsume _ _, r => bif r then .failed else .quotaExceeded
  | .accepted taskId, _ => .accepted taskId
  | _, _ => .failed

/-- The response of a request that has ended. -/
def response (t : Request) : Option Response :=
  match t.rest, t.past with
  | .act _ _, _ => none
  | .ret _, [] => some .forbidden
  | .ret _, last :: _ => some (answered last.1 last.2)

/-- The whitelist of the user excludes the database. -/
def forbidden (d : Desc) : Bool := !GatewaySubmit.dbAllowed d.policy d.request.dbId

def refused : (e : Effect) → e.Answer → Bool
  | .allowUser _ _, r => !r
  | .tryConsume _ _, r => !r
  | _, _ => false

/-- The request was rejected by the limit or the quota of its user. -/
def overLimit (t : Request) : Bool := t.past.any fun entry => refused entry.1 entry.2

/-- What comes after `idempotent:` in the key of a request. -/
def keyOf (digest : String → String) (d : Desc) : Option String :=
  match d.request.idempotencyKey, d.request.question with
  | some key, some question =>
    if GatewaySubmit.isBlank key then none else some (GatewaySubmit.idempotencyKey digest key question)
  | _, _ => none

/-- The window that a command counts in, and its limit. -/
def windowOf (globalQps : Int) : Effect → Option (String × Int)
  | .allowGlobal => some ("rl:__global__", globalQps)
  | .allowUser userTag qpsLimit => some ("rl:" ++ userTag, qpsLimit)
  | _ => none

/-- A script on a window comes after all those counted in it by its time stamp, and it admits. -/
def Admits (w : World) (c : Choice) (key : String) (limit : Int) : Prop :=
  (∀ x ∈ ((w.windows key).pass w.clock).scores, x ≤ c.stamp) ∧
    ((kept c.stamp 1000 ((w.windows key).pass w.clock).scores).length : Int) < limit

/-- The scripts on the global window run in the order of their time stamps, and none of them
rejects. -/
def Calm (globalQps : Int) (w : World) (c : Choice) (t : Request) : Prop :=
  match t.rest with
  | .ret _ => True
  | .act e _ =>
    match windowOf globalQps e with
    | none => True
    | some (key, limit) => key = "rl:__global__" → c.runs = true → Admits w c key limit

/-- No request of another user has the idempotency key of one of the user's requests. -/
def Apart (digest : String → String) (requests : Nat → Desc) (userTag : String) : Prop :=
  ∀ id other key, (requests id).policy.userTag ≠ userTag → (requests other).policy.userTag = userTag →
    keyOf digest (requests other) = some key → keyOf digest (requests id) ≠ some key

section Commands

variable {digest : String → String} {d : Desc}

/-- What a request does after its limiters is about its own key and its user's quota. -/
def After (digest : String → String) (d : Desc) : Effect → Prop
  | .allowGlobal => False
  | .allowUser _ _ => False
  | .idempotentGet key => keyOf digest d = some key
  | .idempotentTryAcquire key _ => keyOf digest d = some key
  | .tryConsume userTag _ => userTag = d.policy.userTag
  | _ => True

/-- The limiters come first. -/
inductive Ordered (digest : String → String) (d : Desc) : GatewaySubmit.Task Unit → Prop where
  | late {p : GatewaySubmit.Task Unit} (tail : p.Emits (After digest d)) : Ordered digest d p
  | user {qpsLimit : Nat} {k : Bool → GatewaySubmit.Task Unit}
      (tail : ∀ r, (k r).Emits (After digest d)) :
      Ordered digest d (.act (.allowUser d.policy.userTag qpsLimit) k)
  | global {k : Bool → GatewaySubmit.Task Unit} (next : ∀ r, Ordered digest d (k r)) :
      Ordered digest d (.act .allowGlobal k)

theorem orFail_emits {allowed : Effect → Prop} {attempt : GatewaySubmit.Task (GatewaySubmit.Attempt α)}
    {rest : α → GatewaySubmit.Task Unit} (first : attempt.Emits allowed)
    (later : ∀ a, (rest a).Emits allowed) : (GatewaySubmit.orFail attempt rest).Emits allowed := by
  apply Prog.emits_bind allowed attempt _ first
  intro answer
  cases answer with
  | raised carriedOut => exact trivial
  | done a => exact later a

theorem ask_emits {allowed : Effect → Prop} {e : Effect} (ok : allowed e) :
    (GatewaySubmit.ask e).Emits allowed := Prog.emits_perform allowed e ok

theorem create_emits :
    (GatewaySubmit.create d.taskId d.policy d.request).Emits (After digest d) := by
  unfold GatewaySubmit.create
  split
  · trivial
  · apply orFail_emits (ask_emits trivial)
    intro _
    apply orFail_emits (ask_emits trivial)
    intro _
    exact orFail_emits (ask_emits trivial) fun _ => ask_emits trivial

theorem createFromCache_emits (cached : GatewaySubmit.Cached) :
    (GatewaySubmit.createFromCache d.taskId d.policy d.request cached).Emits (After digest d) := by
  unfold GatewaySubmit.createFromCache
  split
  · trivial
  · apply orFail_emits (ask_emits trivial)
    intro _
    exact orFail_emits (ask_emits trivial) fun _ => ask_emits trivial

theorem consume_emits :
    (GatewaySubmit.consume d.taskId d.policy d.request).Emits (After digest d) := by
  refine ⟨rfl, fun granted => ?_⟩
  cases granted with
  | false => exact trivial
  | true =>
    refine ⟨trivial, fun cached => ?_⟩
    cases cached with
    | none => exact create_emits
    | some cached => exact createFromCache_emits cached

theorem acquire_emits {key : String} (own : keyOf digest d = some key) :
    (GatewaySubmit.acquire d.taskId d.policy d.request key).Emits (After digest d) := by
  apply orFail_emits (ask_emits own)
  intro existing
  cases existing with
  | some existing => exact ask_emits trivial
  | none =>
    apply orFail_emits (ask_emits own)
    intro acquired
    cases acquired with
    | true => exact consume_emits
    | false => exact orFail_emits (ask_emits own) fun winner => ask_emits trivial

theorem submit_ordered :
    Ordered digest d (GatewaySubmit.submit digest d.taskId d.policy d.request) := by
  unfold GatewaySubmit.submit
  split
  next =>
    refine .global fun allowed => ?_
    cases allowed with
    | false => exact .late trivial
    | true =>
      refine .user fun allowed => ?_
      cases allowed with
      | false => exact trivial
      | true =>
        cases key : d.request.idempotencyKey with
        | none => exact consume_emits
        | some key' =>
          by_cases blank : GatewaySubmit.isBlank key' = true
          · simp only [blank, if_true]
            exact consume_emits
          · simp only [blank]
            cases question : d.request.question with
            | none => exact trivial
            | some question' => exact acquire_emits (by simp [keyOf, key, question, blank])
  next => exact .late trivial

/-- What a command of a request can be, and what is left after it. -/
theorem Ordered.act {e : Effect} {k : e.Answer → GatewaySubmit.Task Unit}
    (ordered : Ordered digest d (.act e k)) :
    (After digest d e ∧ ∀ r, (k r).Emits (After digest d)) ∨
      (∃ qpsLimit, e = .allowUser d.policy.userTag qpsLimit ∧ ∀ r, (k r).Emits (After digest d)) ∨
      (e = .allowGlobal ∧ ∀ r, Ordered digest d (k r)) := by
  cases ordered with
  | late tail => exact .inl tail
  | user tail => exact .inr (.inl ⟨_, rfl, tail⟩)
  | global next => exact .inr (.inr ⟨rfl, next⟩)

theorem Ordered.next {e : Effect} {k : e.Answer → GatewaySubmit.Task Unit}
    (ordered : Ordered digest d (.act e k)) (r : e.Answer) : Ordered digest d (k r) := by
  rcases ordered.act with ⟨-, tail⟩ | ⟨_, -, tail⟩ | ⟨-, next⟩
  · exact .late (tail r)
  · exact .late (tail r)
  · exact next r

end Commands

/-- The second window has lost scripts of the first, which have all been admitted in order. -/
structure Trails (clock : Nat) (w v : Window) : Prop where
  scores : ∀ now, (∀ x ∈ (w.pass clock).scores, x ≤ now) →
    (kept now 1000 (v.pass clock).scores).Sublist (kept now 1000 (w.pass clock).scores)
  expires : v.expires ≤ w.expires
  soon : w.expires ≤ clock + 1000

section Windows

variable {clock now : Nat} {w v : Window} {limit : Int}

theorem pass_expired (late : w.expires ≤ clock) : (w.pass clock).scores = [] := by
  simp [Window.pass, late]

theorem pass_alive (alive : clock < w.expires) : w.pass clock = w := by
  simp [Window.pass, Nat.not_le.mpr alive]

theorem kept_kept {earlier : Nat} {scores : List Nat} (order : earlier ≤ now) :
    kept now 1000 (kept earlier 1000 scores) = kept now 1000 scores := by
  unfold kept
  rw [List.filter_filter]
  apply List.filter_congr
  intro x _
  by_cases alive : now < x + 1000
  · have before : earlier < x + 1000 := by omega
    simp [alive, before]
  · simp [alive]

theorem kept_sublist (now : Nat) {scores others : List Nat} (sub : scores.Sublist others) :
    (kept now 1000 scores).Sublist (kept now 1000 others) := sub.filter _

theorem Trails.tick (trails : Trails clock w v) (ms : Nat) : Trails (clock + ms) w v := by
  refine ⟨fun now => ?_, trails.expires, by have := trails.soon; omega⟩
  by_cases expired : v.expires ≤ clock + ms
  · rw [pass_expired expired]
    exact fun _ => List.nil_sublist _
  · have older := trails.expires
    have scores := trails.scores now
    rw [pass_alive (w := w) (by omega), pass_alive (w := v) (by omega)] at scores ⊢
    exact scores

theorem script_admits (few : ((kept now 1000 w.scores).length : Int) < limit) :
    w.script clock now 1000 limit = (⟨now :: kept now 1000 w.scores, clock + 1000⟩, true) := by
  rw [Window.script, if_pos few]

/-- What a script that admits has put into the first window. -/
theorem Trails.admitted {scores : List Nat} {expires : Nat} (early : expires ≤ clock + 1000)
    (sub : ∀ later, now ≤ later → (kept later 1000 ((⟨scores, expires⟩ : Window).pass clock).scores).Sublist
      (kept later 1000 (now :: kept now 1000 (w.pass clock).scores))) :
    Trails clock ⟨now :: kept now 1000 (w.pass clock).scores, clock + 1000⟩ ⟨scores, expires⟩ := by
  refine ⟨fun later ahead => ?_, early, Nat.le_refl _⟩
  rw [pass_alive (w := ⟨now :: kept now 1000 (w.pass clock).scores, clock + 1000⟩) (by simp)] at ahead ⊢
  exact sub later (ahead now List.mem_cons_self)

theorem Trails.alone (trails : Trails clock w v) (order : ∀ x ∈ (w.pass clock).scores, x ≤ now)
    (few : ((kept now 1000 (w.pass clock).scores).length : Int) < limit) :
    Trails clock ((w.pass clock).script clock now 1000 limit).1 v := by
  rw [script_admits few]
  apply Trails.admitted (trails.expires.trans trails.soon)
  intro later ahead
  have sub := kept_sublist later (trails.scores now order)
  rw [kept_kept ahead] at sub
  exact sub.trans (kept_sublist later (List.sublist_cons_self _ _))

theorem Trails.both (trails : Trails clock w v) (order : ∀ x ∈ (w.pass clock).scores, x ≤ now)
    (few : ((kept now 1000 (w.pass clock).scores).length : Int) < limit) :
    Trails clock ((w.pass clock).script clock now 1000 limit).1
        ((v.pass clock).script clock now 1000 limit).1 ∧
      ((w.pass clock).script clock now 1000 limit).2 = true ∧
      ((v.pass clock).script clock now 1000 limit).2 = true := by
  have sub := trails.scores now order
  have fewer : ((kept now 1000 (v.pass clock).scores).length : Int) < limit := by
    have shorter := sub.length_le
    omega
  rw [script_admits few, script_admits fewer]
  refine ⟨Trails.admitted (Nat.le_refl _) fun later ahead => ?_, rfl, rfl⟩
  rw [pass_alive (w := ⟨now :: kept now 1000 (v.pass clock).scores, clock + 1000⟩) (by simp)]
  exact kept_sublist later (sub.cons_cons now)

end Windows

section Runs

variable {globalQps : Int} {digest : String → String} {requests : Nat → Desc} {userTag : String}

/-- The worlds of a run and of what is left of it without requests of the user: they differ in
what belongs to him and in the global window. -/
structure Alike (digest : String → String) (requests : Nat → Desc) (userTag : String)
    (w v : World) : Prop where
  clock : v.clock = w.clock
  windows : ∀ key, key ≠ "rl:__global__" → key ≠ "rl:" ++ userTag → v.windows key = w.windows key
  global : Trails w.clock (w.windows "rl:__global__") (v.windows "rl:__global__")
  keys : ∀ key, (∀ id, (requests id).policy.userTag = userTag →
    keyOf digest (requests id) ≠ some key) → v.keys key = w.keys key
  quotas : ∀ tag day, tag ≠ userTag → v.quotas (tag, day) = w.quotas (tag, day)

variable {w v : World} {c : Choice} {key : String} {limit : Int}

@[simp] theorem limited_clock (w : World) (c : Choice) (key : String) (limit : Int) :
    (w.limited c key limit).1.clock = w.clock := by
  unfold World.limited
  split <;> rfl

@[simp] theorem limited_keys (w : World) (c : Choice) (key : String) (limit : Int) :
    (w.limited c key limit).1.keys = w.keys := by
  unfold World.limited
  split <;> rfl

@[simp] theorem limited_quotas (w : World) (c : Choice) (key : String) (limit : Int) :
    (w.limited c key limit).1.quotas = w.quotas := by
  unfold World.limited
  split <;> rfl

theorem limited_other {other : String} (different : other ≠ key) :
    (w.limited c key limit).1.windows other = w.windows other := by
  unfold World.limited
  split
  · exact Function.update_of_ne different _ _
  · rfl

theorem limited_own (runs : c.runs = true) : (w.limited c key limit).1.windows key =
    (((w.windows key).pass w.clock).script w.clock c.stamp 1000 limit).1 := by
  simp [World.limited, runs]

theorem limited_failed (failed : ¬ c.runs = true) (w : World) :
    w.limited c key limit = (w, true) := by
  have raises : c.raises = true := by
    cases same : c.raises with
    | true => rfl
    | false => simp [GatewaySubmit.Choice.runs, same] at failed
  simp [World.limited, failed, raises]

/-- Only the first run takes the step, which the limiter of the user or the global one admits. -/
theorem Alike.limited_alone (alike : Alike digest requests userTag w v)
    (own : key = "rl:__global__" ∨ key = "rl:" ++ userTag)
    (calm : key = "rl:__global__" → c.runs = true → Admits w c key limit) :
    Alike digest requests userTag (w.limited c key limit).1 v := by
  by_cases runs : c.runs = true
  · refine ⟨by simp [alike.clock], fun other foreign different => ?_, ?_, fun other free => ?_,
      fun tag day different => ?_⟩
    · rw [limited_other (by rcases own with rfl | rfl <;> assumption)]
      exact alike.windows other foreign different
    · rw [limited_clock]
      by_cases same : key = "rl:__global__"
      · obtain ⟨order, few⟩ := calm same runs
        subst same
        rw [limited_own runs]
        exact alike.global.alone order few
      · rw [limited_other (Ne.symm same)]
        exact alike.global
    · rw [limited_keys]
      exact alike.keys other free
    · rw [limited_quotas]
      exact alike.quotas tag day different
  · rw [limited_failed runs]
    exact alike

/-- Both runs take the step; the answers differ at most in the user's own window. -/
theorem Alike.limited_both (alike : Alike digest requests userTag w v)
    (calm : key = "rl:__global__" → c.runs = true → Admits w c key limit) :
    Alike digest requests userTag (w.limited c key limit).1 (v.limited c key limit).1 ∧
      (key = "rl:__global__" ∨ key ≠ "rl:" ++ userTag →
        (w.limited c key limit).2 = (v.limited c key limit).2) := by
  by_cases runs : c.runs = true
  · by_cases same : key = "rl:__global__"
    · obtain ⟨order, few⟩ := calm same runs
      subst same
      obtain ⟨trails, first, second⟩ := alike.global.both order few
      rw [← alike.clock] at second trails
      refine ⟨⟨by simp [alike.clock], fun other foreign different => ?_, ?_, fun other free => ?_,
        fun tag day different => ?_⟩, fun _ => ?_⟩
      · rw [limited_other foreign, limited_other foreign]
        exact alike.windows other foreign different
      · rw [limited_own runs, limited_own runs, limited_clock]
        rw [alike.clock] at trails ⊢
        exact trails
      · rw [limited_keys, limited_keys]
        exact alike.keys other free
      · rw [limited_quotas, limited_quotas]
        exact alike.quotas tag day different
      · simp only [World.limited]
        rw [alike.clock] at second ⊢
        rw [first, second]
    · have equal (foreign : key ≠ "rl:" ++ userTag) :
          ((v.windows key).pass v.clock).script v.clock c.stamp 1000 limit =
            ((w.windows key).pass w.clock).script w.clock c.stamp 1000 limit := by
        rw [alike.windows key same foreign, alike.clock]
      refine ⟨⟨by simp [alike.clock], fun other foreign different => ?_, ?_, fun other free => ?_,
        fun tag day different => ?_⟩, fun own => ?_⟩
      · by_cases here : other = key
        · subst here
          rw [limited_own runs, limited_own runs, equal different]
        · rw [limited_other here, limited_other here]
          exact alike.windows other foreign different
      · rw [limited_other (Ne.symm same), limited_other (Ne.symm same), limited_clock]
        exact alike.global
      · rw [limited_keys, limited_keys]
        exact alike.keys other free
      · rw [limited_quotas, limited_quotas]
        exact alike.quotas tag day different
      · simp only [World.limited]
        rw [equal (own.resolve_left same)]
  · rw [limited_failed runs, limited_failed runs]
    exact ⟨alike, fun _ => rfl⟩

/-- What a step after the limiters leaves as it was. -/
structure Framed (digest : String → String) (d : Desc) (w w' : World) : Prop where
  clock : w'.clock = w.clock
  windows : w'.windows = w.windows
  keys : ∀ key, keyOf digest d ≠ some key → w'.keys key = w.keys key
  quotas : ∀ tag day, tag ≠ d.policy.userTag → w'.quotas (tag, day) = w.quotas (tag, day)

theorem after_framed {d : Desc} {e : Effect} (after : After digest d e) (w : World) (c : Choice) :
    Framed digest d w (perform globalQps w c e).1 := by
  have same : Framed digest d w w := ⟨rfl, rfl, fun _ _ => rfl, fun _ _ _ => rfl⟩
  cases e with
  | allowGlobal => exact after.elim
  | allowUser userTag qpsLimit => exact after.elim
  | idempotentTryAcquire key taskId =>
    simp only [perform, World.acquired]
    split
    · refine ⟨rfl, rfl, fun other foreign => ?_, fun _ _ _ => rfl⟩
      have different : other ≠ key := fun equal => foreign (equal ▸ after)
      exact Function.update_of_ne different _ _
    · exact same
  | tryConsume tag dailyQuota =>
    simp only [perform, World.consumed]
    split
    · refine ⟨rfl, rfl, fun _ _ => rfl, fun other day foreign => ?_⟩
      have own : tag = d.policy.userTag := after
      have different : (other, day) ≠ (tag, c.day) := fun equal =>
        foreign ((congrArg Prod.fst equal).trans own)
      exact Function.update_of_ne different _ _
    · exact same
  | _ => exact same

theorem Alike.after_alone {id : Nat} {w' : World} (alike : Alike digest requests userTag w v)
    (own : (requests id).policy.userTag = userTag) (framed : Framed digest (requests id) w w') :
    Alike digest requests userTag w' v := by
  refine ⟨by rw [framed.clock, alike.clock], fun key => ?_, ?_, fun key free => ?_,
    fun tag day different => ?_⟩
  · rw [framed.windows]
    exact alike.windows key
  · rw [framed.windows, framed.clock]
    exact alike.global
  · rw [framed.keys key (free id own)]
    exact alike.keys key free
  · rw [framed.quotas tag day (own ▸ different)]
    exact alike.quotas tag day different

theorem Alike.after_later {id : Nat} {v' : World} (alike : Alike digest requests userTag w v)
    (own : (requests id).policy.userTag = userTag) (framed : Framed digest (requests id) v v') :
    Alike digest requests userTag w v' := by
  refine ⟨by rw [framed.clock, alike.clock], fun key => ?_, ?_, fun key free => ?_,
    fun tag day different => ?_⟩
  · rw [framed.windows]
    exact alike.windows key
  · rw [framed.windows]
    exact alike.global
  · rw [framed.keys key (free id own)]
    exact alike.keys key free
  · rw [framed.quotas tag day (own ▸ different)]
    exact alike.quotas tag day different

/-- A request of another user finds the same keys and quotas in both runs. -/
theorem Alike.after_both {id : Nat} {e : Effect} (alike : Alike digest requests userTag w v)
    (apart : Apart digest requests userTag) (other : (requests id).policy.userTag ≠ userTag)
    (after : After digest (requests id) e) (c : Choice) :
    Alike digest requests userTag (perform globalQps w c e).1 (perform globalQps v c e).1 ∧
      (perform globalQps w c e).2 = (perform globalQps v c e).2 := by
  have known {key : String} (own : keyOf digest (requests id) = some key) :
      v.known key = w.known key ∧ v.keys key = w.keys key := by
    have same : v.keys key = w.keys key :=
      alike.keys key fun his tag taken => apart id his key other tag taken own
    exact ⟨by rw [World.known, World.known, same, alike.clock], same⟩
  cases e with
  | allowGlobal => exact after.elim
  | allowUser userTag qpsLimit => exact after.elim
  | idempotentGet key =>
    refine ⟨alike, ?_⟩
    change c.attempt (w.known key) = c.attempt (v.known key)
    rw [(known after).1]
  | idempotentTryAcquire key taskId =>
    have same : c.attempt (w.known key).isNone = c.attempt (v.known key).isNone := by
      rw [(known after).1]
    refine ⟨?_, same⟩
    simp only [perform, World.acquired, (known after).1]
    split
    · refine ⟨alike.clock, alike.windows, alike.global, fun others free => ?_, alike.quotas⟩
      by_cases same : others = key
      · subst same
        simp [alike.clock]
      · simp only [Function.update_of_ne same]
        exact alike.keys others free
    · exact alike
  | tryConsume tag dailyQuota =>
    have own : tag = (requests id).policy.userTag := after
    have same : v.quotas (tag, c.day) = w.quotas (tag, c.day) :=
      alike.quotas tag c.day (own ▸ other)
    have answer : (w.consumed c tag dailyQuota).2 = (v.consumed c tag dailyQuota).2 := by
      simp only [World.consumed, same, alike.clock]
    refine ⟨?_, answer⟩
    simp only [perform, World.consumed, same, alike.clock]
    split
    · refine ⟨rfl, alike.windows, alike.global, alike.keys, fun tag' day different => ?_⟩
      by_cases here : (tag', day) = (tag, c.day)
      · simp [here]
      · simp only [Function.update_of_ne here]
        exact alike.quotas tag' day different
    · exact alike
  | _ => exact ⟨alike, rfl⟩

theorem Alike.tick (alike : Alike digest requests userTag w v) (ms : Nat) :
    Alike digest requests userTag ((system globalQps).ambient w ms)
      ((system globalQps).ambient v ms) :=
  ⟨congrArg (· + ms) alike.clock, alike.windows, alike.global.tick ms, alike.keys, alike.quotas⟩

theorem window_inj {tag : String} (different : tag ≠ userTag) : "rl:" ++ tag ≠ "rl:" ++ userTag := by
  intro same
  have chars := congrArg String.toList same
  simp only [String.toList_append, List.append_cancel_left_eq] at chars
  exact different (String.toList_inj.mp chars)

/-- A request of another user is the same in both runs; a request of the user that is not left
out is, until both runs are past its limiters. -/
structure Paired (digest : String → String) (requests : Nat → Desc) (userTag : String)
    (gone : Nat → Bool) (id : Nat) (t u : Request) : Prop where
  ordered : Ordered digest (requests id) t.rest
  other : (requests id).policy.userTag ≠ userTag → t = u
  own : (requests id).policy.userTag = userTag → gone id = false →
    t.rest = u.rest ∨ u.rest.Emits (After digest (requests id))

variable {gone : Nat → Bool} {id : Nat} {t u : Request}

theorem Calm.admits {e : Effect} {k : e.Answer → GatewaySubmit.Task Unit}
    (calm : Calm globalQps w c t) (next : t.rest = .act e k)
    (window : windowOf globalQps e = some (key, limit)) :
    key = "rl:__global__" → c.runs = true → Admits w c key limit := by
  simpa only [Calm, next, window] using calm

theorem advance_ordered (ordered : Ordered digest (requests id) t.rest) :
    Ordered digest (requests id) ((system globalQps).advance w c t).2.rest := by
  cases next : t.rest with
  | ret _ =>
    rw [Turns.advance_ended (by rw [next]; rfl)]
    exact ordered
  | act e k =>
    rw [Turns.advance_act next]
    rw [next] at ordered
    exact ordered.next _

theorem Alike.step_alone (alike : Alike digest requests userTag w v)
    (own : (requests id).policy.userTag = userTag) (ordered : Ordered digest (requests id) t.rest)
    (calm : Calm globalQps w c t) :
    Alike digest requests userTag ((system globalQps).advance w c t).1 v := by
  cases next : t.rest with
  | ret _ =>
    rw [Turns.advance_ended (by rw [next]; rfl)]
    exact alike
  | act e k =>
    rw [Turns.advance_act next]
    rw [next] at ordered
    rcases ordered.act with ⟨after, -⟩ | ⟨qpsLimit, rfl, -⟩ | ⟨rfl, -⟩
    · exact alike.after_alone own (after_framed after w c)
    · exact alike.limited_alone (.inr (own ▸ rfl)) (calm.admits next rfl)
    · exact alike.limited_alone (.inl rfl) (calm.admits next rfl)

theorem Alike.step_later (globalQps : Int) (c : Choice) (alike : Alike digest requests userTag w v)
    (own : (requests id).policy.userTag = userTag)
    (late : u.rest.Emits (After digest (requests id))) :
    Alike digest requests userTag w ((system globalQps).advance v c u).1 ∧
      ((system globalQps).advance v c u).2.rest.Emits (After digest (requests id)) := by
  cases next : u.rest with
  | ret _ =>
    rw [Turns.advance_ended (by rw [next]; rfl)]
    exact ⟨alike, late⟩
  | act e k =>
    rw [Turns.advance_act next]
    rw [next] at late
    exact ⟨alike.after_later own (after_framed late.1 v c), late.2 _⟩

theorem Alike.step_other (alike : Alike digest requests userTag w v)
    (apart : Apart digest requests userTag) (other : (requests id).policy.userTag ≠ userTag)
    (ordered : Ordered digest (requests id) t.rest) (calm : Calm globalQps w c t) :
    Alike digest requests userTag ((system globalQps).advance w c t).1
        ((system globalQps).advance v c t).1 ∧
      ((system globalQps).advance w c t).2 = ((system globalQps).advance v c t).2 := by
  cases next : t.rest with
  | ret _ =>
    rw [Turns.advance_ended (by rw [next]; rfl), Turns.advance_ended (by rw [next]; rfl)]
    exact ⟨alike, rfl⟩
  | act e k =>
    rw [Turns.advance_act next, Turns.advance_act next]
    rw [next] at ordered
    have both : Alike digest requests userTag (perform globalQps w c e).1 (perform globalQps v c e).1 ∧
        (perform globalQps w c e).2 = (perform globalQps v c e).2 := by
      rcases ordered.act with ⟨after, -⟩ | ⟨qpsLimit, rfl, -⟩ | ⟨rfl, -⟩
      · exact alike.after_both apart other after c
      · have limited := alike.limited_both (calm.admits next rfl)
        exact ⟨limited.1, limited.2 (.inr (window_inj other))⟩
      · have limited := alike.limited_both (calm.admits next rfl)
        exact ⟨limited.1, limited.2 (.inl rfl)⟩
    refine ⟨both.1, ?_⟩
    change Task.mk (k (perform globalQps w c e).2) (⟨e, (perform globalQps w c e).2⟩ :: t.past) =
      Task.mk (k (perform globalQps v c e).2) (⟨e, (perform globalQps v c e).2⟩ :: t.past)
    rw [both.2]

theorem Alike.step_own (alike : Alike digest requests userTag w v)
    (own : (requests id).policy.userTag = userTag) (ordered : Ordered digest (requests id) t.rest)
    (calm : Calm globalQps w c t)
    (paired : t.rest = u.rest ∨ u.rest.Emits (After digest (requests id))) :
    Alike digest requests userTag ((system globalQps).advance w c t).1
        ((system globalQps).advance v c u).1 ∧
      (((system globalQps).advance w c t).2.rest = ((system globalQps).advance v c u).2.rest ∨
        ((system globalQps).advance v c u).2.rest.Emits (After digest (requests id))) := by
  rcases paired with same | late
  · cases next : t.rest with
    | ret _ =>
      rw [Turns.advance_ended (by rw [next]; rfl), Turns.advance_ended (by rw [← same, next]; rfl)]
      exact ⟨alike, .inl same⟩
    | act e k =>
      have next' : u.rest = .act e k := same.symm.trans next
      have ordered' := ordered
      rw [next] at ordered'
      rcases ordered'.act with ⟨after, tail⟩ | ⟨qpsLimit, rfl, tail⟩ | ⟨rfl, -⟩
      · have first := alike.step_alone own ordered calm
        have second := first.step_later globalQps c own
          (show u.rest.Emits _ by rw [next']; exact ⟨after, tail⟩)
        exact ⟨second.1, .inr second.2⟩
      · rw [Turns.advance_act next, Turns.advance_act next']
        have limited := alike.limited_both (calm.admits next rfl)
        exact ⟨limited.1, .inr (tail _)⟩
      · rw [Turns.advance_act next, Turns.advance_act next']
        have limited := alike.limited_both (calm.admits next rfl)
        have answer : (perform globalQps w c .allowGlobal).2 = (perform globalQps v c .allowGlobal).2 :=
          limited.2 (.inl rfl)
        exact ⟨limited.1, .inl (congrArg k answer)⟩
  · have first := alike.step_alone own ordered calm
    have second := first.step_later globalQps c own late
    exact ⟨second.1, .inr second.2⟩

/-- Requests of one user can be left out of a calm run without a change for the others. -/
def isolation (globalQps : Int) (apart : Apart digest requests userTag)
    (his : ∀ id, gone id = true → (requests id).policy.userTag = userTag) :
    Turns.Unwinding (system globalQps) gone (Calm globalQps) where
  worlds := Alike digest requests userTag
  tasks := Paired digest requests userTag gone
  both {w v choice id t u} alike paired kept calm := by
    by_cases own : (requests id).policy.userTag = userTag
    · obtain ⟨worlds, rests⟩ := alike.step_own own paired.ordered calm (paired.own own kept)
      exact ⟨worlds, advance_ordered paired.ordered, fun other => absurd own other, fun _ _ => rests⟩
    · obtain rfl := paired.other own
      obtain ⟨worlds, tasks⟩ := alike.step_other apart own paired.ordered calm
      exact ⟨worlds, advance_ordered paired.ordered, fun _ => tasks, fun his => absurd his own⟩
  alone {w v choice id t u} alike paired left calm := by
    refine ⟨alike.step_alone (his id left) paired.ordered calm, advance_ordered paired.ordered,
      fun other => absurd (his id left) other, fun _ kept => ?_⟩
    rw [left] at kept
    contradiction
  ambient alike := alike.tick _

end Runs



/-- The outcome of a run of the requests. -/
abbrev outcome (globalQps : Int) (digest : String → String) (requests : Nat → Desc)
    (turns : List Turn) : Gateway := (system globalQps).run (start digest requests) turns

/-- The requests of the user that the whitelist rejects. -/
def offList (requests : Nat → Desc) (userTag : String) (id : Nat) : Bool :=
  (requests id).policy.userTag = userTag ∧ forbidden (requests id)

/-- The requests of the user that a run rejects by his whitelist, his limit or his quota. -/
def rejected (globalQps : Int) (digest : String → String) (requests : Nat → Desc)
    (turns : List Turn) (userTag : String) (id : Nat) : Bool :=
  (requests id).policy.userTag = userTag ∧
    (forbidden (requests id) ∨ overLimit ((outcome globalQps digest requests turns).tasks id))

theorem forbidden_ended {digest : String → String} {requests : Nat → Desc} {id : Nat}
    (excluded : forbidden (requests id) = true) :
    ((start digest requests).tasks id).rest.ended = true := by
  have refused : GatewaySubmit.dbAllowed (requests id).policy (requests id).request.dbId = false := by
    simpa [forbidden] using excluded
  simp [start, GatewaySubmit.submit, refused, Prog.ended]

theorem start_paired (digest : String → String) (requests : Nat → Desc) (userTag : String)
    (gone : Nat → Bool) (id : Nat) : Paired digest requests userTag gone id
      ((start digest requests).tasks id) ((start digest requests).tasks id) :=
  ⟨submit_ordered, fun _ => rfl, fun _ _ => .inl rfl⟩

theorem start_alike (digest : String → String) (requests : Nat → Desc) (userTag : String) :
    Alike digest requests userTag (start digest requests).world (start digest requests).world := by
  refine ⟨rfl, fun _ _ _ => rfl, ⟨fun _ _ => List.Sublist.refl _, Nat.le_refl _, ?_⟩, fun _ _ => rfl,
    fun _ _ _ => rfl⟩
  exact Nat.zero_le _

/-- Without the requests of a user that the whitelist rejects, every request is answered as
before. Without those that he has rejected by his limits, every request of another user is,
in a run whose scripts on the global window come in order and reject nothing, if no
other user shares an idempotency key with him. -/
theorem others_unaffected (globalQps : Int) (digest : String → String) (requests : Nat → Desc)
    (turns : List Turn) (userTag : String) :
    (∀ id, response ((outcome globalQps digest requests
          (Turns.purge (offList requests userTag) turns)).tasks id) =
        response ((outcome globalQps digest requests turns).tasks id)) ∧
      ((system globalQps).Guarded (Calm globalQps) (start digest requests) turns →
        Apart digest requests userTag → ∀ id, (requests id).policy.userTag ≠ userTag →
        response ((outcome globalQps digest requests
            (Turns.purge (rejected globalQps digest requests turns userTag) turns)).tasks id) =
          response ((outcome globalQps digest requests turns).tasks id)) := by
  constructor
  · intro id
    rw [outcome, Turns.run_purge_ended turns fun other excluded => ?_]
    exact forbidden_ended (of_decide_eq_true excluded).2
  · intro calm apart id other
    have his : ∀ id, rejected globalQps digest requests turns userTag id = true →
        (requests id).policy.userTag = userTag := fun id excluded => (of_decide_eq_true excluded).1
    have related := (isolation globalQps apart his).run
      ⟨start_alike digest requests userTag, start_paired digest requests userTag _⟩ calm
    exact congrArg response ((related.tasks id).other other).symm

instance (w : World) (c : Choice) (key : String) (limit : Int) : Decidable (Admits w c key limit) :=
  inferInstanceAs (Decidable (_ ∧ _))

instance (globalQps : Int) (w : World) (c : Choice) (t : Request) :
    Decidable (Calm globalQps w c t) :=
  match next : t.rest with
  | .ret _ => isTrue (by simp only [Calm, next])
  | .act e _ =>
    match window : windowOf globalQps e with
    | none => isTrue (by simp only [Calm, next, window])
    | some (key, limit) =>
      decidable_of_iff (key = "rl:__global__" → c.runs = true → Admits w c key limit)
        (by simp only [Calm, next, window])

def request (taskId userTag : String) (qpsLimit dailyQuota : Nat) (key : Option String) : Desc :=
  ⟨taskId, ⟨userTag, ["*"], qpsLimit, dailyQuota⟩, ⟨some "How many orders?", some "shop", none, key⟩⟩

/-- The turns of a request whose commands all have the time stamp. -/
def served (id stamp commands : Nat) : List Turn :=
  List.replicate commands (.run id { stamp := stamp })

/-- Bob may send one request in a second and sends two, Alice sends one. -/
def hasty (id : Nat) : Desc :=
  match id with
  | 0 => request "t0" "bob" 1 100 none
  | 1 => request "t1" "bob" 1 100 none
  | _ => request "t2" "alice" 10 100 none

def hastyTurns : List Turn := served 0 0 8 ++ served 1 0 2 ++ served 2 0 8

theorem hasty_apart (digest : String → String) : Apart digest hasty "bob" := by
  intro id other key _ _ taken
  have none : keyOf digest (hasty other) = none := by
    unfold hasty
    split <;> rfl
  rw [none] at taken
  contradiction

theorem others_unaffected_hasty :
    rejected 3 id hasty hastyTurns "bob" 1 = true ∧
      response ((outcome 3 id hasty (Turns.purge (rejected 3 id hasty hastyTurns "bob") hastyTurns)).tasks 2) =
        response ((outcome 3 id hasty hastyTurns).tasks 2) := by
  refine ⟨by decide +kernel, ?_⟩
  exact (others_unaffected 3 id hasty hastyTurns "bob").2 (by decide +kernel) (hasty_apart id) 2
    (by decide)

/-- Bob has no quota left and sends a request with a key that Alice uses as well. -/
def spent (id : Nat) : Desc :=
  match id with
  | 0 => request "t0" "bob" 10 0 (some "k")
  | _ => request "t1" "alice" 10 100 (some "k")

def spentTurns : List Turn := served 0 0 5 ++ served 1 0 10

/-- Bob may send nothing; the time stamp of Alice's last request is older than his. -/
def late (id : Nat) : Desc :=
  match id with
  | 3 => request "t3" "bob" 0 100 none
  | _ => request "t" "alice" 10 100 none

def lateTurns : List Turn :=
  [.ambient 500] ++ served 0 0 1 ++ served 1 0 1 ++ served 2 500 1 ++ [.ambient 500] ++
    served 3 1000 2 ++ served 4 999 8

/-- A user beyond his own limits makes the global limit reject the request of another, has it
answered with a task that does not exist, or spares it a rejection. -/
theorem others_affected :
    (response ((outcome 2 id hasty hastyTurns).tasks 2) = some .rateLimited ∧
      response ((outcome 2 id hasty
          (Turns.purge (rejected 2 id hasty hastyTurns "bob") hastyTurns)).tasks 2) =
        some (.accepted "t2")) ∧
    (response ((outcome 100 id spent spentTurns).tasks 1) = some (.accepted "t0") ∧
      response ((outcome 100 id spent
          (Turns.purge (rejected 100 id spent spentTurns "bob") spentTurns)).tasks 1) =
        some (.accepted "t1")) ∧
    (response ((outcome 3 id late lateTurns).tasks 4) = some (.accepted "t") ∧
      response ((outcome 3 id late
          (Turns.purge (rejected 3 id late lateTurns "bob") lateTurns)).tasks 4) =
        some .rateLimited) := by
  decide +kernel

end LimiterIsolation
end Nl2SqlAgent

import Nl2SqlAgent.Lib.Watch
import Nl2SqlAgent.SemanticCache

/-! Lookups in the semantic cache and stores to it (`storage/redis_cache.py`), one Redis command
at a time: whether the key set keeps every live document, and what a lookup finds while others
store, remove and time passes. -/
namespace Nl2SqlAgent

open Lib

namespace SharedCache

open SemanticCache (Embedder Entry threshold truncated)

variable {V : Type}

/-- `best_sim` and `best_entry`. -/
abbrev Best (V : Type) := Rat × Option (String × Entry V)

/-- The commands on `semcache:keys` and on the documents, and the answer of a lookup. -/
inductive Effect (V : Type) where
  | smembers
  | get (id : String)
  | srem (id : String)
  | setex (id : String) (entry : Entry V)
  | sadd (id : String)
  | answer (best : Best V)

def Effect.Answer : Effect V → Type
  | .smembers => List String
  | .get _ => Option (Entry V)
  | _ => Unit

abbrev Task (V : Type) := Prog (Effect V) Effect.Answer

def ask (e : Effect V) : Task V e.Answer := Prog.perform e

/-- `sim > threshold and sim > best_sim`. -/
def better (o : Embedder V) (asked : V) (best : Best V) (id : String) (entry : Entry V) : Best V :=
  let sim := o.cosine asked entry.embedding
  if threshold < sim ∧ best.1 < sim then (sim, some (id, entry)) else best

/-- The loop above the keys; `_cleanup_stale` removes a key without a document. -/
def scan (o : Embedder V) (asked : V) : Best V → List String → Task V (Best V)
  | best, [] => .ret best
  | best, id :: rest => do
    match ← ask (.get id) with
    | none => do
      let _ ← ask (.srem id)
      scan o asked best rest
    | some entry => scan o asked (better o asked best id entry) rest

def cacheGetLlm (o : Embedder V) (question : String) : Task V Unit := do
  let keys : List String ← ask .smembers
  if keys.isEmpty then ask (.answer (0, none))
  else do
    let best ← scan o (o.encode question) (0, none) keys
    ask (.answer best)

/-- The document that a store writes. -/
def written (o : Embedder V) (question sql : String) (result : ExecResult) : Entry V :=
  ⟨question, sql, truncated result, o.encode question⟩

/-- `cache_set_llm`, under a new `uuid4`. -/
def cacheSetLlm (o : Embedder V) (id question sql : String) (result : ExecResult) : Task V Unit := do
  let _ ← ask (.setex id (written o question sql result))
  ask (.sadd id)

/-- A lookup, with a number of its own, or a store, with its id. -/
inductive Call where
  | lookup (number : Nat) (question : String)
  | store (id question sql : String) (result : ExecResult)

inductive Key where
  | lookup (number : Nat)
  | store (id : String)
  deriving DecidableEq

def Call.key : Call → Key
  | .lookup number _ => .lookup number
  | .store id _ _ _ => .store id

def body (o : Embedder V) : Call → Task V Unit
  | .lookup _ question => cacheGetLlm o question
  | .store id question sql result => cacheSetLlm o id question sql result

/-- The key set, and the documents with the time at which they expire; the calls so far are not
kept by the code. -/
structure World (V : Type) where
  clock : Nat := 0
  keys : List String := []
  docs : String → Option (Entry V × Nat) := fun _ => none
  calls : List Call := []

/-- The document under an id, while it lives. -/
def World.live (w : World V) (id : String) : Option (Entry V) :=
  ((w.docs id).filter fun doc => w.clock < doc.2).map Prod.fst

/-- `_CACHE_TTL`, in milliseconds. -/
def cacheTtl : Nat := 7200000

def World.after (w : World V) : Effect V → World V
  | .srem id => { w with keys := w.keys.filter (· ≠ id) }
  | .setex id entry => { w with docs := Function.update w.docs id (some (entry, w.clock + cacheTtl)) }
  | .sadd id => { w with keys := if id ∈ w.keys then w.keys else id :: w.keys }
  | .smembers | .get _ | .answer _ => w

/-- Redis gives the members of a set in any order. -/
def reply (w : World V) (order : List String) : (e : Effect V) → Option e.Answer
  | .smembers => if order.Perm w.keys then some order else none
  | .get id => some (w.live id)
  | .srem _ | .setex _ _ | .sadd _ | .answer _ => some ()

/-- A choice is the order of the members, and an ambient move the time that passes. No `uuid4`
is given twice. -/
def system (o : Embedder V) : Threads (Effect V) Effect.Answer (World V) Call (List String) Nat where
  body := body o
  perform w order e := (reply w order e).map fun r => (w.after e, r, [])
  arrive w call :=
    if call.key ∈ w.calls.map Call.key then none else some { w with calls := call :: w.calls }
  ambient w ms := some { w with clock := w.clock + ms }

/-- A lookup that has answered: the ids in the key set when it began, the times at which it began
and ended, and the best entry. -/
structure Lookup (V : Type) where
  question : String
  known : List String
  begun : Nat
  ended : Nat
  best : Best V

/-- The ids that stores have added to the key set, and the lookups. -/
structure Record (V : Type) where
  announced : List String := []
  known : Nat → List String := fun _ => []
  begun : Nat → Nat := fun _ => 0
  answers : List (Lookup V) := []

def Record.after (g : Record V) (clock : Nat) : Call → Effect V → Record V
  | .lookup n question, .answer best =>
    { g with answers := ⟨question, g.known n, g.begun n, clock, best⟩ :: g.answers }
  | .store _ _ _ _, .sadd id => { g with announced := id :: g.announced }
  | _, _ => g

def Record.arrived (g : Record V) (clock : Nat) : Call → Record V
  | .lookup n _ =>
    { g with known := Function.update g.known n g.announced, begun := Function.update g.begun n clock }
  | .store _ _ _ _ => g

def notes : Notes (Effect V) Effect.Answer (World V) Call Nat (Record V) where
  run w g call e _ := g.after w.clock call e
  arrive w g call := g.arrived w.clock call

abbrev watched (o : Embedder V) := (system o).watched notes

abbrev Run (V : Type) :=
  Config (Call × Effect V) (fun e => e.2.Answer) (World V × Record V) Call

def start : Run V := ⟨({}, {}), []⟩

inductive Point (V : Type) where
  | looking (question : String)
  | scanning (question : String) (best : Best V) (pending : List String)
  | stale (question : String) (best : Best V) (id : String) (pending : List String)
  | storing (id : String) (entry : Entry V)
  | adding (id : String)
  | finished

def protocol (o : Embedder V) : Prog.Protocol (Effect V) Effect.Answer (Point V) where
  allows
    | .looking _, .smembers => True
    | .scanning _ _ (id :: _), .get id' => id' = id
    | .scanning _ best [], .answer best' => best' = best
    | .stale _ _ id _, .srem id' => id' = id
    | .storing id entry, .setex id' entry' => id' = id ∧ entry' = entry
    | .adding id, .sadd id' => id' = id
    | _, _ => False
  next
    | .looking question, .smembers, keys, p' => p' = .scanning question (0, none) keys
    | .scanning question best (id :: rest), .get _, none, p' => p' = .stale question best id rest
    | .scanning question best (id :: rest), .get _, some entry, p' =>
      p' = .scanning question (better o (o.encode question) best id entry) rest
    | .stale question best _ rest, .srem _, _, p' => p' = .scanning question best rest
    | .storing id _, .setex _ _, _, p' => p' = .adding id
    | _, _, _, p' => p' = .finished
  final _ := True

variable {o : Embedder V}

theorem answer_follows (question : String) (best : Best V) :
    (ask (.answer best)).Follows (protocol o) (.scanning question best []) :=
  ⟨rfl, fun _ _ _ => trivial⟩

/-- By induction on the keys that are left: one round per key, or two commands where its document
is gone. -/
theorem scan_follows (question : String) (best : Best V) (pending : List String) :
    (scan o (o.encode question) best pending).Keeps (protocol o)
      (fun best' p => p = .scanning question best' []) (.scanning question best pending) := by
  induction pending generalizing best with
  | nil => rfl
  | cons id rest ih =>
    refine ⟨rfl, fun found p next => ?_⟩
    cases (found : Option (Entry V)) with
    | none =>
      obtain rfl := next
      refine ⟨rfl, fun _ p next => ?_⟩
      obtain rfl := next
      exact ih best
    | some entry =>
      obtain rfl := next
      exact ih _

theorem lookup_follows (question : String) :
    (cacheGetLlm o question).Follows (protocol o) (.looking question) := by
  refine ⟨trivial, fun keys p next => ?_⟩
  obtain rfl := next
  cases (keys : List String) with
  | nil => exact answer_follows question _
  | cons id rest =>
    change (scan o (o.encode question) (0, none) (id :: rest) >>= fun best =>
      ask (.answer best)).Follows (protocol o) _
    refine Prog.follows_bind (scan_follows question (0, none) (id :: rest)) fun best p at_ => ?_
    obtain rfl := at_
    exact answer_follows question best

theorem store_follows (id question sql : String) (result : ExecResult) :
    (cacheSetLlm o id question sql result).Follows (protocol o)
      (.storing id (written o question sql result)) := by
  refine ⟨⟨rfl, rfl⟩, fun _ p next => ?_⟩
  obtain rfl := next
  exact ⟨rfl, fun _ _ _ => trivial⟩

theorem live_eq_some {w : World V} {id : String} {entry : Entry V} :
    w.live id = some entry ↔ ∃ expires, w.docs id = some (entry, expires) ∧ w.clock < expires := by
  simp only [World.live, Option.map_eq_some_iff, Option.filter_eq_some_iff, decide_eq_true_eq]
  constructor
  · rintro ⟨⟨_, expires⟩, ⟨stored, alive⟩, rfl⟩
    exact ⟨expires, stored, alive⟩
  · rintro ⟨expires, stored, alive⟩
    exact ⟨(entry, expires), ⟨stored, alive⟩, rfl⟩

/-- What a lookup has found and removed so far, but for the ids that are still pending. -/
structure Sees (o : Embedder V) (w : World V) (a : Lookup V) (pending : List String) : Prop where
  found : ∀ found, a.best.2 = some found →
    a.best.1 = o.cosine (o.encode a.question) found.2.embedding ∧ threshold < a.best.1 ∧
      ∃ expires, w.docs found.1 = some (found.2, expires) ∧ a.begun < expires
  nothing : a.best.2 = none → a.best.1 = 0
  best : ∀ id ∈ a.known, ∀ entry expires, w.docs id = some (entry, expires) → a.ended < expires →
    threshold < o.cosine (o.encode a.question) entry.embedding →
      id ∈ pending ∨ o.cosine (o.encode a.question) entry.embedding ≤ a.best.1
  cleaned : ∀ id ∈ a.known, ∀ entry expires, w.docs id = some (entry, expires) →
    expires ≤ a.begun → id ∈ pending ∨ id ∉ w.keys

/-- The lookup with a number, as it stands now. -/
def Record.lookup (g : Record V) (n : Nat) (question : String) (clock : Nat) (best : Best V) : Lookup V :=
  ⟨question, g.known n, g.begun n, clock, best⟩

/-- What a call's point says of the cache. -/
def Point.Holds (o : Embedder V) (w : World V × Record V) : Call → Point V → Prop
  | .lookup n question, .looking question' =>
    question' = question ∧ w.2.known n ⊆ w.2.announced ∧ w.2.begun n ≤ w.1.clock
  | .lookup n question, .scanning question' best pending =>
    question' = question ∧ w.2.known n ⊆ w.2.announced ∧ w.2.begun n ≤ w.1.clock ∧
      pending ⊆ w.2.announced ∧ Sees o w.1 (w.2.lookup n question w.1.clock best) pending
  | .lookup n question, .stale question' best id pending =>
    question' = question ∧ w.2.known n ⊆ w.2.announced ∧ w.2.begun n ≤ w.1.clock ∧
      id :: pending ⊆ w.2.announced ∧
      Sees o w.1 (w.2.lookup n question w.1.clock best) (id :: pending) ∧
      ∃ entry expires, w.1.docs id = some (entry, expires) ∧ expires ≤ w.1.clock
  | .store id question sql result, .storing id' entry =>
    id' = id ∧ entry = written o question sql result ∧ w.1.docs id = none
  | .store id _ _ _, .adding id' => id' = id ∧ (w.1.docs id).isSome ∧ id ∉ w.2.announced
  | _, .finished => True
  | _, _ => False

/-- The key set has every live document that was added to it, and no id that was not. -/
structure Indexed (o : Embedder V) (w : World V × Record V) : Prop where
  live : ∀ id ∈ w.2.announced, ∀ entry, w.1.live id = some entry → id ∈ w.1.keys
  keys : w.1.keys ⊆ w.2.announced
  announced : ∀ id ∈ w.2.announced, (w.1.docs id).isSome
  docs : ∀ id doc, w.1.docs id = some doc → ∃ question sql result,
    Call.store id question sql result ∈ w.1.calls ∧ doc.1 = written o question sql result
  answers : ∀ a ∈ w.2.answers, a.known ⊆ w.2.announced ∧ Sees o w.1 a []

/-- What a step of a call leaves to the others: a document is written once, and only an id that
is new to the key set is added to it. -/
structure Grows (w w' : World V × Record V) (other : Key) : Prop where
  clock : w.1.clock ≤ w'.1.clock
  docs : ∀ id doc, w.1.docs id = some doc → w'.1.docs id = some doc
  fresh : ∀ id, other ≠ .store id → w'.1.docs id = w.1.docs id
  announced : w.2.announced ⊆ w'.2.announced
  newly : ∀ id ∈ w'.2.announced, id ∈ w.2.announced ∨ other = .store id
  keys : ∀ id ∈ w'.1.keys, id ∈ w.1.keys ∨ id ∉ w.2.announced
  known : ∀ n, other ≠ .lookup n → w'.2.known n = w.2.known n
  begun : ∀ n, other ≠ .lookup n → w'.2.begun n = w.2.begun n

section Growth

variable {w w' : World V × Record V} {other : Key} {a : Lookup V} {pending : List String}

/-- The documents that a lookup speaks of are those of ids in its key set, which stay. -/
theorem Grows.sees (grows : Grows w w' other) (indexed : Indexed o w)
    (known : a.known ⊆ w.2.announced) (sees : Sees o w.1 a pending) {later : Nat}
    (time : a.ended ≤ later) : Sees o w'.1 { a with ended := later } pending := by
  have before {id : String} (member : id ∈ a.known) {doc : Entry V × Nat}
      (stored : w'.1.docs id = some doc) : w.1.docs id = some doc := by
    obtain ⟨doc', present⟩ := Option.isSome_iff_exists.mp (indexed.announced id (known member))
    rw [present, ← grows.docs id doc' present, stored]
  refine ⟨fun found best => ?_, sees.nothing, fun id member entry expires stored alive => ?_,
    fun id member entry expires stored gone => ?_⟩
  · obtain ⟨value, above, expires, stored, alive⟩ := sees.found found best
    exact ⟨value, above, expires, grows.docs _ _ stored, alive⟩
  · exact sees.best id member entry expires (before member stored) (Nat.lt_of_le_of_lt time alive)
  · refine (sees.cleaned id member entry expires (before member stored) gone).imp_right ?_
    intro absent present
    exact (grows.keys id present).elim absent fun new => new (known member)

theorem Grows.answers (grows : Grows w w' other) (indexed : Indexed o w) :
    ∀ a ∈ w.2.answers, a.known ⊆ w'.2.announced ∧ Sees o w'.1 a [] := by
  intro a member
  obtain ⟨known, sees⟩ := indexed.answers a member
  exact ⟨List.Subset.trans known grows.announced, grows.sees indexed known sees le_rfl⟩

theorem Grows.holds (grows : Grows w w' other) (indexed : Indexed o w) {call : Call}
    (apart : other ≠ call.key) {p : Point V} (holds : p.Holds o w call) : p.Holds o w' call := by
  cases call with
  | lookup n question =>
    have known := grows.known n apart
    have begun := grows.begun n apart
    have clock := grows.clock
    cases p with
    | looking question' =>
      obtain ⟨same, before, time⟩ := holds
      refine ⟨same, ?_, ?_⟩
      · rw [known]
        exact List.Subset.trans before grows.announced
      · rw [begun]
        exact time.trans clock
    | scanning question' best pending =>
      obtain ⟨same, before, time, left, sees⟩ := holds
      refine ⟨same, ?_, ?_, List.Subset.trans left grows.announced, ?_⟩
      · rw [known]
        exact List.Subset.trans before grows.announced
      · rw [begun]
        exact time.trans clock
      · rw [Record.lookup, known, begun]
        exact grows.sees indexed before sees clock
    | stale question' best id pending =>
      obtain ⟨same, before, time, left, sees, entry, expires, stored, gone⟩ := holds
      refine ⟨same, ?_, ?_, List.Subset.trans left grows.announced, ?_, entry, expires,
        grows.docs id _ stored, gone.trans clock⟩
      · rw [known]
        exact List.Subset.trans before grows.announced
      · rw [begun]
        exact time.trans clock
      · rw [Record.lookup, known, begun]
        exact grows.sees indexed before sees clock
    | finished => trivial
    | _ => exact absurd holds id
  | store id question sql result =>
    have fresh := grows.fresh id apart
    cases p with
    | storing id' entry =>
      obtain ⟨same, entry', none⟩ := holds
      exact ⟨same, entry', fresh.trans none⟩
    | adding id' =>
      obtain ⟨same, stored, new⟩ := holds
      exact ⟨same, fresh ▸ stored, fun member => (grows.newly id member).elim new apart⟩
    | finished => trivial
    | _ => exact absurd holds (fun false => false)

end Growth

/-- After a step of a call the cache is indexed and has grown, and the call is where the answer
leads. -/
structure Advances (o : Embedder V) (w w' : World V × Record V) (call : Call)
    (next : Point V → Prop) : Prop where
  indexed : Indexed o w'
  grows : Grows w w' call.key
  point : ∃ p, next p ∧ p.Holds o w' call

section Commands

variable {w : World V × Record V} {n : Nat} {question : String} {best : Best V}
  {id : String} {pending order : List String}

theorem Grows.refl (w : World V × Record V) (other : Key) : Grows w w other :=
  ⟨le_rfl, fun _ _ stored => stored, fun _ _ => rfl, List.Subset.refl _, fun _ => .inl, fun _ => .inl,
    fun _ _ => rfl, fun _ _ => rfl⟩

/-- The lookup has the key set as it is now: every live document of it is still to come. -/
theorem smembers_advances (indexed : Indexed o w)
    (at_ : (Point.looking question).Holds o w (.lookup n question)) (all : order.Perm w.1.keys) :
    Advances o w w (.lookup n question) (· = .scanning question (0, none) order) := by
  obtain ⟨-, before, time⟩ := at_
  refine ⟨indexed, .refl _ _, _, rfl, rfl, before, time, fun id member =>
    indexed.keys (all.mem_iff.mp member), ?_⟩
  refine ⟨fun _ none => (nomatch none), fun _ => rfl, fun id member entry expires stored alive _ => ?_,
    fun id _ _ _ _ _ => ?_⟩
  · exact .inl (all.mem_iff.mpr (indexed.live id (before member) entry
      (live_eq_some.mpr ⟨expires, stored, alive⟩)))
  · rw [all.mem_iff]
    exact em _

/-- The best entry is at least as similar as the one before and the one looked at. -/
theorem better_spec (asked : V) (best : Best V) (id : String) (entry : Entry V) :
    (better o asked best id entry = best ∧
      (threshold < o.cosine asked entry.embedding → o.cosine asked entry.embedding ≤ best.1)) ∨
    (better o asked best id entry = (o.cosine asked entry.embedding, some (id, entry)) ∧
      threshold < o.cosine asked entry.embedding ∧ best.1 < o.cosine asked entry.embedding) := by
  by_cases above : threshold < o.cosine asked entry.embedding ∧ best.1 < o.cosine asked entry.embedding
  · exact .inr ⟨if_pos above, above⟩
  · refine .inl ⟨if_neg above, fun similar => ?_⟩
    exact not_lt.mp fun more => above ⟨similar, more⟩

/-- The lookup goes on behind an id that has lived or is gone from the key set, with a best entry
that is at least as similar as before. -/
theorem Sees.behind {w : World V} {a : Lookup V} (sees : Sees o w a (id :: pending)) {best' : Best V}
    (found : ∀ found, best'.2 = some found →
      best'.1 = o.cosine (o.encode a.question) found.2.embedding ∧ threshold < best'.1 ∧
        ∃ expires, w.docs found.1 = some (found.2, expires) ∧ a.begun < expires)
    (nothing : best'.2 = none → best'.1 = 0) (more : a.best.1 ≤ best'.1)
    (least : ∀ entry expires, w.docs id = some (entry, expires) → a.ended < expires →
      threshold < o.cosine (o.encode a.question) entry.embedding →
        o.cosine (o.encode a.question) entry.embedding ≤ best'.1)
    (gone : ∀ entry expires, w.docs id = some (entry, expires) → expires ≤ a.begun → id ∉ w.keys) :
    Sees o w { a with best := best' } pending := by
  refine ⟨found, nothing, fun id' member entry expires stored alive above => ?_,
    fun id' member entry expires stored dead => ?_⟩
  · rcases sees.best id' member entry expires stored alive above with here | done
    · rcases List.mem_cons.mp here with rfl | later
      · exact .inr (least entry expires stored alive above)
      · exact .inl later
    · exact .inr (done.trans more)
  · rcases sees.cleaned id' member entry expires stored dead with here | done
    · rcases List.mem_cons.mp here with rfl | later
      · exact .inr (gone entry expires stored dead)
      · exact .inl later
    · exact .inr done

theorem get_advances (indexed : Indexed o w)
    (at_ : (Point.scanning question best (id :: pending)).Holds o w (.lookup n question)) :
    Advances o w w (.lookup n question) fun p =>
      match w.1.live id with
      | none => p = .stale question best id pending
      | some entry => p = .scanning question (better o (o.encode question) best id entry) pending := by
  obtain ⟨-, before, time, left, sees⟩ := at_
  refine ⟨indexed, .refl _ _, ?_⟩
  obtain ⟨⟨entry, expires⟩, stored⟩ :=
    Option.isSome_iff_exists.mp (indexed.announced id (left List.mem_cons_self))
  cases alive : w.1.live id with
  | none =>
    refine ⟨_, rfl, rfl, before, time, left, sees, entry, expires, stored, not_lt.mp fun lives => ?_⟩
    rw [live_eq_some.mpr ⟨expires, stored, lives⟩] at alive
    contradiction
  | some found =>
    obtain ⟨expires', stored', lives⟩ := live_eq_some.mp alive
    have lived (entry' : Entry V) (expires'' : Nat) (same : w.1.docs id = some (entry', expires''))
        (dead : expires'' ≤ w.2.begun n) : id ∉ w.1.keys := by
      rw [stored'] at same
      obtain ⟨-, rfl⟩ := Prod.mk.inj (Option.some.inj same)
      exact absurd (Nat.lt_of_lt_of_le lives (dead.trans time)) (Nat.lt_irrefl _)
    refine ⟨_, rfl, rfl, before, time, List.Subset.trans (List.subset_cons_self _ _) left, ?_⟩
    rcases better_spec (o.encode question) best id found with ⟨same, least⟩ | ⟨new, similar, more⟩
    · rw [same]
      refine sees.behind sees.found sees.nothing le_rfl (fun entry' _ same _ above => ?_) lived
      rw [stored'] at same
      obtain ⟨rfl, -⟩ := Prod.mk.inj (Option.some.inj same)
      exact least above
    · rw [new]
      refine sees.behind ?_ (fun none => (nomatch none)) more.le (fun entry' _ same _ _ => ?_) lived
      · rintro _ ⟨⟩
        exact ⟨rfl, similar, expires', stored', Nat.lt_of_le_of_lt time lives⟩
      · rw [stored'] at same
        obtain ⟨rfl, -⟩ := Prod.mk.inj (Option.some.inj same)
        exact le_rfl

/-- Only the id of a document that has expired is removed. -/
theorem srem_advances (indexed : Indexed o w)
    (at_ : (Point.stale question best id pending).Holds o w (.lookup n question)) :
    Advances o w (w.1.after (.srem id), w.2) (.lookup n question)
      (· = .scanning question best pending) := by
  obtain ⟨-, before, time, left, sees, entry, expires, stored, dead⟩ := at_
  have grows : Grows w (w.1.after (.srem id), w.2) (Call.lookup n question).key :=
    ⟨le_rfl, fun _ _ stored => stored, fun _ _ => rfl, List.Subset.refl _, fun _ => .inl,
      fun _ member => .inl (List.mem_of_mem_filter member), fun _ _ => rfl, fun _ _ => rfl⟩
  refine ⟨⟨fun id' member entry' alive => ?_,
    fun _ member => indexed.keys (List.mem_of_mem_filter member), indexed.announced, indexed.docs,
    grows.answers indexed⟩, grows, _, rfl, rfl, before, time,
    List.Subset.trans (List.subset_cons_self _ _) left, ?_⟩
  · refine List.mem_filter.mpr ⟨indexed.live id' member entry' alive, decide_eq_true ?_⟩
    rintro rfl
    obtain ⟨expires', stored', lives⟩ := live_eq_some.mp alive
    have same := stored.symm.trans stored'
    obtain ⟨-, rfl⟩ := Prod.mk.inj (Option.some.inj same)
    exact absurd lives (Nat.not_lt.mpr dead)
  · have seen := grows.sees indexed before sees le_rfl
    refine seen.behind seen.found seen.nothing le_rfl (fun entry' expires' same alive _ => ?_)
      fun _ _ _ _ member => ?_
    · have same' := stored.symm.trans same
      obtain ⟨-, rfl⟩ := Prod.mk.inj (Option.some.inj same')
      exact absurd alive (Nat.not_lt.mpr dead)
    · exact of_decide_eq_true (List.mem_filter.mp member).2 rfl

theorem answer_advances (indexed : Indexed o w)
    (at_ : (Point.scanning question best []).Holds o w (.lookup n question)) :
    Advances o w (w.1, w.2.after w.1.clock (.lookup n question) (.answer best)) (.lookup n question)
      (· = .finished) := by
  obtain ⟨-, before, -, -, sees⟩ := at_
  refine ⟨⟨indexed.live, indexed.keys, indexed.announced, indexed.docs, fun a member => ?_⟩, ?_, _,
    rfl, trivial⟩
  · rcases List.mem_cons.mp member with rfl | old
    · exact ⟨before, sees⟩
    · exact indexed.answers a old
  · exact ⟨le_rfl, fun _ _ stored => stored, fun _ _ => rfl, List.Subset.refl _, fun _ => .inl,
      fun _ => .inl, fun _ _ => rfl, fun _ _ => rfl⟩

/-- A document is written under an id that no key set has had yet. -/
theorem setex_advances {sql : String} {result : ExecResult} (indexed : Indexed o w)
    (made : Call.store id question sql result ∈ w.1.calls) (none : w.1.docs id = none) :
    Advances o w (w.1.after (.setex id (written o question sql result)), w.2)
      (.store id question sql result) (· = .adding id) := by
  have new : id ∉ w.2.announced := fun member => by
    have stored := indexed.announced id member
    rw [none] at stored
    contradiction
  have same (id' : String) (other : id' ≠ id) :
      (w.1.after (.setex id (written o question sql result))).docs id' = w.1.docs id' :=
    Function.update_of_ne other _ _
  have own : (w.1.after (.setex id (written o question sql result))).docs id =
      some (written o question sql result, w.1.clock + cacheTtl) := Function.update_self id _ _
  have grows : Grows w (w.1.after (.setex id (written o question sql result)), w.2)
      (Call.store id question sql result).key := by
    refine ⟨le_rfl, fun id' doc stored => ?_, fun id' other => same id' ?_, List.Subset.refl _,
      fun _ => .inl, fun _ => .inl, fun _ _ => rfl, fun _ _ => rfl⟩
    · refine (same id' ?_).trans stored
      rintro rfl
      rw [none] at stored
      contradiction
    · rintro rfl
      exact other rfl
  refine ⟨⟨fun id' member entry alive => ?_, indexed.keys, fun id' member => ?_,
    fun id' doc stored => ?_, grows.answers indexed⟩, grows, _, rfl, rfl, ?_, new⟩
  · obtain ⟨expires, stored, lives⟩ := live_eq_some.mp alive
    rw [same id' fun eq => new (eq ▸ member)] at stored
    exact indexed.live id' member entry (live_eq_some.mpr ⟨expires, stored, lives⟩)
  · rw [same id' fun eq => new (eq ▸ member)]
    exact indexed.announced id' member
  · by_cases eq : id' = id
    · subst eq
      rw [own] at stored
      exact ⟨question, sql, result, made, Option.some.inj stored ▸ rfl⟩
    · rw [same id' eq] at stored
      exact indexed.docs id' doc stored
  · rw [own]
    rfl

theorem sadd_advances {sql : String} {result : ExecResult} (indexed : Indexed o w)
    (stored : (w.1.docs id).isSome) (new : id ∉ w.2.announced) :
    Advances o w (w.1.after (.sadd id),
      w.2.after w.1.clock (.store id question sql result) (.sadd id))
      (.store id question sql result) (· = .finished) := by
  have keys (id' : String) : id' ∈ (w.1.after (.sadd id)).keys ↔ id' = id ∨ id' ∈ w.1.keys := by
    change id' ∈ (if id ∈ w.1.keys then w.1.keys else id :: w.1.keys) ↔ _
    split
    next present =>
      refine ⟨.inr, fun either => either.elim (fun eq => eq ▸ present) fun member => member⟩
    next => exact List.mem_cons
  have grows : Grows w (w.1.after (.sadd id),
      w.2.after w.1.clock (.store id question sql result) (.sadd id))
      (Call.store id question sql result).key := by
    refine ⟨le_rfl, fun _ _ stored => stored, fun _ _ => rfl, List.subset_cons_self _ _,
      fun id' member => ?_, fun id' member => ?_, fun _ _ => rfl, fun _ _ => rfl⟩
    · exact (List.mem_cons.mp member).elim (fun eq => .inr (eq ▸ rfl)) .inl
    · exact ((keys id').mp member).elim (fun eq => .inr (eq ▸ new)) .inl
  refine ⟨⟨fun id' member entry alive => (keys id').mpr ?_, fun id' member => ?_,
    fun id' member => ?_, indexed.docs, grows.answers indexed⟩, grows, _, rfl, trivial⟩
  · exact (List.mem_cons.mp member).imp_right fun old => indexed.live id' old entry alive
  · exact List.mem_cons.mpr (((keys id').mp member).imp_right fun old => indexed.keys old)
  · exact (List.mem_cons.mp member).elim (fun eq => eq ▸ stored) (indexed.announced id')

/-- By what the point allows. -/
theorem advance {call : Call} {p : Point V} {e : Effect V} {r : e.Answer} (indexed : Indexed o w)
    (made : call ∈ w.1.calls) (at_ : p.Holds o w call) (allowed : (protocol o).allows p e)
    (replied : reply w.1 order e = some r) :
    Advances o w (w.1.after e, w.2.after w.1.clock call e) call ((protocol o).next p e r) := by
  cases p with
  | looking question =>
    cases e with
    | smembers =>
      cases call with
      | lookup n question' =>
        obtain ⟨all, same⟩ := Option.ite_none_right_eq_some.mp replied
        obtain rfl : order = r := Option.some.inj same
        obtain rfl : question = question' := at_.1
        exact smembers_advances indexed at_ all
      | store => exact absurd at_ id
    | _ => exact absurd allowed id
  | scanning question best pending =>
    cases call with
    | lookup n question' =>
      obtain rfl : question = question' := at_.1
      cases pending with
      | nil =>
        cases e with
        | answer best' =>
          obtain rfl : best' = best := allowed
          exact answer_advances indexed at_
        | _ => exact absurd allowed id
      | cons id rest =>
        cases e with
        | get id' =>
          obtain rfl : id' = id := allowed
          obtain rfl : w.1.live id' = r := Option.some.inj replied
          have advances := get_advances indexed at_
          cases alive : w.1.live id' with
          | none =>
            rw [alive] at advances
            exact advances
          | some entry =>
            rw [alive] at advances
            exact advances
        | _ => exact absurd allowed fun false => false
    | store => exact absurd at_ id
  | stale question best id rest =>
    cases call with
    | lookup n question' =>
      obtain rfl : question = question' := at_.1
      cases e with
      | srem id' =>
        obtain rfl : id' = id := allowed
        exact srem_advances indexed at_
      | _ => exact absurd allowed fun false => false
    | store => exact absurd at_ fun false => false
  | storing id entry =>
    cases call with
    | store id' question sql result =>
      obtain ⟨rfl, rfl, none⟩ := at_
      cases e with
      | setex id' entry' =>
        obtain ⟨rfl, rfl⟩ := allowed
        exact setex_advances indexed made none
      | _ => exact absurd allowed fun false => false
    | lookup => exact absurd at_ fun false => false
  | adding id =>
    cases call with
    | store id' question sql result =>
      obtain ⟨rfl, stored, new⟩ := at_
      cases e with
      | sadd id' =>
        obtain rfl : id' = id := allowed
        exact sadd_advances indexed stored new
      | _ => exact absurd allowed fun false => false
    | lookup => exact absurd at_ fun false => false
  | finished => cases e <;> exact absurd allowed id

end Commands

/-- A call that was made, and what it has left to do fits how far it has come. -/
def Underway (o : Embedder V) (w : World V × Record V)
    (t : Thread (Call × Effect V) (fun e => e.2.Answer) Call) : Prop :=
  t.desc ∈ w.1.calls ∧
    ∃ p, t.rest.Follows ((protocol o).tagged t.desc) p ∧ p.Holds o w t.desc

theorem after_calls (w : World V) (e : Effect V) : (w.after e).calls = w.calls := by
  cases e <;> rfl

theorem perform_cases {w w' : World V × Record V} {order : List String} {e : Call × Effect V}
    {r : e.2.Answer} {forks : List Call}
    (performed : (watched o).perform w order e = some (w', r, forks)) :
    reply w.1 order e.2 = some r ∧ w' = (w.1.after e.2, w.2.after w.1.clock e.1 e.2) ∧ forks = [] := by
  obtain ⟨taken, noted⟩ := Threads.watched_performed performed
  obtain ⟨answer, replied, same⟩ := Option.map_eq_some_iff.mp taken
  obtain ⟨first, rfl, rfl⟩ := by simpa using same
  exact ⟨replied, Prod.ext first.symm noted, rfl⟩

theorem arrive_cases {w w' : World V × Record V} {call : Call}
    (arrived : (watched o).arrive w call = some w') :
    (∀ other ∈ w.1.calls, other.key ≠ call.key) ∧
      w' = ({ w.1 with calls := call :: w.1.calls }, w.2.arrived w.1.clock call) := by
  obtain ⟨taken, noted⟩ := Threads.watched_arrived arrived
  obtain ⟨fresh, same⟩ := Option.ite_none_left_eq_some.mp taken
  exact ⟨fun other member eq => fresh (List.mem_map.mpr ⟨other, member, eq⟩),
    Prod.ext (Option.some.inj same).symm noted⟩

section Arrivals

variable {w : World V × Record V} {call : Call}

theorem arrived_announced (g : Record V) (clock : Nat) (call : Call) :
    (g.arrived clock call).announced = g.announced ∧ (g.arrived clock call).answers = g.answers := by
  cases call <;> exact ⟨rfl, rfl⟩

theorem arrive_grows (w : World V × Record V) (call : Call) :
    Grows w ({ w.1 with calls := call :: w.1.calls }, w.2.arrived w.1.clock call) call.key := by
  have same := (arrived_announced w.2 w.1.clock call).1
  refine ⟨le_rfl, fun _ _ stored => stored, fun _ _ => rfl, ?_, ?_, fun _ => .inl, ?_, ?_⟩
  · exact fun id member => same.symm ▸ member
  · exact fun id member => .inl (same ▸ member)
  · intro n other
    cases call with
    | store => rfl
    | lookup m question =>
      refine Function.update_of_ne ?_ _ _
      rintro rfl
      exact other rfl
  · intro n other
    cases call with
    | store => rfl
    | lookup m question =>
      refine Function.update_of_ne ?_ _ _
      rintro rfl
      exact other rfl

theorem arrive_indexed (indexed : Indexed o w) (call : Call) :
    Indexed o ({ w.1 with calls := call :: w.1.calls }, w.2.arrived w.1.clock call) := by
  obtain ⟨same, answers⟩ := arrived_announced w.2 w.1.clock call
  have grown := (arrive_grows w call).answers indexed
  refine ⟨?_, ?_, ?_, fun id doc stored => ?_, fun a member => grown a (answers ▸ member)⟩
  · rw [same]
    exact indexed.live
  · rw [same]
    exact indexed.keys
  · rw [same]
    exact indexed.announced
  · obtain ⟨question, sql, result, made, document⟩ := indexed.docs id doc stored
    exact ⟨question, sql, result, List.mem_cons_of_mem _ made, document⟩

/-- A new call is at its first point: the id of a store is in no other call. -/
theorem arrive_underway (indexed : Indexed o w) (fresh : ∀ other ∈ w.1.calls, other.key ≠ call.key) :
    Underway o ({ w.1 with calls := call :: w.1.calls }, w.2.arrived w.1.clock call)
      ((watched o).start call) := by
  refine ⟨List.mem_cons_self, ?_⟩
  cases call with
  | lookup n question =>
    refine ⟨.looking question, Prog.follows_tag _ (lookup_follows question), rfl, ?_, ?_⟩
    · have same := Function.update_self n w.2.announced w.2.known
      exact fun id member => same ▸ member
    · exact (Function.update_self n w.1.clock w.2.begun).le
  | store id question sql result =>
    refine ⟨.storing id _, Prog.follows_tag _ (store_follows id question sql result), rfl, rfl, ?_⟩
    by_contra stored
    obtain ⟨doc, stored⟩ := Option.ne_none_iff_exists'.mp stored
    obtain ⟨question', sql', result', made, -⟩ := indexed.docs id doc stored
    exact fresh _ made rfl

end Arrivals

theorem wait_grows (w : World V × Record V) (ms : Nat) (other : Key) :
    Grows w ({ w.1 with clock := w.1.clock + ms }, w.2) other :=
  ⟨Nat.le_add_right _ _, fun _ _ stored => stored, fun _ _ => rfl, List.Subset.refl _, fun _ => .inl,
    fun _ => .inl, fun _ _ => rfl, fun _ _ => rfl⟩

theorem wait_indexed {w : World V × Record V} (indexed : Indexed o w) (ms : Nat) :
    Indexed o ({ w.1 with clock := w.1.clock + ms }, w.2) := by
  refine ⟨fun id member entry alive => ?_, indexed.keys, indexed.announced, indexed.docs,
    (wait_grows w ms (.lookup 0)).answers indexed⟩
  obtain ⟨expires, stored, lives⟩ := live_eq_some.mp alive
  exact indexed.live id member entry
    (live_eq_some.mpr ⟨expires, stored, Nat.lt_of_le_of_lt (Nat.le_add_right _ _) lives⟩)

def outline (o : Embedder V) : Threads.Outline (watched o) fun _ _ _ _ => True where
  inv := Indexed o
  ok := Underway o
  apart call call' := call.key ≠ call'.key
  own {w order d e k w' r forks} indexed underway _ performed := by
    obtain ⟨made, p, ⟨⟨rfl, allowed⟩, later⟩, at_⟩ := underway
    obtain ⟨replied, rfl, rfl⟩ := perform_cases performed
    obtain ⟨kept, -, p', next, after⟩ := advance indexed made at_ allowed replied
    refine ⟨kept, ⟨?_, p', later _ p' next, after⟩, by simp⟩
    rw [after_calls]
    exact made
  stable {w order d e k w' r forks t} indexed underway _ performed other apart := by
    obtain ⟨made, p, ⟨⟨rfl, allowed⟩, -⟩, at_⟩ := underway
    obtain ⟨replied, rfl, rfl⟩ := perform_cases performed
    obtain ⟨made', q, follows, there⟩ := other
    have grows := (advance indexed made at_ allowed replied).grows
    refine ⟨?_, q, follows, grows.holds indexed apart.1 there⟩
    rw [after_calls]
    exact made'
  fork_apart {w order d e k w' r forks} _ _ performed := by
    obtain ⟨-, rfl, rfl⟩ := perform_cases performed
    simp
  arrive {w call w'} indexed arrived := by
    obtain ⟨fresh, rfl⟩ := arrive_cases arrived
    refine ⟨arrive_indexed indexed call, arrive_underway indexed fresh, fun t underway => ?_⟩
    obtain ⟨made, p, follows, at_⟩ := underway
    have apart := fresh t.desc made
    exact ⟨⟨List.mem_cons_of_mem _ made, p, follows,
      (arrive_grows w call).holds indexed apart.symm at_⟩, apart, apart.symm⟩
  ambient {w ms w'} indexed moved := by
    obtain ⟨taken, noted⟩ := Threads.watched_moved moved
    obtain rfl : w' = ({ w.1 with clock := w.1.clock + ms }, w.2) :=
      Prod.ext (Option.some.inj taken).symm noted
    refine ⟨wait_indexed indexed ms, fun t underway => ?_⟩
    obtain ⟨made, p, follows, at_⟩ := underway
    refine ⟨made, p, follows, ?_⟩
    cases call : t.desc with
    | lookup n question =>
      rw [call] at at_
      exact (wait_grows w ms (.store "")).holds indexed Key.noConfusion at_
    | store id question sql result =>
      rw [call] at at_
      exact (wait_grows w ms (.lookup 0)).holds indexed Key.noConfusion at_

theorem start_indexed (o : Embedder V) : Indexed o (start : Run V).world :=
  ⟨fun _ member => (nomatch member), fun _ member => (nomatch member), fun _ member => (nomatch member),
    fun _ _ stored => (nomatch stored), fun _ member => (nomatch member)⟩

theorem run_indexed {events : List (Event Call (List String) Nat)} {c : Run V}
    (run : (watched o).machine.exec start events = some c) : Indexed o c.world := by
  refine ((outline o).run ((outline o).holds_empty (start_indexed o)) ?_ run).world
  exact Machine.along_true.mono fun c event c' _ => (watched o).meets_true c c' event

/-- **No live document is lost from the key set.** In every run of lookups and stores, whoever
removes keys meanwhile, a document that a store has added is in the key set until it expires, and
it is what that store was called with. -/
theorem live_document_indexed {events : List (Event Call (List String) Nat)} {c : Run V}
    (run : (watched o).machine.exec start events = some c) {id : String} {entry : Entry V}
    (added : id ∈ c.world.2.announced) (alive : c.world.1.live id = some entry) :
    id ∈ c.world.1.keys ∧ ∃ question sql result,
      Call.store id question sql result ∈ c.world.1.calls ∧ entry = written o question sql result := by
  have indexed := run_indexed run
  obtain ⟨expires, stored, -⟩ := live_eq_some.mp alive
  exact ⟨indexed.live id added entry alive, indexed.docs id _ stored⟩

/-- Questions that are only similar to themselves. -/
def literal : Embedder String := ⟨fun question => question, fun a b => if a = b then 1 else 0⟩

def orders : Call :=
  .store "a" "How many orders?" "SELECT count(*) FROM orders" SemanticCache.rows.result

def users : Call :=
  .store "b" "How many users?" "SELECT count(*) FROM users" SemanticCache.rows.result

/-- A second store and another lookup come between the commands of a lookup; the first document
expires meanwhile, and its id is removed. -/
def overlapping : List (Event Call (List String) Nat) :=
  [.arrive orders, .run 0 [], .run 0 [], .arrive (.lookup 0 "How many orders?"), .run 1 ["a"],
    .ambient 1000, .arrive users, .run 2 [], .run 1 [], .ambient 7199000,
    .arrive (.lookup 1 "How many orders?"), .run 3 ["a"], .run 2 [], .run 3 [], .run 3 [], .run 3 [],
    .run 1 []]

theorem live_document_indexed_overlapping :
    ∃ c, (watched literal).machine.exec start overlapping = some c ∧
      "b" ∈ c.world.1.keys ∧ ∃ question sql result, Call.store "b" question sql result ∈ c.world.1.calls ∧
        written literal "How many users?" "SELECT count(*) FROM users"
          SemanticCache.rows.result = written literal question sql result := by
  have ends : ((watched literal).machine.exec start overlapping).any (fun c =>
      "b" ∈ c.world.2.announced ∧ c.world.1.live "b" = some (written literal
        "How many users?" "SELECT count(*) FROM users" SemanticCache.rows.result)) = true := by
    decide +kernel
  obtain ⟨c, run, final⟩ := (Option.any_eq_true _ _).mp ends
  obtain ⟨added, alive⟩ := of_decide_eq_true final
  exact ⟨c, run, live_document_indexed run added alive⟩

/-- What a lookup answers: an entry of a document that had not expired when it began, at least as
similar as each document of the key set that lived until it ended; and the ids of those that had
expired before it began are removed for good. -/
structure Correct (o : Embedder V) (w : World V) (a : Lookup V) : Prop where
  found : ∀ id entry, a.best.2 = some (id, entry) →
    a.best.1 = o.cosine (o.encode a.question) entry.embedding ∧ threshold < a.best.1 ∧
      (∃ expires, w.docs id = some (entry, expires) ∧ a.begun < expires) ∧
      ∃ question sql result,
        Call.store id question sql result ∈ w.calls ∧ entry = written o question sql result
  best : ∀ id ∈ a.known, ∀ entry expires, w.docs id = some (entry, expires) → a.ended < expires →
    threshold < o.cosine (o.encode a.question) entry.embedding →
      ∃ id' entry', a.best.2 = some (id', entry') ∧
        o.cosine (o.encode a.question) entry.embedding ≤
          o.cosine (o.encode a.question) entry'.embedding
  cleaned : ∀ id ∈ a.known, ∀ entry expires, w.docs id = some (entry, expires) →
    expires ≤ a.begun → id ∉ w.keys

theorem threshold_nonneg : 0 ≤ threshold := div_nonneg (by decide) (by decide)

/-- **What lookups find.** In every run of lookups and stores, one command at a time in any order,
with any time passing between them, every answer is correct. -/
theorem lookup_correct {events : List (Event Call (List String) Nat)} {c : Run V}
    (run : (watched o).machine.exec start events = some c) :
    ∀ a ∈ c.world.2.answers, Correct o c.world.1 a := by
  intro a member
  have indexed := run_indexed run
  obtain ⟨-, sees⟩ := indexed.answers a member
  refine ⟨fun id entry best => ?_, fun id known entry expires stored alive similar => ?_,
    fun id known entry expires stored dead => ?_⟩
  · obtain ⟨value, above, expires, stored, alive⟩ := sees.found _ best
    exact ⟨value, above, ⟨expires, stored, alive⟩, indexed.docs id _ stored⟩
  · have least := (sees.best id known entry expires stored alive similar).resolve_left List.not_mem_nil
    cases best : a.best.2 with
    | none =>
      rw [sees.nothing best] at least
      exact absurd (lt_of_lt_of_le similar least) (not_lt.mpr threshold_nonneg)
    | some found =>
      exact ⟨found.1, found.2, rfl, (sees.found found best).1 ▸ least⟩
  · exact (sees.cleaned id known entry expires stored dead).resolve_left List.not_mem_nil

theorem lookup_correct_overlapping :
    ∃ c, (watched literal).machine.exec start overlapping = some c ∧
      c.world.2.answers.length = 2 ∧ ∀ a ∈ c.world.2.answers, Correct literal c.world.1 a := by
  have ends : ((watched literal).machine.exec start overlapping).any (fun c =>
      c.world.2.answers.length = 2) = true := by decide +kernel
  obtain ⟨c, run, final⟩ := (Option.any_eq_true _ _).mp ends
  exact ⟨c, run, of_decide_eq_true final, lookup_correct run⟩

end SharedCache
end Nl2SqlAgent

import Nl2SqlAgent.AgentState
import Nl2SqlAgent.Lib.Machine
import Mathlib.Algebra.Order.Ring.Rat
import Mathlib.Data.Finset.Max
import Mathlib.Logic.Function.Basic

/-! The semantic cache of `/query` and `/query/full` (`storage/redis_cache.py`,
`api/routes/query.py`): entries are found by the similarity of questions alone. -/
namespace Nl2SqlAgent

open Lib

namespace SemanticCache

/-- The sentence embedder and the similarity of two embeddings. -/
structure Embedder (V : Type) where
  encode : String → V
  cosine : V → V → Rat

structure Request where
  question : String
  dbId : Option String
  databaseUrl : Option String
  useCache : Bool := true
  deriving DecidableEq, Repr

structure Entry (V : Type) where
  question : String
  sql : String
  execResult : ExecResult
  embedding : V
  deriving DecidableEq, Repr

/-- `semcache:keys` and the documents; a document can expire under its key. -/
structure Store (V : Type) where
  connected : Bool := true
  keys : List String := []
  docs : String → Option (Entry V) := fun _ => none

def threshold : Rat := 95 / 100

def maxCachedRows : Nat := 50

variable {V : Type}

/-- One round of the loop over the keys, which keeps the best similarity and its entry. -/
def consider (o : Embedder V) (asked : V) (docs : String → Option (Entry V))
    (best : Rat × Option (String × Entry V)) (id : String) : Rat × Option (String × Entry V) :=
  match docs id with
  | none => best
  | some entry =>
    let sim := o.cosine asked entry.embedding
    if threshold < sim ∧ best.1 < sim then (sim, some (id, entry)) else best

/-- The loop of `cache_get_llm` over the members of the set, in the order Redis gives them. -/
def bestEntry (o : Embedder V) (question : String) (docs : String → Option (Entry V))
    (order : List String) : Option (String × Entry V) :=
  (order.foldl (consider o (o.encode question) docs) (0, none)).2

/-- `cache_get_llm`: keys without a document are removed on the way. -/
def cacheGet (o : Embedder V) (question : String) (order : List String) (w : Store V) :
    Store V × Option (String × Entry V) :=
  if w.connected then
    ({ w with keys := w.keys.filter fun id => (w.docs id).isSome },
      bestEntry o question w.docs order)
  else (w, none)

def truncated (r : ExecResult) : ExecResult := { r with data := r.data.map (·.take maxCachedRows) }

/-- `cache_set_llm` under a new `uuid4`. -/
def cacheSet (o : Embedder V) (id question sql : String) (result : ExecResult) (w : Store V) :
    Store V :=
  if w.connected then
    { w with
      keys := if id ∈ w.keys then w.keys else id :: w.keys
      docs := Function.update w.docs id
        (some ⟨question, sql, truncated result, o.encode question⟩) }
  else w

structure Outcome where
  sql : String
  execResult : Option ExecResult
  deriving DecidableEq, Repr

structure Response where
  question : String
  sql : String
  execResult : Option ExecResult
  cacheHit : Bool
  deriving DecidableEq, Repr

/-- `_verify_cache`, from what the statement gives on the request's database. -/
def verifyCache (given : RunOutcome) : Option ExecResult :=
  if given.result.success && 0 < given.result.rowCount then some given.result else none

/-- What happens outside the handler while it serves a request: the order of the keys, the
database's answers, what the pipeline ends with (nothing where it raises), a new id. -/
structure Oracle where
  order : List String
  execute : String → Option String → RunOutcome
  pipeline : Option Outcome
  id : String

/-- The cached statement that a request is answered with, if its result verifies. -/
def hit (o : Embedder V) (req : Request) (oracle : Oracle) (w : Store V) :
    Option (String × Entry V × ExecResult) :=
  if req.useCache then do
    let (id, entry) ← (cacheGet o req.question oracle.order w).2
    let verified ← verifyCache (oracle.execute entry.sql req.databaseUrl)
    some (id, entry, verified)
  else none

def storable (req : Request) (outcome : Outcome) : Option ExecResult :=
  if req.useCache && outcome.sql ≠ "" then outcome.execResult.filter (·.success) else none

def looked (o : Embedder V) (req : Request) (oracle : Oracle) (w : Store V) : Store V :=
  if req.useCache then (cacheGet o req.question oracle.order w).1 else w

/-- `query_nl2sql` and `query_full_graph`, which differ in their pipelines alone; the
response is missing where the pipeline raises. -/
def handle (o : Embedder V) (req : Request) (oracle : Oracle) (w : Store V) :
    Store V × Option Response :=
  match hit o req oracle w with
  | some (_, entry, verified) =>
    (looked o req oracle w, some ⟨req.question, entry.sql, some verified, true⟩)
  | none =>
    match oracle.pipeline with
    | none => (looked o req oracle w, none)
    | some outcome =>
      (match storable req outcome with
        | some result =>
          cacheSet o oracle.id req.question outcome.sql result (looked o req oracle w)
        | none => looked o req oracle w,
        some ⟨req.question, outcome.sql, outcome.execResult, false⟩)

inductive Event where
  | request (req : Request) (oracle : Oracle)
  | expire (id : String)

def step (o : Embedder V) (w : Store V) : Event → Option (Store V)
  | .request req oracle =>
    if oracle.order.Perm w.keys then some (handle o req oracle w).1 else none
  | .expire id => some { w with docs := Function.update w.docs id none }

def machine (o : Embedder V) : Machine (Store V) Event := ⟨step o⟩

/-- A statement that a request stored, noted beside the run. -/
structure Stored where
  id : String
  request : Request
  sql : String
  deriving DecidableEq, Repr

def stores (o : Embedder V) (req : Request) (oracle : Oracle) (w : Store V) :
    Option (String × ExecResult) :=
  match hit o req oracle w with
  | some _ => none
  | none => oracle.pipeline.bind fun outcome =>
    if w.connected then (storable req outcome).map fun result => (outcome.sql, result) else none

def noteStored (o : Embedder V) (w : Store V) (event : Event) (_ : Store V) (log : List Stored) :
    List Stored :=
  match event with
  | .request req oracle =>
    match stores o req oracle w with
    | some (sql, _) => ⟨oracle.id, req, sql⟩ :: log
    | none => log
  | .expire _ => log

/-- The cache with what was stored, the latest first. -/
def loggedMachine (o : Embedder V) : Machine (Store V × List Stored) Event :=
  (machine o).noted (noteStored o)

def origin (log : List Stored) (id : String) : Option Stored := log.find? (·.id = id)

def SameDatabase (a b : Request) : Prop := a.dbId = b.dbId ∧ a.databaseUrl = b.databaseUrl

instance : Decidable (SameDatabase a b) := inferInstanceAs (Decidable (_ ∧ _))

/-- A response from the cache gives the statement of an earlier request for the same
database, with a question similar to this one. -/
def Isolated (o : Embedder V) (s : Store V × List Stored) (event : Event)
    (_ : Store V × List Stored) : Prop :=
  match event with
  | .request req oracle => ∀ response ∈ (handle o req oracle s.1).2, response.cacheHit = true →
      ∃ e ∈ s.2, SameDatabase e.request req ∧ e.sql = response.sql ∧
        threshold < o.cosine (o.encode req.question) (o.encode e.request.question)
  | .expire _ => True

instance : Decidable (Isolated o s event t) := by
  unfold Isolated
  cases event <;> infer_instance

def similarity (o : Embedder V) (req : Request) (entry : Entry V) : Rat :=
  o.cosine (o.encode req.question) entry.embedding

def returnsRows (req : Request) (oracle : Oracle) (entry : Entry V) : Bool :=
  (verifyCache (oracle.execute entry.sql req.databaseUrl)).isSome

/-- The document under a key was stored for the database of a request. -/
def Own (log : List Stored) (req : Request) (id : String) : Prop :=
  ∀ e ∈ origin log id, SameDatabase e.request req

instance (log : List Stored) (req : Request) (id : String) : Decidable (Own log req id) :=
  inferInstanceAs (Decidable (∀ e ∈ origin log id, SameDatabase e.request req))

/-- At a request that uses the cache, an entry of another database that is similar and whose
statement returns rows is outranked: a live entry is more similar to the question, and is
one of the request's database or one whose statement returns no rows. -/
def Outranked (o : Embedder V) (s : Store V × List Stored) (event : Event)
    (_ : Store V × List Stored) : Prop :=
  match event with
  | .request req oracle => req.useCache = true →
      ∀ id ∈ s.1.keys, ∀ entry ∈ s.1.docs id, ¬ Own s.2 req id →
        threshold < similarity o req entry → returnsRows req oracle entry = true →
        ∃ id' ∈ s.1.keys, ∃ entry' ∈ s.1.docs id',
          similarity o req entry < similarity o req entry' ∧
            (Own s.2 req id' ∨ returnsRows req oracle entry' = false)
  | .expire _ => True

instance : Decidable (Outranked o s event t) := by
  unfold Outranked
  cases event <;> infer_instance

def Documented (o : Embedder V) (s : Store V × List Stored) : Prop :=
  ∀ id entry, s.1.docs id = some entry → ∃ e, origin s.2 id = some e ∧ e.sql = entry.sql ∧
    entry.embedding = o.encode e.request.question

variable {o : Embedder V} {w : Store V} {id : String} {entry : Entry V}

/-- A round does not lower the best similarity, and an entry above the threshold is at most
as similar afterwards. -/
theorem consider_best (o : Embedder V) (asked : V) (docs : String → Option (Entry V))
    (best : Rat × Option (String × Entry V)) (key : String) :
    best.1 ≤ (consider o asked docs best key).1 ∧
      ∀ entry ∈ docs key, threshold < o.cosine asked entry.embedding →
        o.cosine asked entry.embedding ≤ (consider o asked docs best key).1 := by
  unfold consider
  cases docs key with
  | none => exact ⟨le_rfl, fun entry found => (nomatch found)⟩
  | some stored =>
    dsimp only
    split
    next better =>
      refine ⟨better.2.le, fun entry found _ => ?_⟩
      obtain rfl := Option.some.inj found
      exact le_rfl
    next worse =>
      refine ⟨le_rfl, fun entry found above => ?_⟩
      obtain rfl := Option.some.inj found
      exact not_lt.mp fun better => worse ⟨above, better⟩

theorem foldl_consider_best (o : Embedder V) (asked : V) (docs : String → Option (Entry V))
    (order : List String) (best : Rat × Option (String × Entry V)) :
    best.1 ≤ (order.foldl (consider o asked docs) best).1 ∧
      ∀ key ∈ order, ∀ entry ∈ docs key, threshold < o.cosine asked entry.embedding →
        o.cosine asked entry.embedding ≤ (order.foldl (consider o asked docs) best).1 := by
  induction order generalizing best with
  | nil => exact ⟨le_rfl, fun key listed => (nomatch listed)⟩
  | cons first rest ih =>
    obtain ⟨kept, bounded⟩ := consider_best o asked docs best first
    obtain ⟨later, others⟩ := ih (consider o asked docs best first)
    refine ⟨kept.trans later, fun key listed entry found above => ?_⟩
    rcases List.mem_cons.mp listed with rfl | listed
    · exact (bounded entry found above).trans later
    · exact others key listed entry found above

/-- The entry that the loop ends with is live, above the threshold, and no live entry is
more similar. -/
theorem bestEntry_found {docs : String → Option (Entry V)} {order : List String}
    (found : bestEntry o question docs order = some (id, entry)) :
    id ∈ order ∧ docs id = some entry ∧
      threshold < o.cosine (o.encode question) entry.embedding ∧
      ∀ key ∈ order, ∀ other ∈ docs key, o.cosine (o.encode question) other.embedding ≤
        o.cosine (o.encode question) entry.embedding := by
  have kept (keys : List String) (best : Rat × Option (String × Entry V))
      (within : keys ⊆ order)
      (start : ∀ id entry, best.2 = some (id, entry) → id ∈ order ∧ docs id = some entry ∧
        threshold < best.1 ∧ best.1 = o.cosine (o.encode question) entry.embedding) :
      ∀ id entry, (keys.foldl (consider o (o.encode question) docs) best).2 = some (id, entry) →
        id ∈ order ∧ docs id = some entry ∧
        threshold < (keys.foldl (consider o (o.encode question) docs) best).1 ∧
        (keys.foldl (consider o (o.encode question) docs) best).1 =
          o.cosine (o.encode question) entry.embedding := by
    induction keys generalizing best with
    | nil => exact start
    | cons key rest ih =>
      obtain ⟨listed, rest_within⟩ := List.cons_subset.mp within
      apply ih _ rest_within
      unfold consider
      split
      · exact start
      next stored present =>
        dsimp only
        split
        next better =>
          intro id entry same
          obtain ⟨rfl, rfl⟩ := Prod.mk.inj (Option.some.inj same)
          exact ⟨listed, present, better.1, rfl⟩
        next => exact start
  obtain ⟨listed, present, above, same⟩ :=
    kept order (0, none) (List.Subset.refl order) (by simp) id entry found
  refine ⟨listed, present, same ▸ above, fun key member other stored => ?_⟩
  by_cases near : threshold < o.cosine (o.encode question) other.embedding
  · have bounded := (foldl_consider_best o (o.encode question) docs order (0, none)).2 key member
    exact (bounded other stored near).trans same.le
  · exact (not_lt.mp near).trans (same ▸ above).le

/-- What is answered from the cache is the most similar live entry, and verifies. -/
theorem hit_found (found : hit o req oracle w = some (id, entry, verified)) :
    req.useCache = true ∧ id ∈ oracle.order ∧ w.docs id = some entry ∧
      threshold < similarity o req entry ∧ returnsRows req oracle entry = true ∧
      ∀ key ∈ oracle.order, ∀ other ∈ w.docs key,
        similarity o req other ≤ similarity o req entry := by
  unfold hit at found
  obtain ⟨wanted, found⟩ := Option.ite_none_right_eq_some.mp found
  simp only [Option.bind_eq_bind, Option.bind_eq_some_iff, Option.some.injEq, Prod.mk.injEq] at found
  obtain ⟨⟨id', entry'⟩, best, result, given, rfl, rfl, -⟩ := found
  unfold cacheGet at best
  split at best
  · obtain ⟨listed, present, above, most⟩ := bestEntry_found best
    exact ⟨wanted, listed, present, above, by simp [returnsRows, given], most⟩
  · cases best

theorem hit_response (given : (handle o req oracle w).2 = some response)
    (cached : response.cacheHit = true) :
    ∃ id entry verified, hit o req oracle w = some (id, entry, verified) ∧
      entry.sql = response.sql := by
  unfold handle at given
  split at given
  next id entry verified found =>
    obtain rfl := Option.some.inj given
    exact ⟨id, entry, verified, found, rfl⟩
  next =>
    split at given
    · cases given
    · obtain rfl := Option.some.inj given
      cases cached

theorem looked_kept (o : Embedder V) (req : Request) (oracle : Oracle) (w : Store V) :
    (looked o req oracle w).docs = w.docs ∧ (looked o req oracle w).connected = w.connected := by
  unfold looked
  split
  · unfold cacheGet
    split <;> exact ⟨rfl, rfl⟩
  · exact ⟨rfl, rfl⟩

theorem handle_docs (o : Embedder V) (req : Request) (oracle : Oracle) (w : Store V) :
    (handle o req oracle w).1.docs =
      match stores o req oracle w with
      | some (sql, result) => Function.update w.docs oracle.id
          (some ⟨req.question, sql, truncated result, o.encode req.question⟩)
      | none => w.docs := by
  obtain ⟨docs, connected⟩ := looked_kept o req oracle w
  unfold handle stores
  cases hit o req oracle w with
  | some found => exact docs
  | none =>
    cases oracle.pipeline with
    | none => exact docs
    | some outcome =>
      cases stored : storable req outcome with
      | none => cases w.connected <;> simpa [stored] using docs
      | some result =>
        cases online : w.connected with
        | false => simp [stored, cacheSet, connected, online, docs]
        | true => simp [stored, cacheSet, connected, online, docs]

theorem documented_update {docs : String → Option (Entry V)} {log : List Stored} {e : Stored}
    (documented : ∀ id entry, docs id = some entry → ∃ e, origin log id = some e ∧
      e.sql = entry.sql ∧ entry.embedding = o.encode e.request.question)
    (sql : e.sql = entry.sql) (embedding : entry.embedding = o.encode e.request.question)
    (id : String) (found : Entry V)
    (present : Function.update docs e.id (some entry) id = some found) :
    ∃ e', origin (e :: log) id = some e' ∧ e'.sql = found.sql ∧
      found.embedding = o.encode e'.request.question := by
  by_cases same : id = e.id
  · subst same
    rw [Function.update_self] at present
    obtain rfl := Option.some.inj present
    exact ⟨e, by simp [origin], sql, embedding⟩
  · rw [Function.update_of_ne same] at present
    obtain ⟨e', older, parts⟩ := documented id found present
    refine ⟨e', ?_, parts⟩
    simpa [origin, Ne.symm same] using older

theorem documented_step {s t : Store V × List Stored} (documented : Documented o s)
    (stepped : (loggedMachine o).step s event = some t) : Documented o t := by
  obtain ⟨taken, noted⟩ := Machine.noted_step.mp stepped
  obtain ⟨w, log⟩ := s
  obtain ⟨w', log'⟩ := t
  obtain rfl : log' = noteStored o w event w' log := noted
  cases event with
  | expire key =>
    obtain rfl := Option.some.inj taken
    intro id entry (present : Function.update w.docs key none id = some entry)
    by_cases same : id = key
    · subst same
      simp at present
    · rw [Function.update_of_ne same] at present
      exact documented id entry present
  | request req oracle =>
    obtain ⟨-, served⟩ := Option.ite_none_right_eq_some.mp taken
    obtain rfl := Option.some.inj served
    intro id entry (present : (handle o req oracle w).1.docs id = some entry)
    rw [handle_docs] at present
    simp only [noteStored]
    cases stored : stores o req oracle w with
    | none =>
      simp only [stored] at present
      exact documented id entry present
    | some brought =>
      obtain ⟨sql, result⟩ := brought
      simp only [stored] at present
      exact documented_update (e := ⟨oracle.id, req, sql⟩) documented rfl rfl id entry present

/-- Where the similar entries of other databases are outranked, the entry that a request is
answered with is one of its own database. -/
theorem hit_own {s : Store V × List Stored} {t : Store V × List Stored}
    (order : oracle.order.Perm s.1.keys) (outranked : Outranked o s (.request req oracle) t)
    (found : hit o req oracle s.1 = some (id, entry, verified)) : Own s.2 req id := by
  by_contra foreign
  -- The entry that outranks it would have been found in its place.
  obtain ⟨wanted, listed, present, above, returned, most⟩ := hit_found found
  obtain ⟨id', member, entry', stored, better, -⟩ :=
    outranked wanted id (order.subset listed) entry present foreign above returned
  exact absurd better (not_lt.mpr (most id' (order.symm.subset member) entry' stored))

/-- The loop keeps an entry that it meets first and that none is more similar than. -/
theorem bestEntry_first {docs : String → Option (Entry V)} (question : String) (rest : List String)
    (present : docs id = some entry)
    (above : threshold < o.cosine (o.encode question) entry.embedding)
    (most : ∀ key ∈ rest, ∀ other ∈ docs key, o.cosine (o.encode question) other.embedding ≤
      o.cosine (o.encode question) entry.embedding) :
    bestEntry o question docs (id :: rest) = some (id, entry) := by
  have positive : 0 < o.cosine (o.encode question) entry.embedding :=
    lt_trans (by decide +kernel) above
  have first : consider o (o.encode question) docs (0, none) id =
      (o.cosine (o.encode question) entry.embedding, some (id, entry)) := by
    simp only [consider, present, if_pos (And.intro above positive)]
  have kept : rest.foldl (consider o (o.encode question) docs)
      (o.cosine (o.encode question) entry.embedding, some (id, entry)) =
      (o.cosine (o.encode question) entry.embedding, some (id, entry)) := by
    clear first
    induction rest with
    | nil => rfl
    | cons key rest ih =>
      have same : consider o (o.encode question) docs
          (o.cosine (o.encode question) entry.embedding, some (id, entry)) key =
          (o.cosine (o.encode question) entry.embedding, some (id, entry)) := by
        unfold consider
        split
        · rfl
        next other stored =>
          exact if_neg fun better =>
            absurd better.2 (not_lt.mpr (most key List.mem_cons_self other stored))
      rw [List.foldl_cons, same]
      exact ih fun key listed => most key (List.mem_cons_of_mem _ listed)
  rw [bestEntry, List.foldl_cons, first, kept]

/-- Where an entry of another database is not outranked, there is an order of the keys in
which the request is answered with such an entry. -/
theorem hit_not_own {s t : Store V × List Stored} (online : s.1.connected = true)
    (not_outranked : ¬ Outranked o s (.request req oracle) t) :
    ∃ order, order.Perm s.1.keys ∧ ∃ id entry verified,
      hit o req { oracle with order := order } s.1 = some (id, entry, verified) ∧
        ¬ Own s.2 req id := by
  simp only [Outranked, not_forall, not_exists, not_and, not_or] at not_outranked
  obtain ⟨wanted, id, listed, entry, present, foreign, above, returned, better⟩ := not_outranked
  -- The most similar live entry is this one or one that is more similar.
  obtain ⟨top, member, most⟩ := Finset.exists_max_image s.1.keys.toFinset
    (fun key => (s.1.docs key).elim (similarity o req entry) (similarity o req))
    ⟨id, List.mem_toFinset.mpr listed⟩
  have chosen : ∃ id' ∈ s.1.keys, ∃ entry', s.1.docs id' = some entry' ∧ ¬ Own s.2 req id' ∧
      returnsRows req oracle entry' = true ∧ similarity o req entry ≤ similarity o req entry' ∧
      ∀ key ∈ s.1.keys, ∀ other ∈ s.1.docs key,
        similarity o req other ≤ similarity o req entry' := by
    have bound (key : String) (kept : key ∈ s.1.keys) (other : Entry V)
        (stored : other ∈ s.1.docs key) : similarity o req other ≤
          (s.1.docs top).elim (similarity o req entry) (similarity o req) := by
      simpa [Option.mem_def.mp stored] using most key (List.mem_toFinset.mpr kept)
    cases found : s.1.docs top with
    | none =>
      rw [found] at bound
      exact ⟨id, listed, entry, present, foreign, returned, le_rfl, bound⟩
    | some best =>
      rw [found] at bound
      rcases (bound id listed entry present).eq_or_lt with same | higher
      · exact ⟨id, listed, entry, present, foreign, returned, le_rfl,
          fun key kept other stored => (bound key kept other stored).trans same.ge⟩
      · obtain ⟨other, returns⟩ := better top (List.mem_toFinset.mp member) best found higher
        exact ⟨top, List.mem_toFinset.mp member, best, found, other, by simpa using returns,
          higher.le, bound⟩
  obtain ⟨id', listed', entry', present', foreign', returned', near, highest⟩ := chosen
  obtain ⟨verified, given⟩ := Option.isSome_iff_exists.mp returned'
  refine ⟨id' :: s.1.keys.erase id', (List.perm_cons_erase listed').symm, id', entry', verified,
    ?_, foreign'⟩
  have best := bestEntry_first req.question (s.1.keys.erase id') present' (above.trans_le near)
    fun key kept => highest key (List.mem_of_mem_erase kept)
  rw [hit, if_pos wanted, cacheGet, if_pos online]
  simp only [best, given, Option.bind_eq_bind, Option.bind_some]

/-- In every run of requests and expiries, every response from the cache is isolated, as
long as the entries of other databases that a request could be answered with are
outranked. -/
theorem hits_isolated (o : Embedder V) (connected : Bool) (events : List Event)
    (outranked : (loggedMachine o).Along (Outranked o) ({ connected := connected }, []) events) :
    (loggedMachine o).Along (Isolated o) ({ connected := connected }, []) events := by
  refine Machine.along_of_invariant (Documented o)
    (fun s event t documented stepped _ => documented_step documented stepped) ?_
    (fun id entry found => by simp at found) outranked
  intro s event t documented stepped outranked
  cases event with
  | expire id => trivial
  | request req oracle =>
    intro response given cached
    obtain ⟨order, -⟩ := Option.ite_none_right_eq_some.mp (Machine.noted_step.mp stepped).1
    obtain ⟨id, entry, verified, found, same⟩ := hit_response given cached
    obtain ⟨-, -, present, similar, -⟩ := hit_found found
    obtain ⟨e, stored, sql, embedding⟩ := documented id entry present
    exact ⟨e, List.mem_of_find?_eq_some stored, hit_own order outranked found e stored,
      sql.trans same, embedding ▸ similar⟩

def near : Embedder String := ⟨fun question => question, fun a b => if a = b then 1 else 97 / 100⟩

def shop : Request := ⟨"How many orders?", some "shop", some "sqlite:///shop.db", true⟩

def archive : Request := ⟨"How many orders?", some "archive", some "sqlite:///archive.db", true⟩

def archived : Request := { archive with question := "How many old orders?" }

def rows : RunOutcome := .rows [[.num 3]] ["n"]

def tables (sql : String) (databaseUrl : Option String) : RunOutcome :=
  if sql = "SELECT count(*) AS n FROM orders" ∨ databaseUrl = archive.databaseUrl then rows
  else .failed "no such table: old_orders" (some "no_such_table")

def asks (req : Request) (order : List String) (sql id : String) : Event :=
  .request req ⟨order, tables, some ⟨sql, some rows.result⟩, id⟩

def between : List Event :=
  [asks archived [] "SELECT count(*) AS n FROM old_orders" "a",
    asks shop ["a"] "SELECT count(*) AS n FROM orders" "b", asks archived ["b", "a"] "SELECT 1" "c"]

/-- The shop's statement runs on the archive too, and is outranked there: the last request
is answered from the cache, and nothing is stored for it. -/
theorem hits_isolated_between :
    ((loggedMachine near).exec ({}, []) between).any (fun s => s.2.map Stored.id = ["b", "a"]) =
        true ∧
      (loggedMachine near).Along (Isolated near) ({}, []) between :=
  ⟨by decide +kernel, hits_isolated near true _ (by decide +kernel)⟩

/-- The same question about another database is answered with the first one's statement. -/
theorem hit_foreign :
    ¬ (loggedMachine near).Along (Isolated near) ({}, [])
      [asks shop [] "SELECT count(*) AS n FROM orders" "a", asks archive ["a"] "SELECT 1" "c"] := by
  decide +kernel

end SemanticCache
end Nl2SqlAgent

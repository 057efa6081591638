import Nl2SqlAgent.CacheProvenance
import Nl2SqlAgent.DatabaseWhitelist
import Nl2SqlAgent.PolicyInterceptor

/-! `ProxyController`: the proxied queries, and the cached result that answers them while
the engine is unavailable. The lookup asks for nobody's permission, unlike the submit's
lookup in the same cache. -/
namespace Nl2SqlAgent

open Lib

namespace StaleFallback

open TaskLifecycle (Submission Entry cacheKey)
open ResultCache (World Run keyOf)
open DatabaseWhitelist (Registry Permits)

/-- A policy as the interceptor and the submit's checks read it. -/
structure UserPolicy where
  access : PolicyInterceptor.Policy
  limits : GatewaySubmit.Policy
  deriving DecidableEq, Repr

/-- A request to the gateway; `body` is what `readTree` makes of its bytes, if it does not
raise. -/
structure Incoming where
  method : String
  requestUri : List Char
  userId : Option String
  body : Option Json
  deriving Repr

/-- How the decorated call of the engine fails. -/
inductive Failure where
  | notPermitted
  | timeout
  | interrupted
  | failed
  deriving DecidableEq, Repr

/-- The message of the `EngineUnavailableException`. -/
def Failure.detail : Failure → String
  | notPermitted => "circuit breaker open"
  | timeout => "engine timeout"
  | interrupted => "interrupted"
  | failed => "engine unavailable"

inductive EngineCall where
  | answered (status : Nat) (body : String)
  | unavailable (failure : Failure)
  deriving DecidableEq, Repr

/-- What the gateway answers. A stale result is a 200 with `X-Cache: stale`, an unavailable
engine a 503; a path that ends in `/stream` is passed through as it comes. -/
inductive Reply where
  | rejected (r : PolicyInterceptor.Rejection)
  | engine (status : Nat) (body : String)
  | stale (entry : Entry)
  | unavailable (detail : String)
  | stream

/-- `hasNonNull` and `get`. -/
def field (body : Json) (name : String) : Option Json :=
  match body with
  | .obj fields => (fields.lookup name).filter fun value => !value.beq .null
  | _ => none

/-- `JsonNode.asText`; how Java prints a double is a parameter. -/
def asText (showDouble : Rat → String) : Json → String
  | .str s => s
  | .int n => toString n
  | .float q => showDouble q
  | .bool b => if b then "true" else "false"
  | .null => "null"
  | _ => ""

def queryPaths : List (List Char) := ["/api/v1/query".toList, "/api/v1/query/full".toList]

/-- The question and the `db_id` that a body is looked up by. -/
def lookedUp (showDouble : Rat → String) (body : Json) : Option (String × Option String) :=
  (field body "question").map fun question =>
    (asText showDouble question, (field body "db_id").map (asText showDouble))

/-- `staleCacheLookup`; `qcache` is what `ResultCacheService.get` finds under a key. -/
def staleCacheLookup (showDouble : Rat → String) (qcache : String → Option Entry) (r : Incoming) :
    Option Entry :=
  if r.method ≠ "POST" then none
  else if r.requestUri ∉ queryPaths then none
  else do
    let body ← r.body
    let (question, dbId) ← lookedUp showDouble body
    qcache (cacheKey (some question) dbId)

/-- `ProxyController.proxy`. -/
def proxy (showDouble : Rat → String) (qcache : String → Option Entry) (call : EngineCall)
    (r : Incoming) : Reply :=
  if "/stream".toList.isSuffixOf r.requestUri then
    if call = .unavailable .failed then .unavailable "engine connect failed" else .stream
  else
    match call with
    | .answered status body => .engine status body
    | .unavailable failure =>
      match staleCacheLookup showDouble qcache r with
      | some entry => .stale entry
      | none => .unavailable failure.detail

def gateway (showDouble : Rat → String) (resolve : String → Option UserPolicy)
    (qcache : String → Option Entry) (call : EngineCall) (r : Incoming) : Reply :=
  if PolicyInterceptor.intercepted (PolicyInterceptor.decode r.requestUri) then
    match PolicyInterceptor.preHandle (fun tag => (resolve tag).map (·.access)) r.userId
        r.requestUri none with
    | .error rejection => .rejected rejection
    | .ok _ => proxy showDouble qcache call r
  else proxy showDouble qcache call r

/-- What a query is about: its question, `db_id` and `database_url`. The lookup does not read
the last one. -/
structure Query where
  question : String
  dbId : Option String
  databaseUrl : Option String

def query (showDouble : Rat → String) (r : Incoming) : Option Query := do
  let body ← r.body
  let (question, dbId) ← lookedUp showDouble body
  return ⟨question, dbId, (field body "database_url").map (asText showDouble)⟩

/-- The submit is for the question and the database of the query. -/
structure SameAs (s : Submission) (q : Query) : Prop where
  question : s.question = q.question
  dbId : s.dbId.getD "" = q.dbId.getD ""
  databaseUrl : s.databaseUrl.getD "" = q.databaseUrl.getD ""

/-- The result of an entry was produced for what the query is about, which is no database
or one that the policy lists. -/
def Rightful (registry : Registry) (policy : UserPolicy) (w : World) (q : Query) (entry : Entry) :
    Prop :=
  ∃ run ∈ w.runs, ∃ s, w.submissions run.task = some s ∧ TaskStore.status run.doc = "SUCCESS" ∧
    ResultCache.Gives run.doc entry.sql entry.execResult ∧ SameAs s q ∧
    Permits registry policy.limits s.dbId s.databaseUrl

/-- The tasks that succeeded and were submitted with the text under which the query is looked
up, were submitted for what it is about. -/
def Unambiguous (w : World) (q : Query) : Prop :=
  ∀ run ∈ w.runs, ∀ s, w.submissions run.task = some s →
    keyOf s = cacheKey (some q.question) q.dbId → SameAs s q

theorem gateway_stale (answer : gateway showDouble resolve qcache call r = .stale entry) :
    proxy showDouble qcache call r = .stale entry ∧
      (PolicyInterceptor.intercepted (PolicyInterceptor.decode r.requestUri) = true →
        ∃ policy, PolicyInterceptor.preHandle (fun tag => (resolve tag).map (·.access)) r.userId
          r.requestUri none = .ok policy) := by
  unfold gateway at answer
  split at answer
  · split at answer
    · cases answer
    next policy admitted => exact ⟨answer, fun _ => ⟨policy, admitted⟩⟩
  next outside => exact ⟨answer, fun inside => absurd inside outside⟩

theorem proxy_stale (answer : proxy showDouble qcache call r = .stale entry) :
    (∃ failure, call = .unavailable failure) ∧
      staleCacheLookup showDouble qcache r = some entry := by
  unfold proxy at answer
  split at answer
  · split at answer <;> cases answer
  · split at answer
    · cases answer
    next failure =>
      split at answer
      next found =>
        obtain rfl := Reply.stale.inj answer
        exact ⟨⟨failure, rfl⟩, found⟩
      · cases answer

theorem staleCacheLookup_found (found : staleCacheLookup showDouble qcache r = some entry) :
    r.method = "POST" ∧ r.requestUri ∈ queryPaths ∧ ∃ q, query showDouble r = some q ∧
      qcache (cacheKey (some q.question) q.dbId) = some entry := by
  unfold staleCacheLookup at found
  obtain ⟨post, found⟩ := Option.ite_none_left_eq_some.mp found
  obtain ⟨path, found⟩ := Option.ite_none_left_eq_some.mp found
  simp only [Option.bind_eq_bind, Option.bind_eq_some_iff] at found
  obtain ⟨body, read, ⟨question, dbId⟩, fields, cached⟩ := found
  refine ⟨not_not.mp post, not_not.mp path,
    ⟨question, dbId, (field body "database_url").map (asText showDouble)⟩, ?_, cached⟩
  simp only [query, read, fields, Option.bind_eq_bind, Option.bind_some, Option.pure_def]

theorem queryPaths_intercepted :
    ∀ path ∈ queryPaths, PolicyInterceptor.intercepted (PolicyInterceptor.decode path) = true := by
  intro path listed
  simp only [queryPaths, List.mem_cons, List.not_mem_nil, or_false] at listed
  rcases listed with rfl | rfl <;>
    simp [PolicyInterceptor.decode, PolicyInterceptor.intercepted, PolicyInterceptor.under]

theorem SameAs.permits {registry : Registry} {policy : GatewaySubmit.Policy} {s : Submission}
    {q : Query} (same : SameAs s q) :
    Permits registry policy s.dbId s.databaseUrl ↔
      Permits registry policy q.dbId q.databaseUrl := by
  constructor <;> rintro ⟨id, url⟩
  · exact ⟨same.dbId ▸ id, same.databaseUrl ▸ url⟩
  · exact ⟨same.dbId.symm ▸ id, same.databaseUrl.symm ▸ url⟩

theorem stale_admitted (answer : gateway showDouble resolve qcache call r = .stale entry) :
    ∃ tag policy, r.userId = some tag ∧ resolve tag = some policy ∧
      policy.access.enabled = true := by
  obtain ⟨proxied, admitted⟩ := gateway_stale answer
  obtain ⟨-, path, -⟩ := staleCacheLookup_found (proxy_stale proxied).2
  obtain ⟨access, granted⟩ := admitted (queryPaths_intercepted _ path)
  unfold PolicyInterceptor.preHandle at granted
  split at granted
  · cases granted
  next tag user =>
    split at granted
    · cases granted
    · split at granted
      · cases granted
      next found =>
        obtain ⟨policy, known, same⟩ := Option.map_eq_some_iff.mp found
        split at granted
        next enabled => exact ⟨tag, policy, user, known, same ▸ enabled⟩
        · cases granted

/-- In every run whose questions are short, and for every user, request and failure of the
engine, where the text that the query is looked up under stands for nothing else among the
tasks that succeeded: a stale answer is rightful exactly if the policy permits the database
of the query, which the proxy does not look at. -/
theorem stale_rightful_iff (registry : Registry) {timing : ResultCache.Timing} {env : Env}
    {events : List ResultCache.Event} {w : World} {entry : Entry} {q : Query}
    (short : (ResultCache.machine timing env).Along ResultCache.Short ResultCache.start events)
    (run : (ResultCache.machine timing env).exec ResultCache.start events = some w)
    (asked : query showDouble r = some q) (unambiguous : Unambiguous w q)
    (answer : gateway showDouble resolve w.base.qcache call r = .stale entry) :
    ∃ tag policy, r.userId = some tag ∧ resolve tag = some policy ∧
      (Rightful registry policy w q entry ↔
        Permits registry policy.limits q.dbId q.databaseUrl) := by
  obtain ⟨tag, policy, user, known, -⟩ := stale_admitted answer
  refine ⟨tag, policy, user, known, ?_⟩
  constructor
  · rintro ⟨origin, member, s, submitted, success, gives, same, permits⟩
    exact same.permits.mp permits
  · intro permits
    obtain ⟨-, found⟩ := proxy_stale (gateway_stale answer).1
    obtain ⟨-, -, q', asked', cached⟩ := staleCacheLookup_found found
    obtain rfl := Option.some.inj (asked.symm.trans asked')
    obtain ⟨traced, keyed⟩ := ResultCache.run_traced_keyed short run
    obtain ⟨origin, member, s, submitted, success, gives, text⟩ :=
      ResultCache.entry_origin traced keyed cached
    have same := unambiguous origin member s submitted text
    exact ⟨origin, member, s, submitted, success, gives, same, same.permits.mpr permits⟩

def reader (tag : String) (allowedDbIds : List String) : UserPolicy :=
  ⟨⟨tag, "user", true⟩, ⟨tag, allowedDbIds, 100, 100000⟩⟩

def users (tag : String) : Option UserPolicy :=
  if tag = "ann" then some (reader tag ["shop"])
  else if tag = "bob" then some (reader tag ["imdb"])
  else none

/-- A query for the shop, which ann's policy lists and bob's does not. -/
def shopQuery (tag : String) : Incoming :=
  ⟨"POST", "/api/v1/query".toList, some tag,
    some (.obj [("question", .str "How many orders?"), ("db_id", .str "shop")])⟩

theorem reader_admitted {tag : String} {allowedDbIds : List String}
    (named : GatewaySubmit.isBlank tag = false)
      (known : users tag = some (reader tag allowedDbIds)) :
    PolicyInterceptor.preHandle (fun tag => (users tag).map (·.access)) (shopQuery tag).userId
      (shopQuery tag).requestUri none = .ok (reader tag allowedDbIds).access := by
  rw [show (shopQuery tag).userId = some tag from rfl, PolicyInterceptor.preHandle_enabled named
    (show (users tag).map (·.access) = some (reader tag allowedDbIds).access by rw [known]; rfl) rfl
    (by simp [reader, PolicyInterceptor.Policy.isAdmin])]
  simp [shopQuery, List.isPrefixOf]

theorem shopQuery_lookedUp :
    lookedUp showDouble (.obj [("question", .str "How many orders?"), ("db_id", .str "shop")]) =
      some ("How many orders?", some "shop") := by
  simp [lookedUp, field, asText, Json.beq, List.lookup_cons]

theorem shopQuery_query (tag : String) :
    query showDouble (shopQuery tag) = some ⟨"How many orders?", some "shop", none⟩ := by
  simp only [query, shopQuery, Option.bind_eq_bind, Option.bind_some, shopQuery_lookedUp]
  simp [field, List.lookup_cons]

/-- While the engine does not answer, the query gets what the cache holds for it. -/
theorem shopQuery_stale {tag : String} {allowedDbIds : List String}
    (named : GatewaySubmit.isBlank tag = false) (known : users tag = some (reader tag allowedDbIds))
    (qcache : String → Option Entry) (cached : qcache (keyOf ResultCache.asked) = some entry) :
    gateway showDouble users qcache (.unavailable .timeout) (shopQuery tag) = .stale entry := by
  have path : (shopQuery tag).requestUri ∈ queryPaths := by simp [shopQuery, queryPaths]
  have found : staleCacheLookup showDouble qcache (shopQuery tag) = some entry := by
    rw [staleCacheLookup, if_neg (by simp [shopQuery]), if_neg (not_not.mpr path)]
    simp only [shopQuery, shopQuery_lookedUp, Option.bind_eq_bind, Option.bind_some]
    exact cached
  have plain : ¬ "/stream".toList.isSuffixOf (shopQuery tag).requestUri = true := by
    simp [shopQuery, List.isSuffixOf, List.isPrefixOf]
  rw [gateway, if_pos (queryPaths_intercepted _ path), reader_admitted named known]
  simp only [proxy, if_neg plain, found]

def shops : Registry := [("imdb", "sqlite:///imdb.db"), ("shop", "sqlite:///shop.db")]

theorem stale_rightful_answered :
    ∃ w entry, (ResultCache.machine ResultCache.configured .plain).exec ResultCache.start
        ResultCache.answered = some w ∧
      gateway (fun _ => "") users w.base.qcache (.unavailable .timeout) (shopQuery "ann") =
        .stale entry ∧
      Rightful shops (reader "ann" ["shop"]) w ⟨"How many orders?", some "shop", none⟩ entry := by
  obtain ⟨w, run, ⟨entry, cached⟩, runs, submitted⟩ := ResultCache.answered_cached
  have known : users "ann" = some (reader "ann" ["shop"]) := by simp [users]
  have answer : gateway (fun _ => "") users w.base.qcache (.unavailable .timeout)
      (shopQuery "ann") = .stale entry := shopQuery_stale (by decide) known w.base.qcache cached
  have unambiguous : Unambiguous w ⟨"How many orders?", some "shop", none⟩ := by
    intro r member s behind _
    obtain rfl := ResultCache.only_submission runs submitted r member s behind
    exact ⟨rfl, rfl, rfl⟩
  obtain ⟨tag, policy, user, found, rightful⟩ := stale_rightful_iff shops
    (by decide +kernel) run (shopQuery_query "ann") unambiguous answer
  obtain rfl := Option.some.inj user
  obtain rfl := Option.some.inj (known.symm.trans found)
  exact ⟨w, entry, run, answer, rightful.mpr ⟨.inr (by decide), .inl rfl⟩⟩

/-- A task of another user fills the cache, and while the engine does not answer, bob gets
its result for a database that is not his. -/
theorem stale_unlisted :
    ∃ w entry, (ResultCache.machine ResultCache.configured .plain).exec ResultCache.start
        ResultCache.answered = some w ∧ users "bob" = some (reader "bob" ["imdb"]) ∧
      gateway (fun _ => "") users w.base.qcache (.unavailable .timeout) (shopQuery "bob") =
        .stale entry ∧
      ¬ Rightful shops (reader "bob" ["imdb"]) w ⟨"How many orders?", some "shop", none⟩ entry := by
  obtain ⟨w, run, ⟨entry, cached⟩, runs, submitted⟩ := ResultCache.answered_cached
  have known : users "bob" = some (reader "bob" ["imdb"]) := by simp [users]
  refine ⟨w, entry, run, known, shopQuery_stale (by decide) known w.base.qcache cached, ?_⟩
  rintro ⟨r, member, s, behind, -, -, -, permits⟩
  obtain rfl := ResultCache.only_submission runs submitted r member s behind
  exact absurd permits.id (by decide)

end StaleFallback
end Nl2SqlAgent

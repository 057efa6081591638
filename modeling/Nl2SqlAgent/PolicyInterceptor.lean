import Nl2SqlAgent.GatewaySubmit

/-! `UserPolicyInterceptor` in front of the proxy, and which requests the engine's router
takes for its evaluation endpoints. The interceptor is registered for decoded paths and
the engine routes decoded paths, but the role test reads the raw one. Paths are lists of
bytes, as characters. -/
namespace Nl2SqlAgent

open Lib

namespace PolicyInterceptor

structure Policy where
  userTag : String
  role : String
  enabled : Bool
  deriving DecidableEq, Repr

def Policy.isAdmin (p : Policy) : Bool := p.role = "admin"

structure Rejection where
  code : Nat
  detail : String
  deriving DecidableEq, Repr

/-- `preHandle`; `annotation` is the role that the handler's method asks for. -/
def preHandle (resolve : String → Option Policy) (userId : Option String) (requestUri : List Char)
    ( annotation : Option String) : Except Rejection Policy :=
  match userId with
  | none => .error ⟨401, "missing X-User-Id header"⟩
  | some tag =>
    if GatewaySubmit.isBlank tag then .error ⟨401, "missing X-User-Id header"⟩
    else
      match resolve tag with
      | none => .error ⟨401, "unknown user: " ++ tag⟩
      | some policy =>
        if policy.enabled then
          let required :=
            if "/api/v1/eval/".toList.isPrefixOf requestUri then some "admin" else annotation
          if required = some "admin" ∧ policy.isAdmin = false then
            .error ⟨403, "admin role required"⟩
          else .ok policy
        else .error ⟨403, "user disabled: " ++ tag⟩

def hexDigit (c : Char) : Option Nat :=
  if '0' ≤ c ∧ c ≤ '9' then some (c.toNat - '0'.toNat)
  else if 'a' ≤ c ∧ c ≤ 'f' then some (c.toNat - 'a'.toNat + 10)
  else if 'A' ≤ c ∧ c ≤ 'F' then some (c.toNat - 'A'.toNat + 10)
  else none

/-- Percent-decoding; an escape that is none stays as it is. -/
def decode : List Char → List Char
  | [] => []
  | c :: rest =>
    if c = '%' then
      match rest with
      | high :: low :: more =>
        match hexDigit high, hexDigit low with
        | some h, some l => Char.ofNat (16 * h + l) :: decode more
        | _, _ => '%' :: decode (high :: low :: more)
      | other => '%' :: decode other
    else c :: decode rest

/-- A pattern `base/**` of `addPathPatterns`. -/
def under (path : List Char) (base : String) : Bool :=
  path = base.toList ∨ (base.toList ++ ['/']).isPrefixOf path

/-- The paths that the interceptor is registered for. -/
def intercepted (path : List Char) : Bool :=
  (["/api/v1/task","/api/v1/query","/api/v1/eval","/api/v1/admin"].any (under path)) ∧
    path ≠ "/api/v1/health".toList

/-- What the gateway does with a request that only `ProxyController.proxy` handles: the
path that is forwarded, or the rejection. -/
def proxy (resolve : String → Option Policy) (userId : Option String) (requestUri : List Char) :
    Except Rejection (List Char) :=
  if intercepted (decode requestUri) then
    (preHandle resolve userId requestUri none).map fun _ => requestUri
  else .ok requestUri

inductive Piece where
  | text (s : String)
  | parameter
  deriving DecidableEq, Repr

/-- The evaluation endpoints, under their router's prefix. -/
def evalRoutes : List (String × List Piece) :=
  [("POST",[.text "eval",.text "start"]), ("GET",[.text "eval",.text "status",.parameter]),
    ("GET",[.text "eval",.text "tasks"]), ("DELETE",[.text "eval",.text "cancel",.parameter])]

def fits : List Piece → List (List Char) → Bool
  | [], [] => true
  | .text s :: pieces, part :: parts => part = s.toList ∧ fits pieces parts
  | .parameter :: pieces, part :: parts => part ≠ [] ∧ fits pieces parts
  | _, _ => false

def template (pieces : List Piece) : List Piece :=
  .text "" :: .text "api" :: .text "v1" :: pieces

/-- The router's patterns end in `$`, which also stands before a final line feed. -/
def routesToEval (method : String) (path : List Char) : Bool :=
  evalRoutes.any fun (verb, pieces) => verb = method ∧
    (fits (template pieces) (path.splitOn '/') ∨
      (path.getLast? = some '\n' ∧ fits (template pieces) (path.dropLast.splitOn '/')))

theorem fits_text {s : String} {pieces : List Piece} {parts : List (List Char)}
    (fit : fits (.text s :: pieces) parts = true) :
    ∃ rest, parts = s.toList :: rest ∧ fits pieces rest = true := by
  cases parts with
  | nil => simp [fits] at fit
  | cons part rest =>
    simp only [fits, decide_eq_true_eq] at fit
    exact ⟨rest, by rw [fit.1], fit.2⟩

theorem fits_piece {piece : Piece} {pieces : List Piece} {parts : List (List Char)}
    (fit : fits (piece :: pieces) parts = true) : ∃ part rest, parts = part :: rest := by
  cases parts with
  | nil => cases piece <;> simp [fits] at fit
  | cons part rest => exact ⟨part, rest, rfl⟩

theorem evalRoutes_shape {route : String × List Piece} (mem : route ∈ evalRoutes) :
    ∃ piece pieces, route.2 = .text "eval" :: piece :: pieces := by
  simp only [evalRoutes, List.mem_cons, List.not_mem_nil, or_false] at mem
  rcases mem with rfl | rfl | rfl | rfl <;> exact ⟨_, _, rfl⟩

theorem fits_eval {route : String × List Piece} {path : List Char} (mem : route ∈ evalRoutes)
    (fit : fits (template route.2) (path.splitOn '/') = true) :
    "/api/v1/eval/".toList <+: path := by
  obtain ⟨piece, pieces, shape⟩ := evalRoutes_shape mem
  rw [shape] at fit
  obtain ⟨afterRoot, parts, fitRoot⟩ := fits_text fit
  obtain ⟨afterApi, rfl, fitApi⟩ := fits_text fitRoot
  obtain ⟨afterVersion, rfl, fitVersion⟩ := fits_text fitApi
  obtain ⟨afterEval, rfl, fitEval⟩ := fits_text fitVersion
  obtain ⟨part, rest, rfl⟩ := fits_piece fitEval
  have joined : ['/'].intercalate (path.splitOn '/') = path := List.intercalate_splitOn '/'
  rw [parts] at joined
  simp only [List.intercalate_cons_cons] at joined
  exact ⟨['/'].intercalate (part :: rest), by rw [← joined]; rfl⟩

theorem routed_starts {method : String} {path : List Char}
    (routed : routesToEval method path = true) : "/api/v1/eval/".toList <+: path := by
  simp only [routesToEval, List.any_eq_true, decide_eq_true_eq] at routed
  obtain ⟨route, mem, -, fit | ⟨-, fit⟩⟩ := routed
  · exact fits_eval mem fit
  · exact (fits_eval mem fit).trans (List.dropLast_prefix path)

theorem eval_base : "/api/v1/eval".toList ++ ['/'] = "/api/v1/eval/".toList := by
  simp only [String.reduceToList, List.cons_append, List.nil_append]

theorem routed_intercepted {method : String} {path : List Char}
    (routed : routesToEval method path = true) : intercepted path = true := by
  obtain ⟨rest, rfl⟩ := routed_starts routed
  have below : under ("/api/v1/eval/".toList ++ rest) "/api/v1/eval" = true := by
    rw [under, decide_eq_true_eq, eval_base, List.isPrefixOf_iff_prefix]
    exact Or.inr (List.prefix_append _ rest)
  have other : "/api/v1/eval/".toList ++ rest ≠ "/api/v1/health".toList := by
    intro same
    have ninth := congrArg (·[8]?) same
    simp at ninth
  rw [intercepted, decide_eq_true_eq, List.any_eq_true]
  exact ⟨⟨"/api/v1/eval", by simp only [List.mem_cons, true_or, or_true], below⟩, other⟩

theorem decode_plain {c : Char} (rest : List Char) (plain : c ≠ '%') :
    decode (c :: rest) = c :: decode rest := by
  cases rest with
  | nil => simp [decode, plain]
  | cons d rest =>
    cases rest with
    | nil => simp [decode, plain]
    | cons e rest => rw [decode, if_neg plain]

/-- Decoding leaves a stretch without escapes as it is. -/
theorem decode_take {n : Nat} {cs : List Char} (plain : '%' ∉ cs.take n) :
    (decode cs).take n = cs.take n := by
  induction n generalizing cs with
  | zero => simp
  | succ n ih =>
    cases cs with
    | nil => simp [decode]
    | cons c rest =>
      simp only [List.take_succ_cons, List.mem_cons, not_or] at plain
      rw [decode_plain rest (Ne.symm plain.1)]
      simp only [List.take_succ_cons, ih plain.2]

theorem prefix_plain {uri : List Char} (starts : "/api/v1/eval/".toList <+: uri) :
    '%' ∉ uri.take 13 := by
  obtain ⟨rest, rfl⟩ := starts
  simp

theorem preHandle_disabled {resolve : String → Option Policy} {tag : String} {policy : Policy}
    {requestUri : List Char} { annotation : Option String} (named : GatewaySubmit.isBlank tag = false)
    (known : resolve tag = some policy) (off : policy.enabled = false) :
    preHandle resolve (some tag) requestUri annotation =
      .error ⟨403, "user disabled: " ++ tag⟩ := by
  simp only [preHandle, named, Bool.false_eq_true, if_false, known, off]

theorem preHandle_enabled {resolve : String → Option Policy} {tag : String} {policy : Policy}
    {requestUri : List Char} (named : GatewaySubmit.isBlank tag = false)
    (known : resolve tag = some policy) (on : policy.enabled = true)
    (plain : policy.isAdmin = false) :
    preHandle resolve (some tag) requestUri none =
      if "/api/v1/eval/".toList.isPrefixOf requestUri then .error ⟨403, "admin role required"⟩
      else .ok policy := by
  simp only [preHandle, named, Bool.false_eq_true, ↓reduceIte, known, on, plain]
  by_cases starts : "/api/v1/eval/".toList.isPrefixOf requestUri = true
  · simp only [starts, ↓reduceIte, and_self]
  · simp only [starts, Bool.false_eq_true, ↓reduceIte, reduceCtorEq, false_and]

/-- A request that the engine takes for an evaluation endpoint is refused to a user who is
no admin exactly where that user is disabled or no escape stands in the prefix. -/
theorem eval_rejected_iff (resolve : String → Option Policy) (tag : String) (policy : Policy)
    (method : String) (uri : List Char) (named : GatewaySubmit.isBlank tag = false)
    (known : resolve tag = some policy) (plain : policy.isAdmin = false) :
    (routesToEval method (decode uri) = true →
      ∃ detail, proxy resolve (some tag) uri = .error ⟨403, detail⟩) ↔
    policy.enabled = false ∨ routesToEval method (decode uri) = false ∨ '%' ∉ uri.take 13 := by
  cases routed : routesToEval method (decode uri) with
  | false => simp
  | true =>
    have seen : proxy resolve (some tag) uri =
        (preHandle resolve (some tag) uri none).map fun _ => uri := by
      rw [proxy, if_pos (routed_intercepted routed)]
    cases on : policy.enabled with
    | false =>
      rw [seen, preHandle_disabled named known on]
      simp [Except.map]
    | true =>
      rw [seen, preHandle_enabled named known on plain]
      constructor
      · intro rejected
        obtain ⟨detail, refused⟩ := rejected rfl
        by_cases starts : "/api/v1/eval/".toList.isPrefixOf uri = true
        · exact Or.inr (Or.inr (prefix_plain (List.isPrefixOf_iff_prefix.mp starts)))
        · rw [if_neg starts] at refused
          cases refused
      · intro fitting _
        have unescaped : '%' ∉ uri.take 13 := by simpa using fitting
        have starts : "/api/v1/eval/".toList <+: uri := by
          have shown := List.prefix_iff_eq_take.mp (routed_starts routed)
          have same : uri.take 13 = "/api/v1/eval/".toList :=
            (decode_take unescaped).symm.trans shown.symm
          exact same ▸ List.take_prefix 13 uri
        rw [if_pos (List.isPrefixOf_iff_prefix.mpr starts)]
        exact ⟨_, rfl⟩

/-- One enabled user, who is no admin. -/
def directory (tag : String) : Option Policy :=
  if tag = "alice" then some ⟨"alice", "user", true⟩ else none

theorem directory_alice : directory "alice" = some ⟨"alice", "user", true⟩ := by
  simp [directory]

theorem alice_named : GatewaySubmit.isBlank "alice" = false := by decide

theorem start_routed : routesToEval "POST" "/api/v1/eval/start".toList = true := by
  simp [routesToEval, evalRoutes, fits, template, List.splitOn_cons_eq_if_modifyHead]

theorem eval_rejected_plain :
    ∃ detail, proxy directory (some "alice") "/api/v1/eval/start".toList = .error ⟨403, detail⟩ := by
  have same : decode "/api/v1/eval/start".toList = "/api/v1/eval/start".toList := by
    simp [decode]
  exact (eval_rejected_iff directory "alice" ⟨"alice", "user", true⟩ "POST"
    "/api/v1/eval/start".toList alice_named directory_alice (by simp [Policy.isAdmin])).mpr
    (Or.inr (Or.inr (by simp))) (by rw [same]; exact start_routed)

/-- An escaped letter hides the prefix from the role test alone. -/
theorem escaped_forwarded :
    routesToEval "POST" (decode "/api/v1/%65val/start".toList) = true ∧
      proxy directory (some "alice") "/api/v1/%65val/start".toList =
        .ok "/api/v1/%65val/start".toList := by
  have same : decode "/api/v1/%65val/start".toList = "/api/v1/eval/start".toList := by
    simp [decode, hexDigit]
  rw [same]
  refine ⟨start_routed, ?_⟩
  have raw : "/api/v1/eval/".toList.isPrefixOf "/api/v1/%65val/start".toList = false := by
    simp [List.isPrefixOf]
  rw [proxy, same, if_pos (routed_intercepted start_routed),
    preHandle_enabled alice_named directory_alice rfl (by simp [Policy.isAdmin]), raw]
  rfl

end PolicyInterceptor
end Nl2SqlAgent

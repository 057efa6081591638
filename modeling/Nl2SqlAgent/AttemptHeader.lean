import Nl2SqlAgent.RetryLoop
import Nl2SqlAgent.Correction
import Mathlib.Order.Bounds.Basic

/-! What the header of a correction says of the retry loop: which attempt it is of how
many, and whether it is the last. -/
namespace Nl2SqlAgent

open Lib

namespace RetryLoop

/-- A behaviour of the nodes that leaves the counters alone. -/
def Behaves (behaviour : Nat → AgentState → AgentState) : Prop := ∀ n, KeepsCounters (behaviour n)

/-- The number of generator visits that a run from here may make. -/
def MayMake (p : Position) (n : Nat) : Prop :=
  IsGreatest {k | ∃ behaviour m, Behaves behaviour ∧ generations behaviour p m = k} n

/-- After the generator visit at which the run stands, another may follow. -/
def CanFollow (p : Position) : Prop :=
  ∃ behaviour m, Behaves behaviour ∧ 1 < generations behaviour p m

/-- Every check of the attempt fails. -/
def rejecting (s : AgentState) : AgentState :=
  { s with guardPass := some false, execResult := none, semanticPass := some false }

/-- Where every check fails, each retry that is left is used for a generation. -/
theorem rejecting_spends (p : Position) (open_ : ¬ AtEnd p) :
    credit p ≤ credit (visit rejecting p) + (decide (p.node = .generator)).toNat := by
  obtain ⟨node, s⟩ := p
  cases node with
  | finish => exact absurd rfl open_
  | postRefiner =>
    rcases routeAfterRefiner_left s with route | ⟨route, used⟩
    · have none_left : left s = 0 := by
        unfold AgentGraph.routeAfterRefiner at route
        split at route
        next exceeded =>
          simp only [AgentGraph.afterRefiner, Option.getD_some] at exceeded
          simp only [left]
          omega
        · cases route
      simp [visit, edge, route, credit, none_left]
    · simp only [visit, edge, route, credit]
      omega
  | schemaRetriever =>
    simp only [visit, edge, AgentGraph.routeAfterSchema]
    split <;> simp [credit, left, rejecting]
  | _ => simp [visit, edge, credit, left, rejecting, AgentGraph.routeAfterGuard,
      AgentGraph.routeAfterVoter, AgentGraph.routeAfterSemantic]

/-- No run makes more generator visits than its credit, however far it is taken. -/
theorem generations_le_credit (keeps : Behaves behaviour) (p : Position) (n : Nat) :
    generations behaviour p n ≤ credit p := by
  have pays (n : Nat) (p : Position) : credit (visit (behaviour n) p) +
      (decide (p.node = .generator)).toNat ≤ credit p := by
    by_cases ended : AtEnd p
    · have still : p.node = .finish := ended
      simp [visit, edge, credit, still]
    · exact (visit_rank (keeps n) ended).2
  have paid : generations behaviour p n + credit (orbit (fun n => visit (behaviour n)) p n) ≤
      credit p :=
    count_le_credit credit (fun p => decide (p.node = .generator))
      (fun n p (_ : ¬ False) => pays n p) (fun _ _ => id)
  exact (Nat.le_add_right _ _).trans paid

theorem mayMake_credit (p : Position) : MayMake p (credit p) := by
  constructor
  · have keeps : Behaves fun _ => rejecting := fun _ _ => ⟨rfl, rfl⟩
    obtain ⟨m, -, ends, within⟩ := run_ends (fun _ => rejecting) keeps p
    have spent := credit_le_count (s := p) credit (fun p => decide (p.node = .generator))
      (fun _ p open_ => rejecting_spends p open_) ends.before
    have nothing : credit (orbit (fun _ => visit rejecting) p m) = 0 := by
      have ended : (orbit (fun _ => visit rejecting) p m).node = .finish := ends.ended
      simp [credit, ended]
    rw [nothing] at spent
    exact ⟨_, m, keeps, Nat.le_antisymm within spent⟩
  · rintro k ⟨behaviour, m, keeps, rfl⟩
    exact generations_le_credit keeps p m

theorem mayMake_iff (p : Position) : MayMake p n ↔ n = credit p :=
  ⟨fun greatest => greatest.unique (mayMake_credit p), fun same => same ▸ mayMake_credit p⟩

theorem canFollow_iff (p : Position) : CanFollow p ↔ 1 < credit p := by
  constructor
  · rintro ⟨behaviour, m, keeps, more⟩
    exact more.trans_le (generations_le_credit keeps p m)
  · intro more
    obtain ⟨behaviour, m, keeps, made⟩ := (mayMake_credit p).1
    exact ⟨behaviour, m, keeps, made ▸ more⟩

end RetryLoop

namespace AgentGraph

/-- The header's text, with `k` of `n` attempts. -/
def headerText (k n : Nat) (final : Bool) : String :=
  "## CORRECTION " ++ toString k ++ "/" ++ toString n ++
    (if final then " (FINAL ATTEMPT — be conservative, prefer simpler queries)\n" else "\n")

theorem headerText_inj {k n k' n' : Nat} {final final' : Bool} {rest rest' : String}
    (same : headerText k n final ++ rest = headerText k' n' final' ++ rest') :
    k = k' ∧ n = n' ∧ final = final' := by
  have digits (n : Nat) : ∀ c ∈ (toString n).toList, c.isDigit = true := by
    intro c member
    rw [Nat.toString_eq_repr, Nat.toList_repr] at member
    exact Nat.isDigit_of_mem_toDigits (by decide) (by decide) member
  have number {m m' : Nat} (equal : (toString m).toList = (toString m').toList) : m = m' := by
    simp only [Nat.toString_eq_repr, Nat.toList_repr] at equal
    rw [← Nat.ofDigitChars_ten_toDigits (n := m), equal, Nat.ofDigitChars_ten_toDigits]
  have ends (final : Bool) : ∃ text, (if final then
      " (FINAL ATTEMPT — be conservative, prefer simpler queries)\n" else "\n").toList =
      (if final then ' ' else '\n') :: text := by
    cases final
    · exact ⟨[], by decide⟩
    · exact ⟨"(FINAL ATTEMPT — be conservative, prefer simpler queries)\n".toList, by decide⟩
  obtain ⟨tail, shape⟩ := ends final
  obtain ⟨tail', shape'⟩ := ends final'
  have chars := congrArg String.toList same
  unfold headerText at chars
  simp only [String.toList_append, List.append_assoc] at chars
  have slash : "/".toList = ['/'] := rfl
  rw [slash] at chars
  obtain ⟨made, -, after⟩ := Py.leading_inj (k := Char.isDigit) (List.append_cancel_left chars)
    (digits k) (digits k') rfl rfl
  simp only [shape, shape', List.cons_append] at after
  have blank (final : Bool) : (if final then ' ' else '\n').isDigit = false := by
    cases final <;> rfl
  obtain ⟨may, mark, -⟩ := Py.leading_inj (k := Char.isDigit) after (digits n) (digits n')
    (blank final) (blank final')
  refine ⟨number made, number may, ?_⟩
  cases final <;> cases final' <;> first | rfl | exact absurd mark (by decide)

theorem header_eq {s : AgentState} {max : Nat} (limit : s.maxRetries.getD 2 = max) :
    Refiner.header s = headerText (s.retryCount.getD 0 + 1) (max + 1)
      (decide (max ≤ s.retryCount.getD 0)) := by
  have final : ((max : Int) + 1 ≤ (s.retryCount.getD 0 : Int) + 1) ↔ max ≤ s.retryCount.getD 0 := by
    omega
  unfold Refiner.header headerText
  simp only [limit, final, decide_eq_true_eq]
  rfl

theorem header_written (refined : (machine env).step c (.refiner expansion) = some c₁) :
    ∃ rest, c₁.state.lastError = some (Refiner.header c.state ++ rest) := by
  obtain ⟨-, taken⟩ := Option.ite_none_right_eq_some.mp refined
  obtain ⟨t, visited, rfl⟩ := Option.map_eq_some_iff.mp taken
  simp only [Refiner.node, Option.bind_eq_bind, Option.bind_eq_some_iff] at visited
  obtain ⟨sql, -, hint, -, widened, -, same⟩ := visited
  obtain rfl := Option.some.inj same
  exact ⟨_, rfl⟩

def isGeneration : Visit → Bool
  | .generator _ => true
  | _ => false

def generated (visits : List Visit) : Nat := visits.countP isGeneration

def position (c : Config) : RetryLoop.Position := ⟨c.node, c.state⟩

/-- A correction for the generator visit at `c`, in a run from `c₀` that made `visits`
before the refiner's: its header counts the generator visits so far and those the run may
make, and calls the coming one final exactly when no other can follow. -/
def Truthful (c₀ : Config) (visits : List Visit) (text : String) (c : Config) : Prop :=
  ∃ may final rest, text = headerText (generated visits) may final ++ rest ∧
    RetryLoop.MayMake (position c₀) may ∧ (final = true ↔ ¬ RetryLoop.CanFollow (position c))

theorem Truthful.read (truthful : Truthful c₀ visits (headerText k n final ++ rest) c) :
    generated visits = k ∧ RetryLoop.MayMake (position c₀) n ∧
      (final = true ↔ ¬ RetryLoop.CanFollow (position c)) := by
  obtain ⟨may, last, text, same, greatest, follows⟩ := truthful
  obtain ⟨rfl, rfl, rfl⟩ := headerText_inj same
  exact ⟨rfl, greatest, follows⟩

/-- The retries keep up with the generations, which the feedback graph starts one behind. -/
structure Paced (limit : Option Int) (behind made : Nat) (c : Config) : Prop where
  limit : c.state.maxRetries = limit
  drafting : c.node ∈ [.router, .schemaRetriever, .decomposer, .fewshotSelector, .generator] →
    made + behind = c.state.retryCount.getD 0
  checking : c.node ∈ [.guard, .voter, .semanticCheck, .refiner, .postRefiner] →
    made + behind = c.state.retryCount.getD 0 + 1

theorem isGeneration_here (generation : isGeneration visit = true)
    (stepped : (machine env).step c visit = some c') : c.node = .generator := by
  cases visit with
  | generator reply => exact (Option.ite_none_right_eq_some.mp stepped).1
  | _ => cases generation

theorem paced_step (paced : Paced limit behind made c)
    (stepped : (machine env).step c visit = some c') :
    Paced limit behind (made + (isGeneration visit).toNat) c' := by
  have kind (generation : isGeneration visit = true) : c.node = .generator :=
    isGeneration_here generation stepped
  cases step_stepped stepped with
  | upstream visit n t fromUpstream toUpstream frame =>
    obtain ⟨_, _, _, _, _, _, _, rfl⟩ := frame
    have draft : isGeneration visit = false := by
      by_contra generation
      rw [kind (by simpa using generation)] at fromUpstream
      exact absurd fromUpstream (by decide)
    have before := paced.drafting (List.mem_append_left [Node.generator] fromUpstream)
    refine ⟨paced.limit, fun _ => by simpa [draft] using before, fun elsewhere => ?_⟩
    simp only [List.mem_cons, List.not_mem_nil, or_false] at toUpstream elsewhere
    rcases toUpstream with rfl | rfl | rfl | rfl <;> simp at elsewhere
  | generator reply t here visited =>
    obtain ⟨_, _, _, _, _, rfl⟩ := visited.frame
    have before := paced.drafting (by simp [here])
    refine ⟨paced.limit, by simp, fun _ => ?_⟩
    simp only [isGeneration, Bool.toNat_true]
    omega
  | guard t here visited =>
    obtain ⟨_, _, _, _, rfl⟩ := visited.frame
    have before := paced.checking (by simp [here])
    refine ⟨paced.limit, fun elsewhere => ?_, fun _ => by simpa [isGeneration] using before⟩
    simp only [routeAfterGuard] at elsewhere
    split at elsewhere <;> simp at elsewhere
  | voter executions ballot performed t here visit =>
    obtain ⟨_, _, rfl, -⟩ := Voter.node_reported visit
    have before := paced.checking (by simp [here])
    exact ⟨paced.limit, by simp, fun _ => by simpa [isGeneration] using before⟩
  | semanticCheck reply t here visited =>
    obtain ⟨_, _, _, _, _, _, _, rfl⟩ := visited.frame
    have before := paced.checking (by simp [here])
    refine ⟨paced.limit, fun elsewhere => ?_, fun _ => by simpa [isGeneration] using before⟩
    simp only [routeAfterSemantic] at elsewhere
    split at elsewhere <;> simp at elsewhere
  | refiner expansion t here visited =>
    obtain ⟨_, _, _, _, _, _, rfl⟩ := visited.frame
    have before := paced.checking (by simp [here])
    exact ⟨paced.limit, by simp, fun _ => by simpa [isGeneration] using before⟩
  | postRefiner here =>
    have before := paced.checking (by simp [here])
    refine ⟨paced.limit, fun _ => by simpa [isGeneration, afterRefiner] using before, ?_⟩
    intro elsewhere
    simp only [routeAfterRefiner] at elsewhere
    split at elsewhere <;> simp at elsewhere

theorem paced_run (paced : Paced limit behind made c)
    (run : (machine env).exec c visits = some c') :
    Paced limit behind (made + generated visits) c' := by
  induction visits generalizing c made with
  | nil =>
    obtain rfl := Option.some.inj run
    exact paced
  | cons visit rest ih =>
    obtain ⟨next, stepped, later⟩ := Machine.exec_cons_some.mp run
    have after := ih (paced_step paced stepped) later
    have counted : (isGeneration visit).toNat + generated rest = generated (visit :: rest) := by
      cases kind : isGeneration visit <;> simp [generated, kind, Nat.add_comm]
    rwa [Nat.add_assoc, counted] at after

theorem start_paced (start : Start c₀) :
    Paced c₀.state.maxRetries (if c₀.node = .router then 0 else 1) 0 c₀ := by
  cases start with
  | full i => exact ⟨rfl, fun _ => rfl, by simp [fullStart]⟩
  | feedback i => exact ⟨rfl, by simp [feedbackStart], fun _ => rfl⟩

theorem start_credit (start : Start c₀) : RetryLoop.credit (position c₀) =
    (c₀.state.maxRetries.getD 2).toNat + (if c₀.node = .router then 1 else 0) := by
  cases start with
  | full i => simp [position, fullStart, RetryLoop.credit, RetryLoop.left]
  | feedback i => simp [position, feedbackStart, RetryLoop.credit, RetryLoop.left]

/-- What a refiner visit behind which the generator is visited again says, and where
the run then stands. -/
theorem retry_header (start : Start c₀) (run : (machine env).exec c₀ visits = some c)
    (refined : (machine env).step c (.refiner expansion) = some c₁)
    (counted : (machine env).step c₁ .postRefiner = some c₂) (again : c₂.node = .generator) :
    ∃ (max : Nat) (rest : String), c.state.maxRetries.getD 2 = max ∧
      c₀.state.maxRetries.getD 2 = max ∧ c.state.retryCount.getD 0 < max ∧
      generated visits + (if c₀.node = .router then 0 else 1) = c.state.retryCount.getD 0 + 1 ∧
      c₁.state.lastError =
        some (headerText (c.state.retryCount.getD 0 + 1) (max + 1) false ++ rest) ∧
      RetryLoop.credit (position c₂) = max - c.state.retryCount.getD 0 := by
  have paced := paced_run (start_paced start) run
  obtain ⟨rest, written⟩ := header_written refined
  obtain ⟨here, taken⟩ := Option.ite_none_right_eq_some.mp refined
  obtain ⟨t, visited, rfl⟩ := Option.map_eq_some_iff.mp taken
  obtain rfl := Option.some.inj (show some (Config.mk _ (afterRefiner t) _) = some c₂ from counted)
  have kept : t.retryCount = c.state.retryCount ∧ t.maxRetries = c.state.maxRetries := by
    obtain ⟨_, _, _, _, _, _, rfl⟩ := (Refiner.node_visited env expansion visited).frame
    exact ⟨rfl, rfl⟩
  have made := paced.checking (by simp [here])
  have within : ((c.state.retryCount.getD 0 + 1 : Nat) : Int) ≤ c.state.maxRetries.getD 2 := by
    change routeAfterRefiner _ = .generator at again
    unfold routeAfterRefiner at again
    split at again
    · cases again
    next within =>
      simp only [afterRefiner, kept, Option.getD_some] at within
      exact not_lt.mp within
  obtain ⟨max, limit⟩ := Int.eq_ofNat_of_zero_le (a := c.state.maxRetries.getD 2) (by omega)
  refine ⟨max, rest, limit, paced.limit ▸ limit, by omega, by omega, ?_, ?_⟩
  · rw [written, header_eq limit, decide_eq_false (by omega)]
  · have stands : position ⟨routeAfterRefiner (afterRefiner t), afterRefiner t, c.attempt⟩ =
        ⟨.generator, afterRefiner t⟩ := congrArg (RetryLoop.Position.mk · (afterRefiner t)) again
    rw [stands]
    simp only [RetryLoop.credit, RetryLoop.left, afterRefiner, kept, Option.getD_some, limit]
    omega

/-- In every run of either graph and at every generator visit behind a refiner visit, the
correction's header is right exactly in the full graph and while at least two retries
were left: the header of the last generation never calls it final, and the feedback graph
counts a generation too many. -/
theorem header_truthful_iff (start : Start c₀) (run : (machine env).exec c₀ visits = some c)
    (refined : (machine env).step c (.refiner expansion) = some c₁)
    (counted : (machine env).step c₁ .postRefiner = some c₂) (again : c₂.node = .generator) :
    (∃ text, c₁.state.lastError = some text ∧ Truthful c₀ visits text c₂) ↔
      c₀.node = .router ∧
        ((c.state.retryCount.getD 0 + 1 : Nat) : Int) < c.state.maxRetries.getD 2 := by
  obtain ⟨max, rest, limit, initial, more, made, written, credit⟩ :=
    retry_header start run refined counted again
  have may := start_credit start
  rw [initial, Int.toNat_natCast] at may
  rw [limit]
  constructor
  · rintro ⟨text, same, truthful⟩
    obtain rfl := Option.some.inj (written.symm.trans same)
    obtain ⟨equal, -, follows⟩ := truthful.read
    have full : c₀.node = .router := by
      by_contra other
      rw [if_neg other] at made
      omega
    have another : RetryLoop.CanFollow (position c₂) := by simpa using follows
    rw [RetryLoop.canFollow_iff, credit] at another
    exact ⟨full, by omega⟩
  · rintro ⟨full, left⟩
    rw [if_pos full] at made may
    have another : RetryLoop.CanFollow (position c₂) := by
      rw [RetryLoop.canFollow_iff, credit]
      omega
    refine ⟨_, written, max + 1, false, rest, ?_, (RetryLoop.mayMake_iff _).mpr may.symm, ?_⟩
    · rw [← made, Nat.add_zero]
    · simpa using another

theorem header_truthful_first :
    ∃ c c₁ c₂ : Config, (machine .plain).exec (fullStart shopInput) (firstDraft "DROP TABLE orders") =
        some c ∧
      ((∃ text, c₁.state.lastError = some text ∧
          Truthful (fullStart shopInput) (firstDraft "DROP TABLE orders") text c₂) ↔
        (fullStart shopInput).node = .router ∧
          ((c.state.retryCount.getD 0 + 1 : Nat) : Int) < c.state.maxRetries.getD 2) := by
  obtain ⟨c, c₁, c₂, run, refined, counted, final⟩ :=
    retry_split .plain (fullStart shopInput) (firstDraft "DROP TABLE orders") none
      (fun c => c.node = .generator) (by decide)
  exact ⟨c, c₁, c₂, run,
    header_truthful_iff (.full shopInput) run refined counted (of_decide_eq_true final)⟩

/-- The visits up to a second rejection by the guard. -/
def rejectedTwice : List Visit :=
  firstDraft "DROP TABLE orders" ++ [.refiner none, .postRefiner,
    .generator fun _ => some ⟨"DROP TABLE orders", .zero⟩, .guard]

/-- With the default of two retries the third generation is the last, and its header
does not say so. -/
theorem final_unannounced :
    ∃ (c c₁ c₂ : Config) (text : String),
      (machine .plain).exec (fullStart shopInput) rejectedTwice = some c ∧
      (machine .plain).step c (.refiner none) = some c₁ ∧
      (machine .plain).step c₁ .postRefiner = some c₂ ∧ c₂.node = .generator ∧
      c₁.state.lastError = some text ∧ ¬ Truthful (fullStart shopInput) rejectedTwice text c₂ := by
  obtain ⟨c, c₁, c₂, run, refined, counted, final⟩ :=
    retry_split .plain (fullStart shopInput) rejectedTwice none (fun c => c.node = .generator)
      (by decide)
  have again := of_decide_eq_true final
  obtain ⟨max, rest, -, initial, -, made, written, credit⟩ :=
    retry_header (.full shopInput) run refined counted again
  refine ⟨c, c₁, c₂, _, run, refined, counted, again, written, fun truthful => ?_⟩
  obtain ⟨-, -, follows⟩ := truthful.read
  have another : RetryLoop.CanFollow (position c₂) := by simpa using follows
  rw [RetryLoop.canFollow_iff, credit] at another
  have two : generated rejectedTwice = 2 := by decide
  have default : ((2 : Nat) : Int) = max := initial
  have full : (fullStart shopInput).node = .router := rfl
  rw [two, if_pos full] at made
  omega

end AgentGraph
end Nl2SqlAgent

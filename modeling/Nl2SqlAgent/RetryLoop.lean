import Nl2SqlAgent.AgentGraph

/-! The retry loop of both graphs, whatever their nodes write: only `_post_refiner` counts,
and only its router reads the count. -/
namespace Nl2SqlAgent

open Lib

namespace RetryLoop

structure Position where
  node : AgentGraph.Node
  state : AgentState
  deriving DecidableEq

/-- A node's update, merged into the state, that does not touch the two counters. -/
def KeepsCounters (output : AgentState → AgentState) : Prop :=
  ∀ s, (output s).retryCount = s.retryCount ∧ (output s).maxRetries = s.maxRetries

/-- The edge behind a node, which both graphs take alike. -/
def edge : AgentGraph.Node → AgentState → AgentGraph.Node
  | .router, _ => .schemaRetriever
  | .schemaRetriever, s => AgentGraph.routeAfterSchema s
  | .decomposer, _ => .fewshotSelector
  | .fewshotSelector, _ => .generator
  | .generator, _ => .guard
  | .guard, s => AgentGraph.routeAfterGuard s
  | .voter, s => AgentGraph.routeAfterVoter s
  | .semanticCheck, s => AgentGraph.routeAfterSemantic s
  | .refiner, _ => .postRefiner
  | .postRefiner, s => AgentGraph.routeAfterRefiner s
  | .finish, _ => .finish

/-- One visit, `output` being what the node does unless it is `_post_refiner`. -/
def visit (output : AgentState → AgentState) (p : Position) : Position :=
  let t :=
    match p.node with
    | .postRefiner => AgentGraph.afterRefiner p.state
    | .finish => p.state
    | _ => output p.state
  ⟨edge p.node t, t⟩

def run (behaviour : Nat → AgentState → AgentState) : Position → Nat → Position :=
  orbit fun n => visit (behaviour n)

def AtEnd (p : Position) : Prop := p.node = .finish

instance : DecidablePred AtEnd := fun p => inferInstanceAs (Decidable (p.node = .finish))

abbrev Ends (behaviour : Nat → AgentState → AgentState) (p : Position) (n : Nat) : Prop :=
  EndsAt (fun n => visit (behaviour n)) AtEnd p n

def generations (behaviour : Nat → AgentState → AgentState) (p : Position) (n : Nat) : Nat :=
  (List.range n).countP fun k => decide ((run behaviour p k).node = .generator)

def left (s : AgentState) : Nat := (s.maxRetries.getD 2 - (s.retryCount.getD 0 : Nat)).toNat

/-- At most so many visits are still to come. -/
def rank (p : Position) : Nat :=
  match p.node with
  | .router => 6 * (left p.state + 1) + 4
  | .schemaRetriever => 6 * (left p.state + 1) + 3
  | .decomposer => 6 * (left p.state + 1) + 2
  | .fewshotSelector => 6 * (left p.state + 1) + 1
  | .generator => 6 * (left p.state + 1)
  | .guard => 6 * left p.state + 5
  | .voter => 6 * left p.state + 4
  | .semanticCheck => 6 * left p.state + 3
  | .refiner => 6 * left p.state + 2
  | .postRefiner => 6 * left p.state + 1
  | .finish => 0

def credit (p : Position) : Nat :=
  match p.node with
  | .router => left p.state + 1
  | .schemaRetriever => left p.state + 1
  | .decomposer => left p.state + 1
  | .fewshotSelector => left p.state + 1
  | .generator => left p.state + 1
  | .finish => 0
  | _ => left p.state

variable {output : AgentState → AgentState} {p : Position}

theorem left_kept (keeps : KeepsCounters output) (s : AgentState) : left (output s) = left s := by
  simp only [left, keeps s]

/-- The count is tested after it was raised: another generation uses up one retry. -/
theorem routeAfterRefiner_left (s : AgentState) :
    AgentGraph.routeAfterRefiner (AgentGraph.afterRefiner s) = .finish ∨
      (AgentGraph.routeAfterRefiner (AgentGraph.afterRefiner s) = .generator ∧
        left (AgentGraph.afterRefiner s) + 1 = left s) := by
  unfold AgentGraph.routeAfterRefiner
  split
  · exact .inl rfl
  next within =>
    refine .inr ⟨rfl, ?_⟩
    simp only [left, AgentGraph.afterRefiner, Option.getD_some] at within ⊢
    omega

/-- Every visit lowers the rank, and a visit of the generator is paid for. -/
theorem visit_rank (keeps : KeepsCounters output) (open_ : ¬ AtEnd p) :
    rank (visit output p) < rank p ∧
      credit (visit output p) + (decide (p.node = .generator)).toNat ≤ credit p := by
  obtain ⟨node, s⟩ := p
  have same := left_kept keeps s
  cases node with
  | finish => exact absurd rfl open_
  | postRefiner =>
    rcases routeAfterRefiner_left s with route | ⟨route, used⟩
    · simp [visit, edge, route, rank, credit]
    · have other : decide (AgentGraph.Node.postRefiner = .generator) = false := rfl
      simp only [visit, edge, route, rank, credit, other, Bool.toNat_false]
      omega
  | schemaRetriever =>
    simp only [visit, edge, AgentGraph.routeAfterSchema]
    split <;> simp [rank, credit, same]
  | guard =>
    simp only [visit, edge, AgentGraph.routeAfterGuard]
    split <;> simp [rank, credit, same]
  | voter =>
    simp only [visit, edge, AgentGraph.routeAfterVoter]
    split <;> simp [rank, credit, same]
  | semanticCheck =>
    simp only [visit, edge, AgentGraph.routeAfterSemantic]
    split <;> simp [rank, credit, same]
  | _ => simp [visit, edge, rank, credit, same] <;> omega

/-- From anywhere a run comes to END within its rank, and generates within its credit. -/
theorem run_ends (behaviour : Nat → AgentState → AgentState) (keeps : ∀ n, KeepsCounters (behaviour n))
    (p : Position) :
    ∃ n ≤ rank p, Ends behaviour p n ∧ generations behaviour p n ≤ credit p := by
  obtain ⟨n, within, ends⟩ := exists_endsAt (s := p) rank fun n p open_ => (visit_rank (keeps n) open_).1
  have paid := count_le_credit (s := p) credit (fun p => decide (p.node = .generator))
    (fun n p open_ => (visit_rank (keeps n) open_).2) ends.before
  exact ⟨n, within, ends, (Nat.le_add_right _ _).trans paid⟩

def recursionLimit : Nat := 25

/-- Whatever the nodes give, both graphs come to END: the full graph within four visits and
six for each generation, of which there are at most one more than retries, the feedback
graph with one generation less. With the default of two retries neither comes to the
recursion limit. -/
theorem graphs_end (behaviour : Nat → AgentState → AgentState)
    (keeps : ∀ n, KeepsCounters (behaviour n)) (s : AgentState) (maxRetries : Nat)
    (limit : s.maxRetries.getD 2 = maxRetries) :
    (∃ n, Ends behaviour ⟨.router, s⟩ n ∧ n ≤ 4 + 6 * (maxRetries + 1) ∧
      generations behaviour ⟨.router, s⟩ n ≤ maxRetries + 1 ∧
      (maxRetries = 2 → n ≤ recursionLimit)) ∧
    (s.retryCount.getD 0 = 0 → ∃ n, Ends behaviour ⟨.refiner, s⟩ n ∧ n ≤ 2 + 6 * maxRetries ∧
      generations behaviour ⟨.refiner, s⟩ n ≤ maxRetries ∧
      (maxRetries = 2 → n ≤ recursionLimit)) := by
  have few : left s ≤ maxRetries := by
    unfold left
    omega
  constructor
  · obtain ⟨n, within, ends, generated⟩ := run_ends behaviour keeps ⟨.router, s⟩
    simp only [rank, credit] at within generated
    exact ⟨n, ends, by omega, by omega, fun default => by unfold recursionLimit; omega⟩
  · intro _
    obtain ⟨n, within, ends, generated⟩ := run_ends behaviour keeps ⟨.refiner, s⟩
    simp only [rank, credit] at within generated
    exact ⟨n, ends, by omega, by omega, fun default => by unfold recursionLimit; omega⟩

theorem graphs_end_idle :
    let s : AgentState := { question := "How many orders?" }
    (∃ n, Ends (fun _ s => s) ⟨.router, s⟩ n ∧ n ≤ 22) ∧
      ∃ n, Ends (fun _ s => s) ⟨.refiner, s⟩ n ∧ n ≤ 14 := by
  intro s
  obtain ⟨⟨n, ends, within, -⟩, feedback⟩ := graphs_end (fun _ s => s) (fun _ _ => ⟨rfl, rfl⟩) s 2 rfl
  obtain ⟨k, feedbackEnds, feedbackWithin, -⟩ := feedback rfl
  exact ⟨⟨n, ends, within⟩, k, feedbackEnds, feedbackWithin⟩

theorem visit_of {c c' : AgentGraph.Config}
    (other : c.node ≠ .postRefiner ∧ c.node ≠ .finish) (route : c'.node = edge c.node c'.state)
    (retries : c'.state.retryCount = c.state.retryCount)
    (limit : c'.state.maxRetries = c.state.maxRetries) :
    ∃ output, KeepsCounters output ∧ visit output ⟨c.node, c.state⟩ = ⟨c'.node, c'.state⟩ := by
  refine ⟨fun s => { c'.state with retryCount := s.retryCount, maxRetries := s.maxRetries },
    fun s => ⟨rfl, rfl⟩, ?_⟩
  have same : { c'.state with retryCount := c.state.retryCount, maxRetries := c.state.maxRetries } =
      c'.state := by rw [← retries, ← limit]
  obtain ⟨node, state, attempt⟩ := c
  cases node <;> simp only [visit, ne_eq, not_true_eq_false, false_and, and_false] at other ⊢ <;>
    rw [same, route]

/-- A visit of the modelled graphs is one of these visits. -/
theorem step_visit {env : Env} {c c' : AgentGraph.Config} {v : AgentGraph.Visit}
    (stepped : (AgentGraph.machine env).step c v = some c') :
    ∃ output, KeepsCounters output ∧ visit output ⟨c.node, c.state⟩ = ⟨c'.node, c'.state⟩ := by
  change AgentGraph.step env c v = some c' at stepped
  cases v with
  | router complexity usage =>
    obtain ⟨here, taken⟩ := Option.ite_none_right_eq_some.mp stepped
    obtain rfl := Option.some.inj taken
    exact visit_of (by simp [here]) (by simp [here, edge]) rfl rfl
  | schemaRetriever schemaText notesText sampleRowsText =>
    obtain ⟨here, taken⟩ := Option.ite_none_right_eq_some.mp stepped
    obtain ⟨t, visited, rfl⟩ := Option.map_eq_some_iff.mp taken
    obtain ⟨-, same⟩ := Option.ite_none_left_eq_some.mp visited
    obtain rfl := Option.some.inj same
    exact visit_of (by simp [here]) (by simp [here, edge]) rfl rfl
  | decomposer steps usage =>
    obtain ⟨here, taken⟩ := Option.ite_none_right_eq_some.mp stepped
    obtain rfl := Option.some.inj taken
    exact visit_of (by simp [here]) (by simp [here, edge]) rfl rfl
  | fewshotSelector retrieved =>
    obtain ⟨here, taken⟩ := Option.ite_none_right_eq_some.mp stepped
    obtain rfl := Option.some.inj taken
    exact visit_of (by simp [here]) (by simp [here, edge]) rfl rfl
  | generator reply =>
    obtain ⟨here, taken⟩ := Option.ite_none_right_eq_some.mp stepped
    obtain ⟨t, visited, rfl⟩ := Option.map_eq_some_iff.mp taken
    obtain ⟨_, _, _, _, _, rfl⟩ := (Generator.node_visited env reply visited).frame
    exact visit_of (by simp [here]) (by simp [here, edge]) rfl rfl
  | guard =>
    obtain ⟨here, taken⟩ := Option.ite_none_right_eq_some.mp stepped
    obtain ⟨t, visited, rfl⟩ := Option.map_eq_some_iff.mp taken
    obtain ⟨_, _, _, _, rfl⟩ := (Guard.node_visited visited).frame
    exact visit_of (by simp [here]) (by simp [here, edge]) rfl rfl
  | voter executions ballot =>
    obtain ⟨here, taken⟩ := Option.ite_none_right_eq_some.mp stepped
    obtain ⟨⟨t, performed⟩, visited, rfl⟩ := Option.map_eq_some_iff.mp taken
    obtain ⟨_, _, rfl, -⟩ := Voter.node_reported visited
    exact visit_of (by simp [here]) (by simp [here, edge]) rfl rfl
  | semanticCheck reply =>
    obtain ⟨here, taken⟩ := Option.ite_none_right_eq_some.mp stepped
    obtain rfl := Option.some.inj taken
    obtain ⟨_, _, _, _, _, _, _, same⟩ := (SemanticCheck.node_visited env reply c.state).frame
    exact visit_of (by simp [here]) (by simp [here, edge]) (by simp [same]) (by simp [same])
  | refiner expansion =>
    obtain ⟨here, taken⟩ := Option.ite_none_right_eq_some.mp stepped
    obtain ⟨t, visited, rfl⟩ := Option.map_eq_some_iff.mp taken
    obtain ⟨_, _, _, _, _, _, rfl⟩ := (Refiner.node_visited env expansion visited).frame
    exact visit_of (by simp [here]) (by simp [here, edge]) rfl rfl
  | postRefiner =>
    obtain ⟨here, taken⟩ := Option.ite_none_right_eq_some.mp stepped
    obtain rfl := Option.some.inj taken
    exact ⟨fun s => s, fun _ => ⟨rfl, rfl⟩, by simp [visit, edge, here]⟩

theorem run_length {env : Env} {c c' : AgentGraph.Config} {visits : List AgentGraph.Visit}
    (run : (AgentGraph.machine env).exec c visits = some c') :
    visits.length ≤ rank ⟨c.node, c.state⟩ := by
  refine (Nat.le_add_right _ _).trans (Machine.length_le_rank
    (fun c => rank ⟨c.node, c.state⟩) (fun c v c' stepped => ?_) run)
  obtain ⟨output, keeps, visited⟩ := step_visit stepped
  have open_ : ¬ AtEnd ⟨c.node, c.state⟩ := by
    intro (ended : c.node = .finish)
    cases v <;> simp [AgentGraph.machine, AgentGraph.step, ended] at stepped
  rw [← visited]
  exact (visit_rank keeps open_).1

/-- A run of the modelled graphs is a run of the loop with some behaviour of the nodes, and
within its bounds. -/
theorem graph_runs {env : Env} {c c' : AgentGraph.Config} {visits : List AgentGraph.Visit}
    (executed : (AgentGraph.machine env).exec c visits = some c') :
    ∃ behaviour, (∀ n, KeepsCounters (behaviour n)) ∧
      run behaviour ⟨c.node, c.state⟩ visits.length = ⟨c'.node, c'.state⟩ ∧
      visits.length ≤ rank ⟨c.node, c.state⟩ := by
  have each (c : AgentGraph.Config) (v : AgentGraph.Visit) (c' : AgentGraph.Config)
      (stepped : (AgentGraph.machine env).step c v = some c') :
      ∃ f, (∃ output, KeepsCounters output ∧ visit output = f) ∧
        f ⟨c.node, c.state⟩ = ⟨c'.node, c'.state⟩ := by
    obtain ⟨output, keeps, visited⟩ := step_visit stepped
    exact ⟨visit output, ⟨output, keeps, rfl⟩, visited⟩
  obtain ⟨next, allowed, reached⟩ := Machine.exec_orbit
    (fun c => Position.mk c.node c.state) (fun f => ∃ output, KeepsCounters output ∧ visit output = f)
    ⟨fun s => s, fun _ => ⟨rfl, rfl⟩, rfl⟩ each executed
  choose behaviour keeps same using allowed
  refine ⟨behaviour, keeps, ?_, run_length executed⟩
  rwa [show next = fun n => visit (behaviour n) from funext fun n => (same n).symm] at reached

/-- The statement passes the guard, and there is no database. -/
def draftedVisits : List AgentGraph.Visit :=
  [.router "simple" .zero, .schemaRetriever "CREATE TABLE orders(id)" "" "", .fewshotSelector "",
    .generator fun _ => some ⟨"SELECT 1", .zero⟩, .guard, .voter [] none,
    .semanticCheck (.ok ⟨"YES", []⟩)]

def draftedInput : AgentGraph.FullInput := { question := "How many orders?", dbId := some "shop" }

theorem graph_runs_drafted : ∃ s behaviour, (∀ n, KeepsCounters (behaviour n)) ∧
    run behaviour ⟨.router, (AgentGraph.fullStart draftedInput).state⟩ 7 = ⟨.finish, s⟩ := by
  have ends : ((AgentGraph.machine .plain).exec (AgentGraph.fullStart draftedInput)
      draftedVisits).any (fun c => c.node = .finish) = true := by decide
  obtain ⟨c, executed, final⟩ := (Option.any_eq_true _ _).mp ends
  obtain ⟨behaviour, keeps, reached, -⟩ := graph_runs executed
  rw [of_decide_eq_true final] at reached
  exact ⟨c.state, behaviour, keeps, reached⟩

end RetryLoop
end Nl2SqlAgent

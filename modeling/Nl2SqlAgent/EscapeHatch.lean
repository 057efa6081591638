import Nl2SqlAgent.RefinerSource

/-! When the semantic check lets a statement pass without asking. -/
namespace Nl2SqlAgent

open Lib

namespace AgentGraph

/-- What the LLM said of a statement, given as the check compares statements. -/
structure Judgement where
  sql : String
  rejected : Bool
  deriving DecidableEq, Repr

def judgement (env : Env) (s : AgentState) : Visit → Option Judgement
  | .semanticCheck (.ok reply) =>
    if s.sql.getD "" = "" ∨ s.question = "" ∨ SemanticCheck.escapes env s then none
    else some ⟨SemanticCheck.normalizeSql env (s.sql.getD ""), !(SemanticCheck.verdict env reply.content).1⟩
  | _ => none

def verdictMachine (env : Env) : Machine (Config × List Judgement) Visit :=
  (machine env).noted fun c visit _ log => (judgement env c.state visit).toList ++ log

def RejectedTwice (log : List Judgement) (sql : String) : Prop :=
  log.take 2 = [⟨sql, true⟩, ⟨sql, true⟩]

instance (log : List Judgement) (sql : String) : Decidable (RejectedTwice log sql) :=
  inferInstanceAs (Decidable (_ = _))

def lastRejected : List Judgement → String
  | ⟨sql, true⟩ :: _ => sql
  | _ => ""

def streak : List Judgement → Nat
  | ⟨sql, true⟩ :: log => (log.takeWhile (· = ⟨sql, true⟩)).length + 1
  | _ => 0

/-- The two keys of the state are about the verdicts. -/
structure Counted (s : AgentState) (log : List Judgement) : Prop where
  count : s.semRejectCount.getD 0 = streak log
  last : s.semLastRejectedSql.getD "" = lastRejected log

section

variable {env : Env} {s t : AgentState} {log : List Judgement} {c₀ c c' : Config} {visit : Visit}
    {visits : List Visit}
  {sql : String}

theorem streak_cons (log : List Judgement) (sql : String) :
    streak (⟨sql, true⟩ :: log) = if sql = lastRejected log then streak log + 1 else 1 := by
  rcases log with _ | ⟨⟨earlier, _ | _⟩, rest⟩
  · by_cases blank : sql = "" <;> simp [streak, lastRejected, blank]
  · by_cases blank : sql = "" <;> simp [streak, lastRejected, blank]
  · by_cases same : sql = earlier
    · simp [streak, lastRejected, same]
    · simp [streak, lastRejected, same, Ne.symm same]

theorem rejectedTwice_iff : RejectedTwice log sql ↔ sql = lastRejected log ∧ 2 ≤ streak log := by
  rcases log with _ | ⟨⟨first, _ | _⟩, rest⟩
  · simp [RejectedTwice, streak]
  · simp [RejectedTwice, streak]
  · rcases rest with _ | ⟨second, rest⟩
    · simp [RejectedTwice, streak]
    · by_cases same : second = ⟨first, true⟩
      · simp [RejectedTwice, streak, lastRejected, same, eq_comm]
      · simp only [RejectedTwice, streak, lastRejected, List.take_succ_cons, List.take_zero, List.cons.injEq,
          Judgement.mk.injEq, and_true, List.takeWhile_cons, same, decide_false]
        refine iff_of_false ?_ (by simp)
        rintro ⟨rfl, other⟩
        exact same other

theorem Counted.escapes_iff (counted : Counted s log) : SemanticCheck.escapes env s = true ↔
    RejectedTwice log (SemanticCheck.normalizeSql env (s.sql.getD "")) := by
  rw [SemanticCheck.escapes, counted.count, counted.last, rejectedTwice_iff, Bool.and_eq_true, beq_iff_eq,
    decide_eq_true_eq]

theorem counted_semantic (counted : Counted s log) (reply : Except String SemanticCheck.Reply) :
    Counted (SemanticCheck.node env reply s)
      ((judgement env s (.semanticCheck reply)).toList ++ log) := by
  unfold SemanticCheck.node
  split
  next absent =>
    have none : judgement env s (.semanticCheck reply) = none := by
      cases reply with
      | error e => rfl
      | ok r => exact if_pos (absent.imp_right .inl)
    rw [none]
    exact ⟨counted.count, counted.last⟩
  next present =>
    split
    next escapes =>
      have none : judgement env s (.semanticCheck reply) = none := by
        cases reply with
        | error e => rfl
        | ok r => exact if_pos (.inr (.inr escapes))
      rw [none]
      exact ⟨counted.count, counted.last⟩
    next asks =>
      cases reply with
      | error e => exact ⟨counted.count, counted.last⟩
      | ok r =>
        have given : judgement env s (.semanticCheck (.ok r)) = some ⟨SemanticCheck.normalizeSql env
            (s.sql.getD ""), !(SemanticCheck.verdict env r.content).1⟩ := by
          apply if_neg
          rw [← or_assoc]
          exact not_or.mpr ⟨present, asks⟩
        rw [given]
        cases passed : (SemanticCheck.verdict env r.content).1 with
        | true => exact ⟨by simp [SemanticCheck.judged, passed, streak], by
            simp [SemanticCheck.judged, passed, lastRejected]⟩
        | false =>
          refine ⟨?_, by simp [SemanticCheck.judged, passed, lastRejected]⟩
          simp [SemanticCheck.judged, passed, streak_cons, counted.count, counted.last]

theorem judgement_elsewhere (elsewhere : ∀ reply, visit ≠ .semanticCheck reply) :
    judgement env s visit = none := by
  cases visit with
  | semanticCheck reply => exact absurd rfl (elsewhere reply)
  | _ => rfl

theorem counted_step (counted : Counted c.state log) (stepped : (machine env).step c visit = some c') :
    Counted c'.state ((judgement env c.state visit).toList ++ log) := by
  cases step_stepped stepped with
  | upstream visit n t fromUpstream toUpstream frame =>
    have none : judgement env c.state visit = none := judgement_elsewhere fun reply same => by
      subst same
      have here := (Option.ite_none_right_eq_some.mp stepped).1
      simp [here] at fromUpstream
    obtain ⟨_, _, _, _, _, _, _, rfl⟩ := frame
    rw [none]
    exact ⟨counted.count, counted.last⟩
  | generator reply t here visited =>
    obtain ⟨_, _, _, _, _, rfl⟩ := visited.frame
    exact ⟨counted.count, counted.last⟩
  | guard t here visited =>
    obtain ⟨_, _, _, _, rfl⟩ := visited.frame
    exact ⟨counted.count, counted.last⟩
  | voter executions ballot performed t here visited =>
    obtain ⟨_, _, rfl, -⟩ := Voter.node_reported visited
    exact ⟨counted.count, counted.last⟩
  | semanticCheck reply t here visited =>
    have taken := (Option.ite_none_right_eq_some.mp stepped).2
    rw [← (Config.mk.inj (Option.some.inj taken)).2.1]
    exact counted_semantic counted reply
  | refiner expansion t here visited =>
    obtain ⟨_, _, _, _, _, _, rfl⟩ := visited.frame
    exact ⟨counted.count, counted.last⟩
  | postRefiner here => exact ⟨counted.count, counted.last⟩

theorem run_counted (start : Start c₀) (run : (verdictMachine env).exec (c₀, []) visits = some (c, log)) :
    Counted c.state log := by
  refine Machine.invariant (fun s => Counted s.1.state s.2) (fun s visit t counted stepped => ?_) ?_ run
  · obtain ⟨taken, noted⟩ := Machine.noted_step.mp stepped
    rw [noted]
    exact counted_step counted taken
  · cases start <;> exact ⟨rfl, rfl⟩

/-- Whatever the LLM would say, the visit comes to the same. -/
def Unasked (env : Env) (s : AgentState) : Prop :=
  ∀ reply reply', SemanticCheck.node env reply s = SemanticCheck.node env reply' s

theorem unasked_iff (there : s.sql.getD "" ≠ "" ∧ s.question ≠ "") :
    Unasked env s ↔ SemanticCheck.escapes env s = true := by
  have present : ¬ (s.sql.getD "" = "" ∨ s.question = "") := not_or.mpr there
  constructor
  · intro same
    by_contra asks
    have texts := congrArg AgentState.semanticFeedback (same (.error "") (.error "timeout"))
    simp only [SemanticCheck.node, present, asks, if_false] at texts
    exact absurd texts (by decide)
  · intro escapes reply reply'
    simp [SemanticCheck.node, present, escapes]

/-- At a visit with a statement and a question the check passes without asking exactly if the
last two verdicts of the run rejected the statement; and a statement passes only so, by the
verdict, or where the call fails. -/
theorem escape_hatch (start : Start c₀) (run : (verdictMachine env).exec (c₀, []) visits = some (c, log))
    (there : c.state.sql.getD "" ≠ "" ∧ c.state.question ≠ "") (reply : Except String SemanticCheck.Reply)
    (stepped : (machine env).step c (.semanticCheck reply) = some c') :
    let twice := RejectedTwice log (SemanticCheck.normalizeSql env (c.state.sql.getD ""))
    (Unasked env c.state ↔ twice) ∧ (twice → c'.state.semanticPass = some true) ∧
      (c'.state.semanticPass = some true → twice ∨ (∃ e, reply = .error e) ∨
        judgement env c.state (.semanticCheck reply) =
          some ⟨SemanticCheck.normalizeSql env (c.state.sql.getD ""), false⟩) := by
  intro twice
  have present : ¬ (c.state.sql.getD "" = "" ∨ c.state.question = "") := not_or.mpr there
  have escapes : SemanticCheck.escapes env c.state = true ↔ twice := (run_counted start run).escapes_iff
  have taken := (Option.ite_none_right_eq_some.mp stepped).2
  have state : c'.state = SemanticCheck.node env reply c.state := by rw [← Option.some.inj taken]
  refine ⟨(unasked_iff there).trans escapes, fun again => ?_, fun passed => ?_⟩
  · rw [state]
    simp [SemanticCheck.node, present, escapes.mpr again]
  · by_cases hatch : SemanticCheck.escapes env c.state = true
    · exact .inl (escapes.mp hatch)
    · cases reply with
      | error e => exact .inr (.inl ⟨e, rfl⟩)
      | ok r =>
        simp only [state, SemanticCheck.node, present, hatch, if_false] at passed
        have verdict := Option.some.inj ((SemanticCheck.judged_semanticPass env r c.state).symm.trans passed)
        refine .inr (.inr ?_)
        simp [judgement, there, hatch, verdict]

end

def shopVote : Visit := .voter [⟨"sqlite:///shop.db", "SELECT 1", .rows [[.num 1]] ["1"]⟩] none

def sameAgain : List Visit :=
  [.refiner (some ⟨"", "", ""⟩), .postRefiner, .generator fun _ => some ⟨"SELECT 1", .zero⟩, .guard, shopVote]

/-- Two refusals, and the third visit does not ask. -/
theorem escape_hatch_third :
    ∃ (c c' : Config) (log : List Judgement),
      (machine .plain).step c (.semanticCheck (.ok ⟨"NO", []⟩)) = some c' ∧
      log = [⟨"select 1", true⟩, ⟨"select 1", true⟩] ∧ Unasked .plain c.state ∧
      c'.state.semanticPass = some true := by
  let visits := refusedVisits ++ sameAgain ++ [.semanticCheck (.ok ⟨"NO", []⟩)] ++ sameAgain
  have ends : ((verdictMachine .plain).exec (fullStart shopInput, []) visits).any
      (fun s => s.2 = [⟨"select 1", true⟩, ⟨"select 1", true⟩] ∧ s.1.state.sql = some "SELECT 1" ∧
        s.1.state.question ≠ "" ∧
          (machine .plain).step s.1 (.semanticCheck (.ok ⟨"NO", []⟩)) ≠ none) = true := by
    decide +kernel
  obtain ⟨⟨c, log⟩, run, facts⟩ := (Option.any_eq_true _ _).mp ends
  obtain ⟨same, statement, asked, steps⟩ := of_decide_eq_true facts
  change c.state.sql = some "SELECT 1" at statement
  obtain ⟨c', stepped⟩ := Option.ne_none_iff_exists'.mp steps
  have there : c.state.sql.getD "" ≠ "" ∧ c.state.question ≠ "" := ⟨by rw [statement]; decide, asked⟩
  obtain ⟨unasked, passes, -⟩ := escape_hatch (.full shopInput) run there _ stepped
  have twice : RejectedTwice log (SemanticCheck.normalizeSql .plain (c.state.sql.getD "")) := by
    rw [show log = _ from same, statement]
    decide +kernel
  exact ⟨c, c', log, stepped, same, unasked.mpr twice, passes twice⟩

/-- The first call fails, and the statement passes unchecked though nothing rejected it. -/
theorem unchecked_pass :
    ∃ (c c' : Config) (log : List Judgement),
      (verdictMachine .plain).exec (fullStart shopInput, []) (firstDraft "SELECT 1" ++ [shopVote]) =
        some (c, log) ∧
      c.state.sql = some "SELECT 1" ∧ c.state.question = "How many orders?" ∧ log = [] ∧
      (machine .plain).step c (.semanticCheck (.error "timeout")) = some c' ∧
      judgement .plain c.state (.semanticCheck (.error "timeout")) = none ∧
      c'.state.semanticPass = some true := by
  have ends : ((verdictMachine .plain).exec (fullStart shopInput, []) (firstDraft "SELECT 1" ++ [shopVote])).any
      (fun s => s.1.state.sql = some "SELECT 1" ∧ s.1.state.question = "How many orders?" ∧ s.2 = [] ∧
        ((machine .plain).step s.1 (.semanticCheck (.error "timeout"))).any
          (fun c' => c'.state.semanticPass = some true)) = true := by
    decide +kernel
  obtain ⟨⟨c, log⟩, run, facts⟩ := (Option.any_eq_true _ _).mp ends
  obtain ⟨statement, asked, none, steps⟩ := of_decide_eq_true facts
  obtain ⟨c', stepped, passed⟩ := (Option.any_eq_true _ _).mp steps
  exact ⟨c, c', log, run, statement, asked, none, stepped, rfl, of_decide_eq_true passed⟩

end AgentGraph
end Nl2SqlAgent

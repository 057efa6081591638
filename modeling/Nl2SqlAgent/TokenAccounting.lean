import Nl2SqlAgent.Correction

/-! The `token_usage` of a run of the full graph, beside what the responses of its LLM
calls report. -/
namespace Nl2SqlAgent

open Lib

namespace TokenUsage

theorem add_assoc (a b c : TokenUsage) : (a.add b).add c = a.add (b.add c) := by
  simp only [add, Nat.add_assoc]

theorem add_zero (a : TokenUsage) : a.add .zero = a := rfl

theorem add_agree {a b c d : TokenUsage} (same : a.add b = c.add d) : a = c ↔ b = d := by
  cases a
  cases b
  cases c
  cases d
  simp only [add, mk.injEq] at same ⊢
  omega

def sum (usages : List TokenUsage) : TokenUsage := usages.foldr add .zero

end TokenUsage

namespace Generator

/-- The responses that the drawing loop receives. -/
def received (env : Env) (reply : Nat → Option Reply) : List Nat → List String → List Reply
  | [], _ => []
  | i :: rest, candidates =>
    match reply i with
    | none => received env reply rest candidates
    | some r =>
      let sql := env.extractSql r.raw
      if sql = "" then r :: received env reply rest candidates
      else
        let isDup := isDuplicate env candidates sql
        let kept := if isDup then candidates else candidates ++ [sql]
        if 1 ≤ kept.length ∧ i = 1 ∧ isDup = true then [r] else r :: received env reply rest kept

def responses (env : Env) (reply : Nat → Option Reply) (s : AgentState) : List Reply :=
  if s.retryCount.getD 0 > 0 then received env reply temperatures [] else (reply 0).toList

theorem drawCandidates_usage (draws : drawCandidates env reply indices drawn = some drawn') :
    drawn'.usage = drawn.usage.add (.sum ((received env reply indices drawn.candidates).map Reply.usage)) := by
  induction indices generalizing drawn with
  | nil =>
    obtain rfl := Option.some.inj draws
    rfl
  | cons i rest ih =>
    simp only [drawCandidates, received] at draws ⊢
    cases given : reply i with
    | none =>
      simp only [given] at draws ⊢
      split at draws
      · cases draws
      · exact ih draws
    | some r =>
      simp only [given] at draws ⊢
      split at draws
      next empty =>
        rw [if_pos empty, ih draws]
        exact TokenUsage.add_assoc _ _ _
      next found =>
        rw [if_neg found]
        generalize (if isDuplicate env drawn.candidates (env.extractSql r.raw) then drawn.candidates
          else drawn.candidates ++ [env.extractSql r.raw]) = kept at draws ⊢
        split at draws
        next stops =>
          obtain rfl := Option.some.inj draws
          rw [if_pos stops]
          rfl
        next continues =>
          rw [if_neg continues, ih draws]
          exact TokenUsage.add_assoc _ _ _

/-- Every response of the generator is accounted for, also those that give no candidate. -/
theorem node_usage (visit : node env reply s = some t) :
    t.tokenUsage = some ((s.tokenUsage.getD .zero).add
      (.sum ((responses env reply s).map Reply.usage))) := by
  unfold node at visit
  split at visit
  next retry =>
    obtain ⟨drawn, draws, rfl⟩ := Option.map_eq_some_iff.mp visit
    have booked := drawCandidates_usage draws
    rw [responses, if_pos retry, ← booked]
    split <;> rfl
  next first =>
    obtain ⟨r, given, rfl⟩ := Option.map_eq_some_iff.mp visit
    rw [responses, if_neg first, given]
    rfl

end Generator
namespace Voter

/-- `_llm_vote` only asks where there is a choice. -/
def asked (candidates : List String) : Bool := 2 ≤ candidates.length

/-- Whether the visit calls the LLM: without a database, when every execution failed, and
on a tie. -/
def asks (env : Env) (executions : List Execution) (s : AgentState) : Bool :=
  if Py.truthy s.databaseUrl then
    match executions.mapM (entry env) with
    | none => false
    | some results =>
      match (inOrder (candidates s) results).filter (·.outcome.success) with
      | [] => asked (candidates s)
      | [_] => false
      | successful =>
        match mostCommon (successful.map Entry.hash) with
        | none => false
        | some (_, count) => count < 2
  else asked (candidates s)

end Voter

namespace SemanticCheck

/-- The visit comes to its LLM call. -/
def asks (env : Env) (s : AgentState) : Bool :=
  s.sql.getD "" ≠ "" && s.question ≠ "" && !escapes env s

/-- The tokens a usage dictionary reports. -/
def tokens (usage : List (String × Nat)) : TokenUsage :=
  ⟨(usage.lookup "prompt_tokens").getD 0, (usage.lookup "completion_tokens").getD 0,
    (usage.lookup "total_tokens").getD 0⟩

/-- What the node reads of the dictionary. -/
def misread (usage : List (String × Nat)) : TokenUsage := addUsage .zero usage

theorem addUsage_eq (usage : TokenUsage) (reported : List (String × Nat)) :
    addUsage usage reported = usage.add (misread reported) := by
  simp [addUsage, misread, TokenUsage.add, TokenUsage.zero]

end SemanticCheck

namespace AgentGraph

/-- A visit, with the usage that the response of the voter's call reports; a call that
raises has none. -/
abbrev Call := Visit × Option TokenUsage

/-- What the responses of a run report, noted beside it: all of them, those that the
voter and the semantic check received, and what the semantic check reads of its own. -/
structure Ledger where
  reported : TokenUsage := .zero
  unbooked : TokenUsage := .zero
  misread : TokenUsage := .zero
  deriving DecidableEq, Repr

def Ledger.add (a b : Ledger) : Ledger :=
  ⟨a.reported.add b.reported, a.unbooked.add b.unbooked, a.misread.add b.misread⟩

/-- What the responses of one visit report. -/
def charge (env : Env) (c : Config) : Call → Ledger
  | (.router _ usage, _) => { reported := usage }
  | (.decomposer _ usage, _) => { reported := usage }
  | (.generator reply, _) =>
    { reported := .sum ((Generator.responses env reply c.state).map Reply.usage) }
  | (.voter executions _, vote) =>
    let usage := if Voter.asks env executions c.state then vote.getD .zero else .zero
    { reported := usage, unbooked := usage }
  | (.semanticCheck (.ok reply), _) =>
    if SemanticCheck.asks env c.state then
      ⟨SemanticCheck.tokens reply.usage, SemanticCheck.tokens reply.usage,
        SemanticCheck.misread reply.usage⟩
    else {}
  | _ => {}

def noteUsage (env : Env) (c : Config) (call : Call) (_ : Config) (l : Ledger) : Ledger :=
  l.add (charge env c call)

/-- The graph with the usage its responses report. -/
def meteredMachine (env : Env) : Machine (Config × Ledger) Call :=
  ((machine env).relabel Prod.fst).noted (noteUsage env)

/-- The accumulator has every report but those of the voter and the semantic check, of
which it has what the semantic check reads. -/
def Balanced (s : AgentState) (l : Ledger) : Prop :=
  (s.tokenUsage.getD .zero).add l.unbooked = l.reported.add l.misread

theorem balanced_iff : Balanced s l ↔
    (s.tokenUsage.getD .zero).prompt + l.unbooked.prompt = l.reported.prompt + l.misread.prompt ∧
    (s.tokenUsage.getD .zero).completion + l.unbooked.completion =
      l.reported.completion + l.misread.completion ∧
    (s.tokenUsage.getD .zero).total + l.unbooked.total = l.reported.total + l.misread.total := by
  simp only [Balanced, TokenUsage.add, TokenUsage.mk.injEq]

theorem balanced_booked {usage : TokenUsage} (balanced : Balanced s l)
    (written : t.tokenUsage = some ((s.tokenUsage.getD .zero).add usage)) :
    Balanced t (l.add { reported := usage }) := by
  obtain ⟨prompt, completion, total⟩ := balanced_iff.mp balanced
  simp only [balanced_iff, written, Option.getD_some, Ledger.add, TokenUsage.add_zero]
  simp only [TokenUsage.add]
  omega

theorem balanced_owed {owed booked : TokenUsage} (balanced : Balanced s l)
    (written : t.tokenUsage.getD .zero = (s.tokenUsage.getD .zero).add booked) :
    Balanced t (l.add ⟨owed, owed, booked⟩) := by
  obtain ⟨prompt, completion, total⟩ := balanced_iff.mp balanced
  simp only [balanced_iff, written, Ledger.add, TokenUsage.add]
  omega

theorem balanced_quiet (balanced : Balanced s l) (kept : t.tokenUsage = s.tokenUsage) :
    Balanced t (l.add {}) := by
  simpa only [Balanced, Ledger.add, kept, TokenUsage.add_zero] using balanced

theorem semanticCheck_usage (env : Env) (reply : SemanticCheck.Reply) (s : AgentState) :
    (SemanticCheck.node env (.ok reply) s).tokenUsage =
      if SemanticCheck.asks env s then
        some ((s.tokenUsage.getD .zero).add (SemanticCheck.misread reply.usage))
      else s.tokenUsage := by
  unfold SemanticCheck.node
  split
  next nothing =>
    have quiet : SemanticCheck.asks env s = false := by
      rcases nothing with empty | empty <;> simp [SemanticCheck.asks, empty]
    rw [quiet]
    rfl
  next something =>
    rw [not_or] at something
    split
    next escapes =>
      have quiet : SemanticCheck.asks env s = false := by simp [SemanticCheck.asks, escapes]
      rw [quiet]
      rfl
    next stays =>
      have asks : SemanticCheck.asks env s = true := by
        simp [SemanticCheck.asks, something, Bool.eq_false_iff.mpr stays]
      rw [if_pos asks, ← SemanticCheck.addUsage_eq]
      rfl

theorem semanticCheck_error (env : Env) (error : String) (s : AgentState) :
    (SemanticCheck.node env (.error error) s).tokenUsage = s.tokenUsage := by
  unfold SemanticCheck.node
  split
  · rfl
  · split <;> rfl

theorem balanced_step (balanced : Balanced c.state l)
    (stepped : (machine env).step c call.1 = some c') :
    Balanced c'.state (l.add (charge env c call)) := by
  obtain ⟨visit, vote⟩ := call
  cases visit with
  | router complexity usage =>
    obtain ⟨-, taken⟩ := Option.ite_none_right_eq_some.mp stepped
    obtain rfl := Option.some.inj taken
    exact balanced_booked balanced rfl
  | schemaRetriever schemaText notesText sampleRowsText =>
    obtain ⟨-, taken⟩ := Option.ite_none_right_eq_some.mp stepped
    obtain ⟨t, visited, rfl⟩ := Option.map_eq_some_iff.mp taken
    obtain ⟨-, same⟩ := Option.ite_none_left_eq_some.mp visited
    obtain rfl := Option.some.inj same
    exact balanced_quiet balanced rfl
  | decomposer steps usage =>
    obtain ⟨-, taken⟩ := Option.ite_none_right_eq_some.mp stepped
    obtain rfl := Option.some.inj taken
    exact balanced_booked balanced rfl
  | fewshotSelector retrieved =>
    obtain ⟨-, taken⟩ := Option.ite_none_right_eq_some.mp stepped
    obtain rfl := Option.some.inj taken
    exact balanced_quiet balanced rfl
  | generator reply =>
    obtain ⟨-, taken⟩ := Option.ite_none_right_eq_some.mp stepped
    obtain ⟨t, visited, rfl⟩ := Option.map_eq_some_iff.mp taken
    exact balanced_booked balanced (Generator.node_usage visited)
  | guard =>
    obtain ⟨-, taken⟩ := Option.ite_none_right_eq_some.mp stepped
    obtain ⟨t, visited, rfl⟩ := Option.map_eq_some_iff.mp taken
    obtain ⟨_, _, _, _, rfl⟩ := (Guard.node_visited visited).frame
    exact balanced_quiet balanced rfl
  | voter executions ballot =>
    obtain ⟨-, taken⟩ := Option.ite_none_right_eq_some.mp stepped
    obtain ⟨⟨t, performed⟩, visited, rfl⟩ := Option.map_eq_some_iff.mp taken
    obtain ⟨_, _, rfl, -⟩ := Voter.node_reported visited
    -- Nothing is booked, whatever the call reports.
    exact balanced_owed balanced rfl
  | semanticCheck reply =>
    obtain ⟨-, taken⟩ := Option.ite_none_right_eq_some.mp stepped
    obtain rfl := Option.some.inj taken
    cases reply with
    | error e => exact balanced_quiet balanced (semanticCheck_error env e c.state)
    | ok r =>
      have written := semanticCheck_usage env r c.state
      simp only [charge]
      split at written
      next asks =>
        rw [if_pos asks]
        exact balanced_owed balanced (by rw [written]; rfl)
      next quiet =>
        rw [if_neg quiet]
        exact balanced_quiet balanced written
  | refiner expansion =>
    obtain ⟨-, taken⟩ := Option.ite_none_right_eq_some.mp stepped
    obtain ⟨t, visited, rfl⟩ := Option.map_eq_some_iff.mp taken
    obtain ⟨_, _, _, _, _, _, rfl⟩ := (Refiner.node_visited env expansion visited).frame
    exact balanced_quiet balanced rfl
  | postRefiner =>
    obtain ⟨-, taken⟩ := Option.ite_none_right_eq_some.mp stepped
    obtain rfl := Option.some.inj taken
    exact balanced_quiet balanced rfl

theorem run_balanced (run : (meteredMachine env).exec (fullStart i, {}) calls = some (c, l)) :
    Balanced c.state l := by
  refine Machine.invariant (fun s => Balanced s.1.state s.2) (fun s call t balanced stepped => ?_)
    (show Balanced (fullStart i).state {} from rfl) run
  obtain ⟨taken, noted⟩ := Machine.noted_step.mp stepped
  rw [noted]
  exact balanced_step balanced taken

/-- In every run of the full graph, wherever it has come to, `token_usage` is the sum of
what the responses report exactly when what the semantic check reads under the keys of the
state makes up for what the voter's calls and its own report. -/
theorem token_usage_iff
    (run : (meteredMachine env).exec (fullStart i, {}) calls = some (c, l)) :
    (machine env).exec (fullStart i) (calls.map Prod.fst) = some c ∧
      (c.state.tokenUsage.getD .zero = l.reported ↔ l.unbooked = l.misread) := by
  have visits := Machine.noted_run run
  rw [Machine.relabel_exec] at visits
  exact ⟨visits, TokenUsage.add_agree (run_balanced run)⟩

def tokens (n : Nat) : TokenUsage := ⟨n, n, 2 * n⟩

/-- The router and the generator report their tokens, and the statement is executed. -/
def draftCalls : List Call :=
  [(.router "simple" (tokens 5), none), (.schemaRetriever "CREATE TABLE orders(id)" "" "", none),
    (.fewshotSelector "", none), (.generator fun _ => some ⟨"SELECT 1", tokens 20⟩, none), (.guard, none),
    (.voter [⟨"sqlite:///shop.db", "SELECT 1", .rows [[.num 1]] ["1"]⟩] none, none)]

/-- The check accepts, and its response reports no usage. -/
def silentCheck : Call := (.semanticCheck (.ok ⟨"YES", []⟩), none)

theorem token_usage_drafted :
    ∃ (c : Config) (l : Ledger),
      (machine .plain).exec (fullStart shopInput) ((draftCalls ++ [silentCheck]).map Prod.fst) =
        some c ∧ c.node = .finish ∧
      c.state.tokenUsage.getD .zero = l.reported ∧ l.reported = tokens 25 := by
  have ends : ((meteredMachine .plain).exec (fullStart shopInput, {})
      (draftCalls ++ [silentCheck])).any (fun s => s.1.node = .finish ∧
        s.2.unbooked = s.2.misread ∧ s.2.reported = tokens 25) = true := by decide
  obtain ⟨⟨c, l⟩, run, facts⟩ := (Option.any_eq_true _ _).mp ends
  obtain ⟨ended, agree, reported⟩ := of_decide_eq_true facts
  obtain ⟨visits, books⟩ := token_usage_iff run
  exact ⟨c, l, visits, ended, books.mpr agree, reported⟩

/-- The semantic check accepts, and the tokens of its call are missing at the end. -/
theorem token_usage_short :
    ∃ c l, (meteredMachine .plain).exec (fullStart shopInput, {}) (draftCalls ++
        [(.semanticCheck (.ok ⟨"YES", [("prompt_tokens", 7), ("completion_tokens", 1),
          ("total_tokens", 8)]⟩), none)]) = some (c, l) ∧ c.node = .finish ∧
      c.state.tokenUsage = some ⟨25, 25, 50⟩ ∧ l.reported = ⟨32, 26, 58⟩ := by
  have ends : ((meteredMachine .plain).exec (fullStart shopInput, {}) (draftCalls ++
      [(.semanticCheck (.ok ⟨"YES", [("prompt_tokens", 7), ("completion_tokens", 1),
        ("total_tokens", 8)]⟩), none)])).any (fun s => s.1.node = .finish ∧
      s.1.state.tokenUsage = some ⟨25, 25, 50⟩ ∧ s.2.reported = ⟨32, 26, 58⟩) = true := by decide
  obtain ⟨⟨c, l⟩, run, facts⟩ := (Option.any_eq_true _ _).mp ends
  exact ⟨c, l, run, of_decide_eq_true facts⟩

end AgentGraph
end Nl2SqlAgent

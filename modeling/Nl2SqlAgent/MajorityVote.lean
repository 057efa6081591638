import Nl2SqlAgent.Voter

/-! `voter_node` when executions and the LLM are deterministic: the order in which the
executions complete does not matter. -/
namespace Nl2SqlAgent

open Lib

namespace Voter

/-- What `_llm_vote` puts into its prompt; the results, where there are some, by their
numbers of rows and first columns. -/
structure Prompt where
  question : String
  schemaText : List Char
  candidates : List String
  shown : List (Nat × List String)
  deriving DecidableEq, Repr

def prompt (s : AgentState) (sqls : List String) (outcomes : List RunOutcome) : Prompt :=
  ⟨s.question, (s.schemaText.getD "").toList.take 3000, sqls,
    outcomes.map fun o => (o.result.rowCount, (o.result.columns.getD []).take 10)⟩

/-- The prompt of a visit that asks. -/
def promptOf (env : Env) (executions : List Execution) (s : AgentState) : Prompt :=
  match Py.truthy s.databaseUrl, executions.mapM (entry env) with
  | true, some results =>
    match (inOrder (candidates s) results).filter (·.outcome.success) with
    | [] => prompt s (candidates s) []
    | successful => prompt s (successful.map Entry.sql) (successful.map Entry.outcome)
  | _, _ => prompt s (candidates s) []

abbrev Llm := Prompt → Ballot

/-- A visit at which the LLM answers by its prompt. -/
def visit (env : Env) (llm : Llm) (executions : List Execution) (s : AgentState) :
    Option (AgentState × List Execution) :=
  node env executions (llm (promptOf env executions s)) s

/-- The executions, in the order in which they complete. -/
def completed (run : String → RunOutcome) (s : AgentState) (order : List String) : List Execution :=
  order.map fun sql => ⟨s.databaseUrl.getD "", sql, run sql⟩

/-- The successful candidates, in the order of the candidates. -/
def successes (run : String → RunOutcome) (s : AgentState) : List String :=
  (candidates s).filter fun sql => (run sql).success

/-- How many successful candidates have the result hash of this one. -/
def shares (env : Env) (run : String → RunOutcome) (s : AgentState) (sql : String) : Nat :=
  (successes run s).countP fun v => hashOf env (run v) = hashOf env (run sql)

/-- Behind candidates of smaller classes only, and before none of a larger class. -/
structure Majority (env : Env) (run : String → RunOutcome) (s : AgentState) (sql : String) : Prop where
  split : ∃ before after, successes run s = before ++ sql :: after ∧
    (∀ v ∈ before, hashOf env (run v) ≠ hashOf env (run sql) ∧ shares env run s v < shares env run s sql) ∧
    ∀ v ∈ after, shares env run s v ≤ shares env run s sql

/-- The candidate that the LLM names, or the first. -/
def chosen (ballot : Ballot) (sqls : List String) : Option String := (ballot.bind (sqls[·]?)).or sqls.head?

/-- What is reported where two candidates succeed at least. -/
structure Elected (env : Env) (llm : Llm) (run : String → RunOutcome) (s : AgentState) (sql : String)
    (result : ExecResult) : Prop where
  several : 2 ≤ (successes run s).length → result = (run sql).marked sql
  majority : (∃ v ∈ successes run s, 2 ≤ shares env run s v) → Majority env run s sql
  tie : (∀ v ∈ successes run s, shares env run s v < 2) → 2 ≤ (successes run s).length →
    some sql = chosen (llm (prompt s (successes run s) ((successes run s).map run))) (successes run s)

section

variable {env : Env} {llm : Llm} {run : String → RunOutcome} {s : AgentState} {order sqls : List String}
  {ballot : Ballot} {sql : String} {result : ExecResult}

def digest (env : Env) (run : String → RunOutcome) (sql : String) : Option String :=
  (hashOf env (run sql)).getD none

def mark (env : Env) (run : String → RunOutcome) (sql : String) : Entry := ⟨sql, run sql, digest env run sql⟩

theorem entries_completed (hashed : ∀ sql ∈ order, (hashOf env (run sql)).isSome = true) :
    (completed run s order).mapM (entry env) = some (order.map (mark env run)) := by
  induction order with
  | nil => rfl
  | cons sql rest ih =>
    obtain ⟨first, later⟩ := List.forall_mem_cons.mp hashed
    obtain ⟨hash, there⟩ := Option.isSome_iff_exists.mp first
    have here : entry env ⟨s.databaseUrl.getD "", sql, run sql⟩ = some (mark env run sql) := by
      simp [entry, mark, digest, there]
    have tail := ih later
    simp only [completed] at tail
    simp [completed, List.mapM_cons, here, tail]

theorem idxOf_lt (distinct : sqls.Nodup) : sqls.Pairwise fun a b => sqls.idxOf a < sqls.idxOf b := by
  apply List.pairwise_iff_getElem.mpr
  intro i j iBound jBound less
  rwa [distinct.idxOf_getElem, distinct.idxOf_getElem]

theorem inOrder_completed (distinct : sqls.Nodup) (perm : order.Perm sqls) :
    inOrder sqls (order.map (mark env run)) = sqls.map (mark env run) := by
  let le (a b : Entry) : Prop := sqls.idxOf a.sql ≤ sqls.idxOf b.sql
  have : IsTrans Entry le := ⟨fun _ _ _ => Nat.le_trans⟩
  have : Std.Total le := ⟨fun _ _ => Nat.le_total _ _⟩
  have sorted : (inOrder sqls (order.map (mark env run))).Pairwise le := List.pairwise_insertionSort le _
  have sorted' : (sqls.map (mark env run)).Pairwise le :=
    List.pairwise_map.mpr ((idxOf_lt distinct).imp fun less => Nat.le_of_lt less)
  have same : (inOrder sqls (order.map (mark env run))).Perm (sqls.map (mark env run)) :=
    (List.perm_insertionSort le _).trans (perm.map _)
  refine same.eq_of_pairwise ?_ sorted sorted'
  intro a b aMember bMember below above
  obtain ⟨sql, inside, rfl⟩ := List.mem_map.mp (same.mem_iff.mp aMember)
  obtain ⟨sql', inside', rfl⟩ := List.mem_map.mp bMember
  exact congrArg _ ((List.idxOf_inj inside).mp (Nat.le_antisymm below above))

/-- One turn of the search for the largest count. -/
def larger {β : Type} (count : β → Nat) (best : Option (β × Nat)) (h : β) : Option (β × Nat) :=
  match best with
  | none => some (h, count h)
  | some (b, n) => if n < count h then some (h, count h) else some (b, n)

theorem foldl_larger {β : Type} (count : β → Nat) (hs : List β) (some_ : hs ≠ []) :
    ∃ before h after, hs.foldl (larger count) none = some (h, count h) ∧ hs = before ++ h :: after ∧
      (∀ x ∈ before, count x < count h) ∧ ∀ x ∈ after, count x ≤ count h := by
  induction hs using List.reverseRecOn with
  | nil => contradiction
  | append_singleton hs x ih =>
    rw [List.foldl_append, List.foldl_cons, List.foldl_nil]
    by_cases empty : hs = []
    · subst empty
      exact ⟨[], x, [], rfl, rfl, nofun, nofun⟩
    · obtain ⟨before, h, after, best, split, less, most⟩ := ih empty
      rw [best, larger]
      by_cases more : count h < count x
      · refine ⟨hs, x, [], if_pos more, rfl, fun y member => ?_, nofun⟩
        have below : count y ≤ count h := by
          rw [split] at member
          rcases List.mem_append.mp member with early | late
          · exact Nat.le_of_lt (less y early)
          · rcases List.mem_cons.mp late with rfl | late
            · exact Nat.le_refl _
            · exact most y late
        exact Nat.lt_of_le_of_lt below more
      · refine ⟨before, h, after ++ [x], if_neg more, by rw [split]; simp, less, fun y member => ?_⟩
        rcases List.mem_append.mp member with early | last
        · exact most y early
        · rw [List.mem_singleton.mp last]
          exact Nat.le_of_not_lt more

theorem mostCommon_eq (hashes : List (Option String)) :
    mostCommon hashes = hashes.foldl (larger hashes.count) none := by
  refine congrArg (hashes.foldl · none) (funext₂ fun best h => ?_)
  cases best <;> rfl

theorem digest_eq_iff (hashed : ∀ sql ∈ candidates s, (hashOf env (run sql)).isSome = true) {v w : String}
    (first : v ∈ successes run s) (second : w ∈ successes run s) :
    digest env run v = digest env run w ↔ hashOf env (run v) = hashOf env (run w) := by
  obtain ⟨h, there⟩ := Option.isSome_iff_exists.mp (hashed v (List.mem_filter.mp first).1)
  obtain ⟨h', there'⟩ := Option.isSome_iff_exists.mp (hashed w (List.mem_filter.mp second).1)
  simp [digest, there, there']

theorem count_digest (hashed : ∀ sql ∈ candidates s, (hashOf env (run sql)).isSome = true)
    (member : sql ∈ successes run s) :
    ((successes run s).map (digest env run)).count (digest env run sql) = shares env run s sql := by
  rw [List.count, List.countP_map, shares]
  apply List.countP_congr
  intro v inside
  rw [Function.comp_apply, beq_iff_eq, decide_eq_true_eq]
  exact digest_eq_iff hashed inside member

theorem hashes_mark (sqls : List String) :
    (sqls.map (mark env run)).map Entry.hash = sqls.map (digest env run) := by
  simp [mark, Function.comp_def]

theorem llmVote_chosen (several : 2 ≤ sqls.length) : llmVote ballot sqls = chosen ballot sqls := by
  match sqls with
  | first :: second :: rest =>
    simp only [llmVote, chosen]
    cases ballot.bind ((first :: second :: rest)[·]?) <;> rfl

theorem tie_elects (env : Env) (run : String → RunOutcome) (ballot : Option Nat)
    (several : 2 ≤ sqls.length) : ∃ sql, some sql = chosen ballot sqls ∧
    (match (sqls.map (mark env run)).find?
        (fun r => some r.sql == llmVote ballot ((sqls.map (mark env run)).map Entry.sql)) with
      | some r => some r
      | none => (sqls.map (mark env run)).head?) = some (mark env run sql) := by
  have names : (sqls.map (mark env run)).map Entry.sql = sqls := by simp [mark, Function.comp_def]
  obtain ⟨sql, named⟩ : ∃ sql, chosen ballot sqls = some sql := by
    apply Option.isSome_iff_exists.mp
    match sqls with
    | first :: second :: rest => simp [chosen]
  have member : sql ∈ sqls := llmVote_mem ((llmVote_chosen several).trans named)
  have found : (sqls.map (mark env run)).find? (fun r => some r.sql == some sql) = some (mark env run sql) := by
    rw [List.find?_map]
    cases there : sqls.find? ((fun r => some r.sql == some sql) ∘ mark env run) with
    | none =>
      have missing := List.find?_eq_none.mp there sql member
      exact absurd (beq_self_eq_true (some sql)) missing
    | some v =>
      have same := List.find?_some there
      simp only [Function.comp_apply, mark, beq_iff_eq, Option.some.injEq] at same
      rw [same]
      rfl
  exact ⟨sql, named.symm, by rw [names, llmVote_chosen several, named, found]⟩

/-- The vote of two at least: of the largest class the first, or what the LLM names. -/
theorem vote_elects (ballot : Option Nat)
    (hashed : ∀ sql ∈ candidates s, (hashOf env (run sql)).isSome = true)
    (several : 2 ≤ (successes run s).length) :
    ∃ sql, vote ballot ((successes run s).map (mark env run)) = some (mark env run sql) ∧
      ((∃ v ∈ successes run s, 2 ≤ shares env run s v) → Majority env run s sql) ∧
      ((∀ v ∈ successes run s, shares env run s v < 2) → some sql = chosen ballot (successes run s)) := by
  have some_ : successes run s ≠ [] := by
    intro none
    rw [none] at several
    contradiction
  obtain ⟨before, h, after, best, split, less, most⟩ :=
    foldl_larger ((successes run s).map (digest env run)).count
      ((successes run s).map (digest env run)) (mt List.map_eq_nil_iff.mp some_)
  obtain ⟨front, back, parts, rfl, backs⟩ := List.map_eq_append_iff.mp split
  obtain ⟨w, rest, rfl, rfl, rfl⟩ := List.map_eq_cons_iff.mp backs
  have inside : ∀ v ∈ front ++ w :: rest, v ∈ successes run s := fun v member => parts ▸ member
  have winner := count_digest hashed (inside w (by simp))
  simp only [vote, hashes_mark, mostCommon_eq, best, winner]
  have fewer : ∀ v ∈ front, shares env run s v < shares env run s w := by
    intro v member
    have counted := less _ (List.mem_map_of_mem member)
    rwa [winner, count_digest hashed (inside v (by simp [member]))] at counted
  have atMost : ∀ v ∈ rest, shares env run s v ≤ shares env run s w := by
    intro v member
    have counted := most _ (List.mem_map_of_mem member)
    rwa [winner, count_digest hashed (inside v (by simp [member]))] at counted
  by_cases majority : 2 ≤ shares env run s w
  · have apart : ∀ v ∈ front, digest env run v ≠ digest env run w := by
      intro v member same
      have counted := less _ (List.mem_map_of_mem member)
      rw [same] at counted
      exact Nat.lt_irrefl _ counted
    refine ⟨w, ?_, fun _ => ⟨front, rest, parts, fun v member => ⟨fun same => ?_, fewer v member⟩, atMost⟩,
      fun none => absurd (none w (inside w (by simp))) (Nat.not_lt.mpr majority)⟩
    · rw [if_pos majority, parts, List.map_append, List.find?_append, List.map_cons,
        List.find?_cons_of_pos (by simp [mark])]
      have noFront : (front.map (mark env run)).find? (fun r => r.hash == digest env run w) = none := by
        simpa [mark] using apart
      rw [noFront, Option.none_or]
    · exact apart v member ((digest_eq_iff hashed (inside v (by simp [member])) (inside w (by simp))).mpr same)
  · rw [if_neg majority]
    obtain ⟨sql, elected, voted⟩ := tie_elects env run ballot several
    refine ⟨sql, voted, ?_, fun _ => elected⟩
    rintro ⟨v, member, enough⟩
    refine absurd (Nat.le_trans enough ?_) majority
    rcases List.mem_append.mp (parts ▸ member) with early | late
    · exact Nat.le_of_lt (fewer v early)
    · rcases List.mem_cons.mp late with rfl | late
      · exact Nat.le_refl _
      · exact atMost v late

theorem successful_mark : ((candidates s).map (mark env run)).filter (·.outcome.success) =
    (successes run s).map (mark env run) := by
  rw [List.filter_map]
  rfl

/-- The prompt, whatever the order of completion. -/
def promptFor (run : String → RunOutcome) (s : AgentState) : Prompt :=
  if Py.truthy s.databaseUrl = true ∧ successes run s ≠ [] then
    prompt s (successes run s) ((successes run s).map run)
  else prompt s (candidates s) []

theorem promptOf_completed (distinct : (candidates s).Nodup)
    (hashed : ∀ sql ∈ candidates s, (hashOf env (run sql)).isSome = true) (perm : order.Perm (candidates s)) :
    promptOf env (completed run s order) s = promptFor run s := by
  rw [promptOf, entries_completed fun sql member => hashed sql (perm.mem_iff.mp member), promptFor]
  cases online : Py.truthy s.databaseUrl with
  | false => rfl
  | true =>
    simp only [inOrder_completed distinct perm, successful_mark]
    cases successes run s with
    | nil => rfl
    | cons first rest => simp [mark, Function.comp_def]

theorem decideResult_elects (llm : Llm)
    (hashed : ∀ sql ∈ candidates s, (hashOf env (run sql)).isSome = true)
    (online : Py.truthy s.databaseUrl = true) :
    ∃ sql result, decideResult (llm (promptFor run s)) s ((candidates s).map (mark env run)) =
      some (sql, result) ∧
      Elected env llm run s sql result := by
  by_cases several : 2 ≤ (successes run s).length
  · obtain ⟨sql, voted, majority, tie⟩ := vote_elects (llm (promptFor run s)) hashed several
    have there : successes run s ≠ [] := by
      intro none
      rw [none] at several
      contradiction
    refine ⟨sql, (run sql).marked sql, ?_, fun _ => rfl, majority, fun few _ => ?_⟩
    · rw [decideResult, successful_mark]
      rcases shape : successes run s with _ | ⟨first, _ | ⟨second, rest⟩⟩
      · simp [shape] at several
      · simp [shape] at several
      · rw [shape] at voted
        simp only [List.map_cons] at voted ⊢
        rw [voted]
        rfl
    · rw [tie few, promptFor, if_pos ⟨online, there⟩]
  · have few (v : String) : shares env run s v ≤ (successes run s).length := List.countP_le_length
    obtain ⟨sql, result, decided⟩ : ∃ sql result, decideResult (llm (promptFor run s)) s
        ((candidates s).map (mark env run)) = some (sql, result) := by
      rw [decideResult, successful_mark]
      rcases shape : successes run s with _ | ⟨only, _ | ⟨second, rest⟩⟩
      · exact ⟨_, _, rfl⟩
      · exact ⟨_, _, rfl⟩
      · simp [shape] at several
    refine ⟨sql, result, decided, fun enough => absurd enough several, ?_,
      fun _ enough => absurd enough several⟩
    rintro ⟨v, -, enough⟩
    exact absurd (Nat.le_trans enough (few v)) several

/-- In whatever order the executions of distinct candidates complete, the visit returns the
same statement with the same result: of the largest class of two at least the first, else
what the LLM names or the first. -/
theorem majority_vote (env : Env) (llm : Llm) (run : String → RunOutcome) (s : AgentState)
    (distinct : (candidates s).Nodup)
    (hashed : ∀ sql ∈ candidates s, (hashOf env (run sql)).isSome = true) :
    ∃ sql result,
      (∀ order, order.Perm (candidates s) → ∃ t performed,
        visit env llm (completed run s order) s = some (t, performed) ∧
          t.sql = some sql ∧ t.execResult = some result) ∧
      (Py.truthy s.databaseUrl = true → Elected env llm run s sql result) := by
  cases online : Py.truthy s.databaseUrl with
  | false =>
    refine ⟨orElse (llmVote (llm (promptFor run s)) (candidates s)) (s.sql.getD ""), votedRecord "llm_nodb",
      fun order perm => ?_, nofun⟩
    rw [visit, promptOf_completed distinct hashed perm, node]
    split
    next url there =>
      have empty : url = "" := by simpa [there, Py.truthy] using online
      exact ⟨_, _, if_pos empty, rfl, rfl⟩
    next => exact ⟨_, _, rfl, rfl, rfl⟩
  | true =>
    obtain ⟨sql, result, decided, elected⟩ := decideResult_elects llm hashed online
    refine ⟨sql, result, fun order perm => ?_, fun _ => elected⟩
    rw [visit, promptOf_completed distinct hashed perm, node]
    split
    next url there =>
      have nonempty : url ≠ "" := by
        rintro rfl
        simp [there] at online
      have complete : Completes (candidates s) url (completed run s order) := by
        refine ⟨by simpa [completed, Function.comp_def] using perm, fun e member => ?_⟩
        obtain ⟨sql, -, rfl⟩ := List.mem_map.mp member
        simp [there]
      rw [if_neg nonempty, if_pos complete,
        entries_completed fun sql member => hashed sql (perm.mem_iff.mp member)]
      simp only [Option.bind_eq_bind, Option.bind_some, inOrder_completed distinct perm, decided]
      exact ⟨_, _, rfl, rfl, rfl⟩
    next missing => simp [missing] at online

end

/-- Two candidates of three have the same rows. -/
def sums : AgentState :=
  { question := "How many orders?", databaseUrl := some "sqlite:///shop.db",
    candidateSqls := some ["SELECT 1", "SELECT 2", "SELECT 1.0"] }

theorem majority_vote_sums :
    let env : Env := { Env.plain with
      normalizeRows := fun rows _ => some (if rows = [[.num 1]] then "[(1.0,)]" else "[(2.0,)]") }
    let run : String → RunOutcome :=
      fun sql => .rows (if sql = "SELECT 2" then [[.num 2]] else [[.num 1]]) ["n"]
    ∃ sql result,
      (∀ order, order.Perm (candidates sums) → ∃ t performed,
        visit env (fun _ => some 1) (completed run sums order) sums = some (t, performed) ∧
          t.sql = some sql ∧ t.execResult = some result) ∧
      (Py.truthy sums.databaseUrl = true → Elected env (fun _ => some 1) run sums sql result) :=
  majority_vote _ _ _ sums (by decide) (by decide)

end Voter
end Nl2SqlAgent

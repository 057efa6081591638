import Nl2SqlAgent.Generator

/-! What the candidates of a retry are, and which calls were made for them. -/
namespace Nl2SqlAgent

open Lib

namespace Generator

/-- The loop of the node with the temperatures at which it called. -/
def drawLogged (env : Env) (reply : Nat → Option Reply) : List Nat → Drawn → List Nat × Option Drawn
  | [], drawn => ([], some drawn)
  | i :: rest, drawn =>
    match reply i with
    | none =>
      if i = 0 then ([i], none)
      else
        let later := drawLogged env reply rest drawn
        (i :: later.1, later.2)
    | some r =>
      let sql := env.extractSql r.raw
      let counted : Drawn :=
        { drawn with raws := drawn.raws ++ [r.raw], usage := drawn.usage.add r.usage }
      if sql = "" then
        let later := drawLogged env reply rest counted
        (i :: later.1, later.2)
      else
        let isDup := isDuplicate env drawn.candidates sql
        let kept := if isDup then drawn.candidates else drawn.candidates ++ [sql]
        if 1 ≤ kept.length ∧ i = 1 ∧ isDup = true then ([i], some { counted with candidates := kept })
        else
          let later := drawLogged env reply rest { counted with candidates := kept }
          (i :: later.1, later.2)

def callsOf (env : Env) (reply : Nat → Option Reply) (s : AgentState) : List Nat :=
  (drawLogged env reply temperatures ⟨[], [], s.tokenUsage.getD .zero⟩).1

/-- What equals an earlier one is dropped. -/
def distinct (env : Env) : List String → List String
  | [] => []
  | sql :: rest => sql :: (distinct env rest).filter fun later => normalizeSql env later ≠ normalizeSql env sql

def sqlsOf (env : Env) (replies : List Reply) : List String := replies.map fun r => env.extractSql r.raw

def usageOf (usage : TokenUsage) (replies : List Reply) : TokenUsage :=
  replies.foldl (fun sum r => sum.add r.usage) usage

def Repeats (env : Env) (reply : Nat → Option Reply) : Prop :=
  ∃ first second, reply 0 = some first ∧ reply 1 = some second ∧
    env.extractSql first.raw ≠ "" ∧ env.extractSql second.raw ≠ "" ∧
    normalizeSql env (env.extractSql second.raw) = normalizeSql env (env.extractSql first.raw)

section

variable {env : Env} {reply : Nat → Option Reply} {s : AgentState} {temps : List Nat}
  {drawn final : Drawn} {kept sqls : List String} {sql : String}

theorem drawLogged_snd (temps : List Nat) (drawn : Drawn) :
    (drawLogged env reply temps drawn).2 = drawCandidates env reply temps drawn := by
  induction temps generalizing drawn with
  | nil => rfl
  | cons i rest ih =>
    simp only [drawLogged, drawCandidates]
    cases reply i with
    | none => simp only [apply_ite Prod.snd, ih]
    | some r => simp only [apply_ite Prod.snd, ih]

def keep (env : Env) (kept : List String) (sql : String) : List String :=
  if sql = "" ∨ isDuplicate env kept sql = true then kept else kept ++ [sql]

theorem isDuplicate_iff : isDuplicate env kept sql = true ↔
    ∃ c ∈ kept, normalizeSql env c = normalizeSql env sql := by
  simp [isDuplicate]

theorem foldl_keep (env : Env) (kept sqls : List String) : sqls.foldl (keep env) kept =
    kept ++ (distinct env (sqls.filter (· ≠ ""))).filter fun sql => !isDuplicate env kept sql := by
  induction sqls generalizing kept with
  | nil => simp [distinct]
  | cons sql rest ih =>
    rw [List.foldl_cons, ih]
    by_cases empty : sql = ""
    · simp [keep, empty]
    · have nonempty : (sql :: rest).filter (· ≠ "") = sql :: rest.filter (· ≠ "") := by simp [empty]
      rw [nonempty, distinct]
      by_cases dup : isDuplicate env kept sql = true
      · obtain ⟨c, member, same⟩ := isDuplicate_iff.mp dup
        -- what repeats this statement repeats the earlier one too
        have covered : ∀ later ∈ distinct env (rest.filter (· ≠ "")),
            (!isDuplicate env kept later) = ((!isDuplicate env kept later) &&
              decide (normalizeSql env later ≠ normalizeSql env sql)) := by
          intro later _
          by_cases again : normalizeSql env later = normalizeSql env sql
          · have repeats : isDuplicate env kept later = true :=
              isDuplicate_iff.mpr ⟨c, member, same.trans again.symm⟩
            simp [repeats]
          · simp [again]
        rw [keep, if_pos (.inr dup), List.filter_cons, dup, List.filter_filter, ← List.filter_congr covered]
        simp
      · have fresh : isDuplicate env kept sql = false := Bool.eq_false_iff.mpr dup
        have split (later : String) : (!isDuplicate env (kept ++ [sql]) later) =
            ((!isDuplicate env kept later) && decide (normalizeSql env later ≠ normalizeSql env sql)) := by
          rw [isDuplicate, List.any_append, Bool.not_or, isDuplicate]
          by_cases again : normalizeSql env later = normalizeSql env sql
          · simp [again]
          · simp [again, Ne.symm again]
        rw [keep, if_neg (by simp [empty, fresh]), List.filter_cons, fresh, List.filter_filter,
          List.filter_congr fun later _ => split later]
        simp

def Stops (env : Env) (drawn : Drawn) (i : Nat) (sql : String) : Prop :=
  sql ≠ "" ∧ i = 1 ∧ isDuplicate env drawn.candidates sql = true

theorem drawLogged_some (env : Env) (drawn : Drawn) {i : Nat} (rest : List Nat) {r : Reply}
    (answer : reply i = some r) :
    let next : Drawn := ⟨keep env drawn.candidates (env.extractSql r.raw), drawn.raws ++ [r.raw],
      drawn.usage.add r.usage⟩
    (Stops env drawn i (env.extractSql r.raw) → drawLogged env reply (i :: rest) drawn = ([i], some next)) ∧
    (¬ Stops env drawn i (env.extractSql r.raw) → drawLogged env reply (i :: rest) drawn =
      (i :: (drawLogged env reply rest next).1, (drawLogged env reply rest next).2)) := by
  by_cases empty : env.extractSql r.raw = ""
  · simp [Stops, drawLogged, answer, empty, keep]
  · by_cases dup : isDuplicate env drawn.candidates (env.extractSql r.raw) = true
    · have some_ : 1 ≤ drawn.candidates.length := by
        obtain ⟨c, member, -⟩ := List.any_eq_true.mp dup
        exact List.length_pos_of_mem member
      by_cases second : i = 1
      · subst second
        simp [Stops, drawLogged, answer, empty, keep, dup, some_]
      · simp [Stops, drawLogged, answer, empty, keep, dup, second]
    · simp [Stops, drawLogged, answer, empty, keep, dup]

theorem drawLogged_none {i : Nat} {rest : List Nat} (answer : reply i = none) (later : i ≠ 0) :
    drawLogged env reply (i :: rest) drawn =
      (i :: (drawLogged env reply rest drawn).1, (drawLogged env reply rest drawn).2) := by
  simp [drawLogged, answer, later]

theorem drawLogged_result (ran : (drawLogged env reply temps drawn).2 = some final) :
    let replies := (drawLogged env reply temps drawn).1.filterMap reply
    final.candidates = (sqlsOf env replies).foldl (keep env) drawn.candidates ∧
      final.usage = usageOf drawn.usage replies := by
  induction temps generalizing drawn with
  | nil =>
    obtain rfl := Option.some.inj ran
    exact ⟨rfl, rfl⟩
  | cons i rest ih =>
    cases answer : reply i with
    | none =>
      by_cases first : i = 0
      · subst first
        simp [drawLogged, answer] at ran
      · rw [drawLogged_none answer first] at ran ⊢
        simpa [answer] using ih ran
    | some r =>
      obtain ⟨stops, goes⟩ := drawLogged_some env drawn rest answer
      by_cases stop : Stops env drawn i (env.extractSql r.raw)
      · rw [stops stop] at ran ⊢
        obtain rfl := Option.some.inj ran
        simp [answer, sqlsOf, usageOf]
      · rw [goes stop] at ran ⊢
        simpa [answer, sqlsOf, usageOf] using ih ran

/-- Only a first call that raises ends the loop without a result. -/
theorem drawLogged_isSome (env : Env) (drawn : Drawn) (later : ∀ i ∈ temps, i = 0 → reply i ≠ none) :
    (drawLogged env reply temps drawn).2.isSome = true := by
  induction temps generalizing drawn with
  | nil => rfl
  | cons i rest ih =>
    obtain ⟨here, tail⟩ := List.forall_mem_cons.mp later
    cases answer : reply i with
    | none =>
      rw [drawLogged_none answer fun first => here first answer]
      exact ih drawn tail
    | some r =>
      obtain ⟨stops, goes⟩ := drawLogged_some env drawn rest answer
      by_cases stop : Stops env drawn i (env.extractSql r.raw)
      · rw [stops stop]
        rfl
      · rw [goes stop]
        exact ih _ tail

theorem stops_iff {first second : Reply} (answer : reply 0 = some first) (answer' : reply 1 = some second)
    (only : drawn.candidates = keep env [] (env.extractSql first.raw)) :
    Stops env drawn 1 (env.extractSql second.raw) ↔ Repeats env reply := by
  have kept (c : String) : c ∈ keep env [] (env.extractSql first.raw) ↔
      env.extractSql first.raw ≠ "" ∧ c = env.extractSql first.raw := by
    by_cases empty : env.extractSql first.raw = "" <;> simp [keep, empty, isDuplicate]
  simp only [Stops, true_and, isDuplicate_iff, only, kept, Repeats, answer, answer', Option.some.injEq]
  constructor
  · rintro ⟨some_, _, ⟨some_', rfl⟩, same⟩
    exact ⟨first, second, rfl, rfl, some_', some_, same.symm⟩
  · rintro ⟨_, _, rfl, rfl, some_, some_', same⟩
    exact ⟨some_', _, ⟨some_, rfl⟩, same.symm⟩

/-- The third call is left out where the second reply repeats the first. -/
theorem callsOf_eq (env : Env) (s : AgentState) {first : Reply} (answer : reply 0 = some first) :
    (Repeats env reply → callsOf env reply s = [0,1]) ∧
      (¬ Repeats env reply → callsOf env reply s = [0,1,2]) := by
  have last (drawn : Drawn) : (drawLogged env reply [2] drawn).1 = [2] := by
    cases answer' : reply 2 with
    | none =>
      rw [drawLogged_none answer' (by decide)]
      rfl
    | some r =>
      have goes := (drawLogged_some env drawn [] answer').2 fun stop =>
        absurd stop.2.1 (by decide)
      rw [goes]
      rfl
  have goes := (drawLogged_some env ⟨[], [], s.tokenUsage.getD .zero⟩ [1,2] answer).2 fun stop =>
    absurd stop.2.1 (by decide)
  rw [callsOf, temperatures, goes]
  cases answer' : reply 1 with
  | none =>
    have no : ¬ Repeats env reply := fun ⟨_, _, _, there, _⟩ => by simp [answer'] at there
    simp [no, drawLogged_none answer', last]
  | some second =>
    obtain ⟨stops, goes'⟩ := drawLogged_some env ⟨keep env [] (env.extractSql first.raw), [first.raw],
      (s.tokenUsage.getD .zero).add first.usage⟩ [2] answer'
    have iff := stops_iff answer answer' (rfl : (⟨keep env [] (env.extractSql first.raw), [first.raw],
      (s.tokenUsage.getD .zero).add first.usage⟩ : Drawn).candidates = _)
    constructor
    · intro again
      simp only [List.nil_append, stops (iff.mpr again)]
    · intro fresh
      simp only [List.nil_append, goes' (mt iff.mp fresh), last]

/-- A retry whose first call raises leaves the state alone. Any other writes the statements of
the replies without repetitions, the first of them as its own, and the tokens of all the
calls that returned. -/
theorem node_generates (env : Env) (reply : Nat → Option Reply) (s : AgentState)
    (retry : s.retryCount.getD 0 > 0) :
    (reply 0 = none → node env reply s = none ∧ callsOf env reply s = [0]) ∧
    (reply 0 ≠ none →
      (Repeats env reply → callsOf env reply s = [0,1]) ∧
      (¬ Repeats env reply → callsOf env reply s = [0,1,2]) ∧
      ∃ t, node env reply s = some t ∧
        let replies := (callsOf env reply s).filterMap reply
        let candidates := distinct env ((sqlsOf env replies).filter (· ≠ ""))
        t.candidateSqls = some candidates ∧ t.sql = some (candidates.headD "") ∧
          t.tokenUsage = some (usageOf (s.tokenUsage.getD .zero) replies)) := by
  constructor
  · intro raised
    constructor
    · simp [node, retry, temperatures, drawCandidates, raised]
    · simp [callsOf, temperatures, drawLogged, raised]
  · intro returned
    obtain ⟨first, answer⟩ := Option.ne_none_iff_exists'.mp returned
    obtain ⟨repeats, fresh⟩ := callsOf_eq env s answer
    refine ⟨repeats, fresh, ?_⟩
    have later : ∀ i ∈ temperatures, i = 0 → reply i ≠ none := fun i _ zero => zero ▸ returned
    obtain ⟨final, ran⟩ := Option.isSome_iff_exists.mp
      (drawLogged_isSome env ⟨[], [], s.tokenUsage.getD .zero⟩ later)
    obtain ⟨candidates, usage⟩ := drawLogged_result ran
    rw [foldl_keep] at candidates
    have all (sqls : List String) : sqls.filter (fun sql => !isDuplicate env [] sql) = sqls :=
      List.filter_eq_self.mpr fun _ _ => rfl
    rw [List.nil_append, all] at candidates
    rw [drawLogged_snd] at ran
    simp only [node, retry, if_true, ran, Option.map_some, Option.some.injEq, exists_eq_left', callsOf,
      ← candidates, ← usage]
    cases final.candidates <;> simp

end

/-- The second of three calls raises, and the third repeats the first in other letters. -/
theorem node_generates_repeated :
    let reply : Nat → Option Reply := fun i =>
      if i = 1 then none else some ⟨if i = 0 then "SELECT 1" else "select  1", ⟨5, 1, 6⟩⟩
    let s : AgentState := { question := "One?", retryCount := some 1 }
    callsOf .plain reply s = [0,1,2] ∧ ∃ t, node .plain reply s = some t ∧
      t.candidateSqls = some ["SELECT 1"] ∧ t.tokenUsage = some ⟨10, 2, 12⟩ := by
  intro reply s
  have later : reply 0 ≠ none := by decide
  have calls : callsOf .plain reply s = [0,1,2] := by decide +kernel
  obtain ⟨-, -, t, visit, candidates, -, usage⟩ := (node_generates .plain reply s (by decide)).2 later
  refine ⟨calls, t, visit, candidates.trans ?_, usage.trans ?_⟩
  · rw [calls]
    decide +kernel
  · rw [calls]
    decide +kernel

end Generator
end Nl2SqlAgent

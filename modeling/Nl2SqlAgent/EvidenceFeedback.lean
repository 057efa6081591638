import Nl2SqlAgent.AgentGraph
import Nl2SqlAgent.Metrics

/-! The evidence feedback of `evaluate_bird_sample`: a sample whose SQL is wrong goes
through the feedback graph with its evidence as the user's guidance, and the outcome is
compared with the gold SQL once more. -/
namespace Nl2SqlAgent

open Lib

namespace EvidenceFeedback

open Metrics
open AgentGraph (Visit FeedbackInput feedbackStart machine)

structure BirdSample where
  questionId : String
  question : String
  goldSql : String
  dbId : String
  evidence : String
  databasePath : String
  deriving DecidableEq, Repr

def getDatabaseUrl (sample : BirdSample) : String :=
  "sqlite:///" ++ String.ofList (sample.databasePath.toList.map fun c => if c = '\\' then '/' else c)

/-- What the evaluation works with: the nodes' surroundings, the executor of a database,
and what is known of the gold statements. -/
structure Setting where
  env : Env
  floats : Floats
  execute : (url : String) → Executor
  goldCacheMap : List (String × GoldEntry)
  evidenceFeedback : Bool

/-- The full graph's last state, or the text of the exception that it raised. -/
abbrev FirstRun := Except String AgentState

/-- `state` after the run, which an exception leaves empty. -/
def stateOf : FirstRun → Option AgentState
  | .ok s => some s
  | .error _ => none

def genSql (first : FirstRun) : String := ((stateOf first).bind AgentState.sql).getD ""

def execResultOf (first : FirstRun) : Option ExecResult := (stateOf first).bind AgentState.execResult

def lookupGold (c : Setting) (sample : BirdSample) : Option GoldEntry :=
  c.goldCacheMap.lookup sample.questionId

/-- The local `gold_entry`, if it is bound. -/
def goldEntry (c : Setting) (sample : BirdSample) (first : FirstRun) : Option (Option GoldEntry) :=
  if genSql first = "" then none else some (lookupGold c sample)

def exInfo (c : Setting) (sample : BirdSample) (first : FirstRun) (t : Timing) : Option MatchInfo :=
  if genSql first = "" then
    let graphError :=
      match first with
      | .ok _ => ""
      | .error e => e
    some ⟨false, if graphError = "" then "SQL generation failed" else graphError, 0, 0, 0, 0⟩
  else
    execMatch c.floats (c.execute (getDatabaseUrl sample)) sample.goldSql (genSql first)
      (lookupGold c sample) t

def feedbackInput (sample : BirdSample) (first : FirstRun) : FeedbackInput where
  question := sample.question
  dbId := some sample.dbId
  databaseUrl := some (getDatabaseUrl sample)
  schemaText := ((stateOf first).bind AgentState.schemaText).getD ""
  notesText := ((stateOf first).bind AgentState.notesText).getD ""
  fewshotText := ((stateOf first).bind AgentState.fewshotText).getD ""
  sql := some (genSql first)
  execResult := execResultOf first
  userFeedback := Py.strip sample.evidence
  ragSchema := some true
  ragDomain := some true
  fewshotEnabled := some true
  maxRetries := 1

/-- With a logger, `refiner_node` first reads the error of `exec_result`, which the input
has set to `None` where there is none. -/
def loggedStep (env : Env) (c : AgentGraph.Config) : Visit → Option AgentGraph.Config
  | .refiner expansion =>
    if c.state.execResult.isSome then AgentGraph.step env c (.refiner expansion) else none
  | visit => AgentGraph.step env c visit

def loggedMachine (env : Env) : Machine AgentGraph.Config Visit := ⟨loggedStep env⟩

def attributeError : String := "AttributeError: 'NoneType' object has no attribute 'get'"

def unboundLocalError : String :=
  "UnboundLocalError: cannot access local variable 'gold_entry' where it is not associated with a value"

/-- What the rest of the world gives the feedback round: what the nodes get, how long the
comparison takes, and what is raised where a node raises by itself. -/
structure Round where
  visits : List Visit
  timing : Timing
  raised : String

def invoke (env : Env) (i : FeedbackInput) (round : Round) : Except String AgentState :=
  match (loggedMachine env).exec (feedbackStart i) round.visits with
  | some c => if c.node = .finish then .ok c.state else .error round.raised
  | none => .error (if i.execResult.isNone then attributeError else round.raised)

structure Feedback where
  ex : Option Bool := none
  sql : String := ""
  fixed : Bool := false
  detail : String := ""
  deriving DecidableEq, Repr

def Feedback.scored (sql : String) (m : MatchInfo) : Feedback :=
  ⟨some m.ex, Py.take 300 sql, m.ex, m.detail⟩

/-- The `try` block of the feedback round. -/
def feedbackRound (c : Setting) (sample : BirdSample) (first : FirstRun) (round : Round) : Feedback :=
  match invoke c.env (feedbackInput sample first) round with
  | .error e => { ex := some false, detail := e }
  | .ok state =>
    let fbSql := state.sql.getD ""
    if fbSql = "" then { ex := some false, detail := "Evidence feedback produced no SQL" }
    else
      match goldEntry c sample first with
      | none => { ex := some false, sql := Py.take 300 fbSql, detail := unboundLocalError }
      | some entry =>
        match execMatch c.floats (c.execute (getDatabaseUrl sample)) sample.goldSql fbSql entry
            round.timing with
        | some m => .scored fbSql m
        | none => { ex := some false, sql := Py.take 300 fbSql, detail := round.raised }

structure Evaluated where
  genSql : String
  info : MatchInfo
  feedback : Feedback
  deriving DecidableEq, Repr

/-- `evaluate_bird_sample` behind the full graph; it raises where the first comparison does. -/
def evaluateBirdSample (c : Setting) (sample : BirdSample) (first : FirstRun) (t : Timing)
    (round : Round) : Option Evaluated :=
  (exInfo c sample first t).map fun info =>
    { genSql := Py.take 300 (genSql first)
      info := info
      feedback :=
        if c.evidenceFeedback && !info.ex && Py.strip sample.evidence ≠ "" then
          feedbackRound c sample first round
        else {} }

theorem executed_step {env : Env} {c c' : AgentGraph.Config} {visit : Visit}
    (executed : c.state.execResult.isSome = true)
    (stepped : (machine env).step c visit = some c') : c'.state.execResult.isSome = true := by
  cases AgentGraph.step_stepped stepped with
  | upstream visit n t _ _ frame =>
    obtain ⟨_, _, _, _, _, _, _, rfl⟩ := frame
    exact executed
  | generator reply t _ visited =>
    obtain ⟨_, _, _, _, _, rfl⟩ := visited.frame
    exact executed
  | guard t _ visited =>
    obtain ⟨_, _, _, _, rfl⟩ := visited.frame
    exact executed
  | voter executions ballot performed t _ visit =>
    obtain ⟨_, _, rfl, -⟩ := Voter.node_reported visit
    rfl
  | semanticCheck reply t _ visited =>
    obtain ⟨_, _, _, _, _, _, _, rfl⟩ := visited.frame
    exact executed
  | refiner expansion t _ visited =>
    obtain ⟨_, _, _, _, _, _, rfl⟩ := visited.frame
    exact executed
  | postRefiner _ => exact executed

theorem loggedStep_executed {env : Env} {c : AgentGraph.Config}
    (executed : c.state.execResult.isSome = true) (visit : Visit) :
    (loggedMachine env).step c visit = (machine env).step c visit := by
  cases visit with
  | refiner expansion => exact if_pos executed
  | _ => rfl

theorem logged_exec {env : Env} {c c' : AgentGraph.Config} {visits : List Visit}
    (executed : c.state.execResult.isSome = true)
    (run : (machine env).exec c visits = some c') :
    (loggedMachine env).exec c visits = some c' := by
  induction visits generalizing c with
  | nil => exact run
  | cons visit rest ih =>
    obtain ⟨next, stepped, later⟩ := Machine.exec_cons_some.mp run
    refine Machine.exec_cons_some.mpr ⟨next, ?_, ih (executed_step executed stepped) later⟩
    rw [loggedStep_executed executed]
    exact stepped

/-- Where there is none, the graph does not get past its first node. -/
theorem logged_raises {env : Env} {i : FeedbackInput} {visits : List Visit} {c : AgentGraph.Config}
    (unexecuted : i.execResult = none)
    (run : (machine env).exec (feedbackStart i) visits = some c) (done : c.node = .finish) :
    (loggedMachine env).exec (feedbackStart i) visits = none := by
  cases visits with
  | nil =>
    obtain rfl := Option.some.inj run
    contradiction
  | cons visit rest =>
    obtain ⟨next, stepped, -⟩ := Machine.exec_cons_some.mp run
    rw [Machine.exec_cons]
    cases visit with
    | refiner expansion =>
      have stuck : (loggedMachine env).step (feedbackStart i) (.refiner expansion) = none := by
        simp [loggedMachine, loggedStep, feedbackStart, unexecuted]
      rw [stuck]
      rfl
    | _ => simp [machine, AgentGraph.step, feedbackStart] at stepped

theorem head_append {c : Char} {first : String} (rest : String)
    (head : first.toList.head? = some c) : (first ++ rest).toList.head? = some c := by
  rw [String.toList_append, List.head?_append, head]
  rfl

theorem compareRows_detail {f : Floats} {execute : Executor} {sqlB : String} {t : Timing}
    {norm : List NormRow} {ms : Rat} {n : Nat} :
    (compareRows f execute sqlB t norm ms n).detail.toList.head? ∈ [some 'm', some 'g'] := by
  have later {c : Char} {first : String} (rest : String) (head : first.toList.head? = some c)
      (one : some c ∈ [some 'm', some 'g']) :
      (first ++ rest).toList.head? ∈ [some 'm', some 'g'] := by
    rw [head_append rest head]
    exact one
  have late : "generated SQL timed out after 60s".toList.head? ∈ [some 'm', some 'g'] := by decide
  unfold compareRows
  split
  · exact late
  · split
    · exact later _ (c := 'g') rfl (by decide)
    · exact later _ (c := 'g') rfl (by decide)
    · split
      · rw [String.append_assoc]
        exact later _ (c := 'm') rfl (by decide)
      · simp only [String.append_assoc]
        exact later _ (c := 'm') rfl (by decide)

/-- The text of a comparison does not begin as that of an exception. -/
theorem execMatch_detail {f : Floats} {execute : Executor} {sqlA sqlB : String}
    {goldCache : Option GoldEntry} {t : Timing} {m : MatchInfo}
    (matched : execMatch f execute sqlA sqlB goldCache t = some m) :
    m.detail.toList.head? ∈ [some 'm', some 'g'] := by
  unfold execMatch at matched
  split at matched
  · split at matched
    · obtain rfl := Option.some.inj matched
      rw [head_append (c := 'g') _ rfl]
      decide
    · obtain rfl := Option.some.inj matched
      exact compareRows_detail
  · split at matched
    · cases matched
    · obtain rfl := Option.some.inj matched
      rw [head_append (c := 'g') _ rfl]
      decide
    · obtain rfl := Option.some.inj matched
      exact compareRows_detail

/-- Whenever the nodes of the feedback graph give an SQL for a sample whose first run was
wrong, the feedback is the comparison of that SQL exactly if the first run gave an SQL and
a result of an execution. -/
theorem feedback_scored_iff {c : Setting} {sample : BirdSample} {first : FirstRun} {t : Timing}
    {round : Round} {r : Evaluated} {last : AgentGraph.Config} {fbSql : String} {m : MatchInfo}
    (evaluated : evaluateBirdSample c sample first t round = some r) (wrong : r.info.ex = false)
    (configured : c.evidenceFeedback = true) (evidence : Py.strip sample.evidence ≠ "")
    (yields : (machine c.env).exec (feedbackStart (feedbackInput sample first)) round.visits =
      some last) (done : last.node = .finish) (given : last.state.sql = some fbSql)
    (nonempty : fbSql ≠ "")
    (matched : execMatch c.floats (c.execute (getDatabaseUrl sample)) sample.goldSql fbSql
      (lookupGold c sample) round.timing = some m) :
    r.feedback = .scored fbSql m ↔ genSql first ≠ "" ∧ (execResultOf first).isSome = true := by
  obtain ⟨info, -, rfl⟩ := Option.map_eq_some_iff.mp evaluated
  have runs : (c.evidenceFeedback && !info.ex && decide (Py.strip sample.evidence ≠ "")) = true := by
    simp only at wrong
    simp [configured, wrong, evidence]
  have plain := execMatch_detail matched
  simp only [runs, if_true]
  cases executed : execResultOf first with
  | none =>
    have invoked : invoke c.env (feedbackInput sample first) round = .error attributeError := by
      rw [invoke, logged_raises executed yields done]
      simp [feedbackInput, executed]
    have error : feedbackRound c sample first round =
        { ex := some false, detail := attributeError } := by
      simp [feedbackRound, invoked]
    rw [error]
    refine iff_of_false (fun same => ?_) (by simp)
    rw [← (Feedback.mk.inj same).2.2.2] at plain
    exact absurd plain (by decide)
  | some result =>
    have present : (feedbackStart (feedbackInput sample first)).state.execResult.isSome = true := by
      simp [feedbackStart, feedbackInput, executed]
    have invoked : invoke c.env (feedbackInput sample first) round = .ok last.state := by
      simp [invoke, logged_exec present yields, done]
    by_cases empty : genSql first = ""
    · have error : feedbackRound c sample first round =
          { ex := some false, sql := Py.take 300 fbSql, detail := unboundLocalError } := by
        simp [feedbackRound, invoked, given, nonempty, goldEntry, empty]
      rw [error]
      refine iff_of_false (fun same => ?_) (by simp [empty])
      rw [← (Feedback.mk.inj same).2.2.2] at plain
      exact absurd plain (by decide)
    · have scored : feedbackRound c sample first round = .scored fbSql m := by
        simp [feedbackRound, invoked, given, nonempty, goldEntry, empty, matched]
      exact iff_of_true scored ⟨empty, rfl⟩

def shopSample : BirdSample where
  questionId := "7"
  question := "How many open orders?"
  goldSql := "SELECT count(*) FROM orders WHERE status = 'open'"
  dbId := "shop"
  evidence := "open means status = 'open'"
  databasePath := "/data/shop.sqlite"

/-- A setting in which every statement gives one row with its own text. -/
def shopSetting : Setting where
  env := .plain
  floats := ⟨fun n => .finite n, id, fun _ => "1"⟩
  execute _ sql := .rows [[.other sql]]
  goldCacheMap := []
  evidenceFeedback := true

/-- The feedback graph drafts the gold SQL, executes it and accepts it. -/
def corrected : Round where
  visits := [.refiner none, .postRefiner,
    .generator fun _ => some ⟨shopSample.goldSql, .zero⟩, .guard,
    .voter [⟨getDatabaseUrl shopSample, shopSample.goldSql, .rows [[.num 1]] ["count(*)"]⟩] none,
    .semanticCheck (.ok ⟨"YES", []⟩)]
  timing := ⟨2, 3, false⟩
  raised := ""

/-- The first run executed a wrong SQL. -/
def wrongRun : FirstRun :=
  .ok {
    question := shopSample.question
    sql := some "SELECT 1"
    execResult := some (RunOutcome.rows [[.num 1]] ["1"]).result }

def matchedOpen : MatchInfo := ⟨true, "match (1 rows)", 2, 3, 1, 1⟩

theorem feedback_scored_wrong :
    ∃ r, evaluateBirdSample shopSetting shopSample wrongRun ⟨2, 3, false⟩ corrected = some r ∧
      (r.feedback = .scored shopSample.goldSql matchedOpen ↔
        genSql wrongRun ≠ "" ∧ (execResultOf wrongRun).isSome = true) := by
  have ends : ((machine shopSetting.env).exec (feedbackStart (feedbackInput shopSample wrongRun))
      corrected.visits).any (fun c => c.node = .finish ∧ c.state.sql = some shopSample.goldSql) =
      true := by decide +kernel
  obtain ⟨last, yields, final⟩ := (Option.any_eq_true _ _).mp ends
  obtain ⟨done, given⟩ := of_decide_eq_true final
  have evaluates : (evaluateBirdSample shopSetting shopSample wrongRun ⟨2, 3, false⟩ corrected).any
      (fun r => r.info.ex = false) = true := by decide +kernel
  obtain ⟨r, evaluated, wrong⟩ := (Option.any_eq_true _ _).mp evaluates
  exact ⟨r, evaluated, feedback_scored_iff evaluated (of_decide_eq_true wrong) rfl (by decide +kernel)
    yields done given (by decide) (by decide +kernel)⟩

/-- The guard rejected every attempt of the first run, and nothing was executed. -/
def rejectedRun : FirstRun :=
  .ok { question := shopSample.question, sql := some "DROP TABLE orders", guardPass := some false }

/-- An execution ended the first run without an SQL. -/
def emptyRun : FirstRun :=
  .ok {
    question := shopSample.question
    sql := some ""
    execResult := some (RunOutcome.failed "no such table: order" (some "missing_table")).result }

/-- The feedback graph comes to the gold SQL each time, and the feedback is an error that
has nothing to do with it. -/
theorem feedback_not_scored :
    (evaluateBirdSample shopSetting shopSample rejectedRun ⟨2, 3, false⟩ corrected).map
        Evaluated.feedback = some { ex := some false, detail := attributeError } ∧
      (evaluateBirdSample shopSetting shopSample emptyRun ⟨2, 3, false⟩ corrected).map
        Evaluated.feedback =
          some { ex := some false, sql := shopSample.goldSql, detail := unboundLocalError } ∧
      ∀ first ∈ [rejectedRun, emptyRun],
        ((machine shopSetting.env).exec (feedbackStart (feedbackInput shopSample first))
          corrected.visits).any (fun c => c.node = .finish ∧ c.state.sql = some shopSample.goldSql) =
          true := by
  refine ⟨by decide +kernel, by decide +kernel, fun first member => ?_⟩
  simp only [List.mem_cons, List.not_mem_nil, or_false] at member
  rcases member with rfl | rfl <;> decide +kernel

end EvidenceFeedback
end Nl2SqlAgent

import Mathlib.Data.List.Sort
import Nl2SqlAgent.Lib.PyDict
import Nl2SqlAgent.SampleConservation

/-! The result of a configuration: what `run_bird_eval` makes of the end of its loop. -/
namespace Nl2SqlAgent

open Lib

namespace ConfigResults

open Evaluation

/-- `round` of a float, to so many digits or to an integer. -/
structure Rounding where
  digits : Nat → Rat → Rat
  whole : Rat → Int

/-- `round(a / b, d) if b else 0`. -/
def Rounding.rate (r : Rounding) (d : Nat) (a : Rat) (b : Nat) : Rat :=
  if b = 0 then 0 else r.digits d (a / b)

/-- An entry of `case_results` with what the pipeline's modules left in it. -/
structure CaseRow extends CaseResult where
  elapsedGraphS : Rat := 0
  elapsedExecmatchS : Rat := 0
  lastGraphNode : String := "?"
  nodeTimings : List (String × Rat) := []
  traceId : String := ""
  guardPass : Option Bool := none
  guardIssueCount : Nat := 0
  astPass : Option Bool := none
  semanticPass : Option Bool := none
  semanticFeedback : String := ""
  semRejectCount : Nat := 0
  retryCount : Nat := 0
  candidateCount : Nat := 0
  decomposerUsed : Bool := false
  subQuestionCount : Nat := 0
  feedbackEx : Option Bool := none
  feedbackSql : Option String := none
  feedbackFixed : Option Bool := none
  deriving DecidableEq, Repr

structure GuardStats where
  totalChecked : Nat
  passed : Nat
  rejected : Nat
  rejectRate : Rat
  falseNegatives : Nat
  falseNegRate : Rat
  deriving DecidableEq, Repr

structure SemCheckStats extends GuardStats where
  falsePositives : Nat
  escapeHatchTriggers : Nat
  deriving DecidableEq, Repr

structure SelfCorrectionStats where
  retried : Nat
  retryFixed : Nat
  fixRate : Rat
  retryPct : Rat
  deriving DecidableEq, Repr

/-- How many samples had one, two, or three and more candidates. -/
structure CandidateDist where
  one : Nat
  two : Nat
  three : Nat
  deriving DecidableEq, Repr

structure VoterStats where
  multiEnabledSamples : Nat
  avgCandidates : Rat
  candidateDistribution : CandidateDist
  deriving DecidableEq, Repr

structure DecomposerStats where
  used : Nat
  ex : Nat
  exRate : Rat
  avgSubQuestions : Rat
  deriving DecidableEq, Repr

structure PipelineStats where
  guard : GuardStats
  semCheck : SemCheckStats
  selfCorrection : SelfCorrectionStats
  voter : VoterStats
  decomposer : DecomposerStats
  nodeTimingAvg : PyDict String Rat
  deriving DecidableEq, Repr

def candidateDist (rows : List CaseRow) : CandidateDist where
  one := rows.countP fun r => r.candidateCount = 1
  two := rows.countP fun r => r.candidateCount = 2
  three := rows.countP fun r => 3 ≤ r.candidateCount

/-- The guard's and the semantic check's counts, `verdict` being theirs of a row. -/
def checkStats (round : Rounding) (rows : List CaseRow) (verdict : CaseRow → Option Bool) :
    GuardStats :=
  let checked := rows.filter fun r => (verdict r).isSome
  let passed := checked.countP fun r => verdict r = some true
  let missed := checked.countP fun r => verdict r = some true ∧ r.ex = false ∧ r.genSql ≠ ""
  { totalChecked := checked.length
    passed := passed
    rejected := checked.length - passed
    rejectRate := round.rate 3 (checked.length - passed : Nat) checked.length
    falseNegatives := missed
    falseNegRate := round.rate 3 missed checked.length }

def semCheckStats (round : Rounding) (rows : List CaseRow) : SemCheckStats where
  toGuardStats := checkStats round rows CaseRow.semanticPass
  falsePositives := rows.countP fun r => r.semanticPass = some false ∧ r.ex = true
  escapeHatchTriggers := rows.countP fun r => r.semanticPass.isSome ∧ 2 ≤ r.semRejectCount

/-- The durations of each node over all samples. -/
def nodeTimes (rows : List CaseRow) : PyDict String (List Rat) :=
  (rows.flatMap CaseRow.nodeTimings).foldl
    (fun times t => times.set t.1 ((times.lookup t.1).getD [] ++ [t.2])) []

def nodeTimingAvg (round : Rounding) (rows : List CaseRow) : PyDict String Rat :=
  ((nodeTimes rows).mergeSort fun a b => a.1 ≤ b.1).map fun t =>
    (t.1, round.digits 2 (t.2.sum / t.2.length))

/-- `_compute_pipeline_stats`, of which nothing is left without samples. -/
def computePipelineStats (round : Rounding) (rows : List CaseRow) : Option PipelineStats :=
  let n := rows.length
  if n = 0 then none
  else
    let retried := rows.countP fun r => 0 < r.retryCount
    let retryFixed := rows.countP fun r => 0 < r.retryCount ∧ r.ex = true
    let decUsed := rows.countP CaseRow.decomposerUsed
    let decEx := rows.countP fun r => r.decomposerUsed && r.ex
    some {
      guard := checkStats round rows CaseRow.guardPass
      semCheck := semCheckStats round rows
      selfCorrection := {
        retried := retried
        retryFixed := retryFixed
        fixRate := round.rate 3 retryFixed retried
        retryPct := round.rate 3 retried n }
      voter := {
        multiEnabledSamples := rows.countP fun r => 0 < r.candidateCount
        avgCandidates := round.digits 2 ((rows.map CaseRow.candidateCount).sum / n)
        candidateDistribution := candidateDist rows }
      decomposer := {
        used := decUsed
        ex := decEx
        exRate := round.rate 3 decEx decUsed
        avgSubQuestions := round.rate 1 (rows.map CaseRow.subQuestionCount).sum n }
      nodeTimingAvg := nodeTimingAvg round rows }

theorem computePipelineStats_isSome (round : Rounding) {rows : List CaseRow} (some_ : rows ≠ []) :
    (computePipelineStats round rows).isSome = true := by
  have length : rows.length ≠ 0 := mt List.length_eq_zero_iff.mp some_
  simp [computePipelineStats, length]

structure DifficultySummary where
  total : Nat
  passed : Nat
  ex : Rat
  avgVes : Rat
  avgTokens : Int
  avgTime : Rat
  deriving DecidableEq, Repr

def difficulties : List String := ["simple", "moderate", "challenging"]

def diffSummary (round : Rounding) (diffStats : String → Tally) : PyDict String DifficultySummary :=
  (difficulties.filter fun d => 0 < (diffStats d).total).map fun d =>
    let ds := diffStats d
    (d, ⟨ds.total, ds.passed, round.digits 4 (ds.passed / ds.total),
      round.digits 4 (ds.vesSum / ds.total), round.whole (ds.tokens / ds.total),
      round.digits 2 (ds.time / ds.total)⟩)

/-- A value of `all_results`. -/
structure ConfigResult where
  knowledgeSource : String
  caseResults : List CaseRow
  timeoutLog : List TimeoutEvent
  passed : Nat
  crashed : Nat
  total : Nat
  exRate : Rat
  avgVes : Rat
  avgTimeS : Rat
  totalTokens : TokenUsage
  avgTokens : Int
  tokensPerS : Rat
  diffSummary : PyDict String DifficultySummary
  routerTraces : List RouterTrace
  pipelineStats : Option PipelineStats
  avgRagRecall : Option Rat
  ragRecallSamples : Nat
  fbAttempted : Nat
  fbFixed : Nat
  fbFixRate : Rat
  fbPreEx : Rat
  fbPostEx : Rat
  deriving DecidableEq, Repr

/-- A configuration whose loop over the samples has come to its end. -/
structure ConfigRun (samples : List BirdSample) where
  cfgName : String
  setting : Setting (Fin samples.length)
  loop : Loop (Fin samples.length)
  rows : List CaseRow
  accounted : Accounted setting (List.finRange _) loop
  rows_results : rows.map CaseRow.toCaseResult = loop.caseResults

variable {samples : List BirdSample}

/-- What follows the loop. The line that it prints divides by the number of samples. -/
def ConfigRun.result (round : Rounding) (run : ConfigRun samples) : Option ConfigResult :=
  let n := samples.length
  let l := run.loop
  let rows := run.rows.mergeSort fun a b => a.questionId ≤ b.questionId
  let avgTok : Int := if n = 0 then 0 else round.whole (l.totalTokens.total / n)
  let fbAttempted := rows.countP fun r => r.feedbackEx.isSome
  let fbFixed := rows.countP fun r => r.feedbackFixed = some true
  if n = 0 then none
  else
    some {
      knowledgeSource := run.setting.cfgKnowledge
      caseResults := rows
      timeoutLog := l.timeoutLog
      passed := l.passed
      crashed := l.crashed
      total := n
      exRate := round.rate 4 l.passed n
      avgVes := round.rate 4 l.totalVes n
      avgTimeS := round.rate 2 l.totalTime n
      totalTokens := l.totalTokens
      avgTokens := avgTok
      tokensPerS := if 0 < l.totalTime then round.digits 1 (avgTok / (l.totalTime / n)) else 0
      diffSummary := diffSummary round l.diffStats
      routerTraces := l.routerTraces
      pipelineStats := computePipelineStats round rows
      avgRagRecall :=
        if l.ragRecallCount = 0 then none
        else some (round.digits 4 (l.ragRecallSum / l.ragRecallCount))
      ragRecallSamples := l.ragRecallCount
      fbAttempted := fbAttempted
      fbFixed := fbFixed
      fbFixRate := round.rate 4 fbFixed fbAttempted
      fbPreEx := round.rate 4 l.passed n
      fbPostEx := round.rate 4 (l.passed + fbFixed : Nat) n }

theorem ConfigRun.rows_length (run : ConfigRun samples) : run.rows.length = samples.length := by
  have results := run.accounted.results.length_eq
  rw [List.length_map, List.length_map, List.length_finRange, ← run.rows_results,
    List.length_map] at results
  exact results

/-- A configuration that has a result has statistics of its pipeline. -/
theorem ConfigRun.pipelineStats_isSome {round : Rounding} {run : ConfigRun samples}
    {r : ConfigResult} (finished : run.result round = some r) : r.pipelineStats.isSome = true := by
  simp only [ConfigRun.result, Option.ite_none_left_eq_some, Option.some.injEq] at finished
  obtain ⟨many, rfl⟩ := finished
  refine computePipelineStats_isSome round fun empty => many ?_
  rw [← run.rows_length, ← List.length_mergeSort run.rows, empty, List.length_nil]

end ConfigResults
end Nl2SqlAgent

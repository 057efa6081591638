import Mathlib.Tactic.Linarith
import Nl2SqlAgent.ConfigResults
import Nl2SqlAgent.Lib.Double
import Nl2SqlAgent.Lib.Raising

/-! From the end of the loop of `run_bird_eval` to the checkpoint: the statistics, the printed
summaries and the logs, with every division and every access to a dictionary by a key. -/
namespace Nl2SqlAgent

open Lib

namespace AfterLoop

open Evaluation ConfigResults
open Lib.Raising (div item subscript count mapM_ok count_ok item_ok div_ok foldlM_ok)

/-- Who built the dictionary of a sample: `evaluate_bird_sample`, or the loop for a sample whose
last attempt raised or ran out of time. -/
inductive Producer where
  | evaluated
  | abandoned
  deriving DecidableEq, Repr

def commonKeys : List String :=
  ["question_id","db_id","difficulty","knowledge_source","ex","ves","detail","gen_sql","gold_sql",
    "token_usage","elapsed_s","elapsed_graph_s","elapsed_execmatch_s","last_graph_node",
    "node_timings","trace_events","router_score","router_method","router_complexity","trace_id",
    "guard_pass","guard_issue_count","ast_pass","semantic_pass","semantic_feedback",
    "sem_reject_count","retry_count","candidate_count","decomposer_used","sub_question_count",
    "rag_recall","rag_recall_detail"]

def Producer.keys : Producer → List String
  | .evaluated => commonKeys ++ ["feedback_ex","feedback_sql","feedback_fixed","feedback_detail"]
  | .abandoned => commonKeys

/-- An entry of `case_results` as a dictionary. A key that is missing is read by its default. -/
structure Entry extends CaseRow where
  producer : Producer
  traceEvents : List String := []
  feedback : producer = .abandoned → feedbackEx = none ∧ feedbackSql = none ∧ feedbackFixed = none

/-- `r[key]`. -/
def Entry.item {α : Type} (r : Entry) (key : String) (field : CaseRow → α) : Raising α :=
  Raising.item r.producer.keys key (field r.toCaseRow)

/-- `round(a / b, d) if b else 0`. -/
def rate (round : Rounding) (d : ℕ) (a : ℚ) (b : ℕ) : Raising ℚ :=
  if b = 0 then .ok 0 else (div a b).map (round.digits d)

def tallyKeys : List String := ["passed","total","ves_sum","tokens","time"]

def diffSummary (round : Rounding) (diffStats : String → Tally) :
    Raising (PyDict String DifficultySummary) := do
  let present ← (difficulties.mapM fun d => item tallyKeys "total" (d, (diffStats d).total))
  (present.filter fun entry => 0 < entry.2).mapM fun (d, _) => do
    let ds := diffStats d
    let total ← item tallyKeys "total" ds.total
    let passed ← item tallyKeys "passed" ds.passed
    let ex ← div passed total
    let vesSum ← item tallyKeys "ves_sum" ds.vesSum
    let avgVes ← div vesSum total
    let tokens ← item tallyKeys "tokens" ds.tokens
    let avgTokens ← div tokens total
    let time ← item tallyKeys "time" ds.time
    let avgTime ← div time total
    return (d, ⟨total, passed, round.digits 4 ex, round.digits 4 avgVes, round.whole avgTokens,
      round.digits 2 avgTime⟩)

def distKeys : List String := ["1","2","3"]

/-- `dist[str(min(n, 3))] += 1`. -/
def CandidateDist.bump (dist : CandidateDist) (n : ℕ) : CandidateDist :=
  if n = 1 then { dist with one := dist.one + 1 }
  else if n = 2 then { dist with two := dist.two + 1 }
  else { dist with three := dist.three + 1 }

/-- `_candidate_dist`. -/
def candidateDist (rows : List Entry) : Raising CandidateDist :=
  rows.foldlM (fun dist r =>
    let n := r.candidateCount
    if 1 ≤ n then item distKeys (toString (min n 3)) (CandidateDist.bump dist (min n 3)) else .ok dist)
    ⟨0, 0, 0⟩

/-- The counts of the guard and of the semantic check; `and` looks no further than it must. -/
def checkStats (round : Rounding) (rows : List Entry) (key : String)
    (verdict : CaseRow → Option Bool) : Raising GuardStats := do
  let checked := rows.filter fun r => (verdict r.toCaseRow).isSome
  let passed ← count (fun r => r.item key fun c => decide (verdict c = some true)) checked
  let missed ← count (fun r => do
    if ← r.item key fun c => decide (verdict c = some true) then
      if ← r.item "ex" fun c => !c.ex then return r.genSql ≠ "" else return false
    else return false) checked
  let rejectRate ← rate round 3 (checked.length - passed : ℕ) checked.length
  let falseNegRate ← rate round 3 missed checked.length
  return ⟨checked.length, passed, checked.length - passed, rejectRate, missed, falseNegRate⟩

def semCheckStats (round : Rounding) (rows : List Entry) : Raising SemCheckStats := do
  let stats ← checkStats round rows "semantic_pass" CaseRow.semanticPass
  let checked := rows.filter fun r => r.semanticPass.isSome
  let falsePositives ← count (fun r => do
    if ← r.item "semantic_pass" fun c => decide (c.semanticPass = some false) then
      r.item "ex" fun c => c.ex
    else return false) checked
  return { toGuardStats := stats, falsePositives := falsePositives,
           escapeHatchTriggers := checked.countP fun r => 2 ≤ r.semRejectCount }

def nodeTimingAvg (round : Rounding) (rows : List Entry) : Raising (PyDict String ℚ) :=
  ((nodeTimes (rows.map Entry.toCaseRow)).mergeSort fun a b => a.1 ≤ b.1).mapM fun t =>
    (div t.2.sum t.2.length).map fun mean => (t.1, round.digits 2 mean)

/-- `_compute_pipeline_stats`; without rows the dictionary is empty. -/
def computePipelineStats (round : Rounding) (rows : List Entry) : Raising (Option PipelineStats) :=
  let n := rows.length
  if n = 0 then .ok none
  else do
    let guard ← checkStats round rows "guard_pass" CaseRow.guardPass
    let semCheck ← semCheckStats round rows
    let retried := rows.countP fun r => 0 < r.retryCount
    let retryFixed ← count (fun r =>
      if 0 < r.retryCount then r.item "ex" fun c => c.ex else .ok false) rows
    let avgCandidates ← div ((rows.map fun r => r.candidateCount).sum : ℕ) n
    let decUsed := rows.countP fun r => r.decomposerUsed
    let decEx ← count (fun r => if r.decomposerUsed then r.item "ex" fun c => c.ex else .ok false) rows
    let nodeAvg ← nodeTimingAvg round rows
    let fixRate ← rate round 3 retryFixed retried
    let retryPct ← rate round 3 retried n
    let dist ← candidateDist rows
    let exRate ← rate round 3 decEx decUsed
    let avgSubQuestions ← rate round 1 ((rows.map fun r => r.subQuestionCount).sum : ℕ) n
    return some {
      guard := guard
      semCheck := semCheck
      selfCorrection := ⟨retried, retryFixed, fixRate, retryPct⟩
      voter := ⟨rows.countP fun r => 0 < r.candidateCount, round.digits 2 avgCandidates, dist⟩
      decomposer := ⟨decUsed, decEx, exRate, avgSubQuestions⟩
      nodeTimingAvg := nodeAvg }

/-- A configuration whose loop has ended, with the dictionaries that it has collected. -/
structure Finished (samples : List BirdSample) extends ConfigRun samples where
  entries : List Entry
  entries_rows : entries.map Entry.toCaseRow = rows

variable {samples : List BirdSample}

/-- `case_results.sort(key=lambda c: c["question_id"])`. -/
def sorted (entries : List Entry) : Raising (List Entry) := do
  let _ ← entries.mapM fun r => r.item "question_id" fun c => c.questionId
  return entries.mergeSort fun a b => a.questionId ≤ b.questionId

def eventKeys : List String := ["question_id","db_id","difficulty","retry","timeout_s","action"]

/-- A printed line, by its heading and the numbers in it before they are formatted. -/
structure Line where
  heading : String
  values : List ℚ
  deriving DecidableEq, Repr

/-- `_write_timeout_log`. -/
def writeTimeoutLog (log : List TimeoutEvent) : Raising (List Line) :=
  if log = [] then .ok []
  else do
    let dbs ← log.mapM fun e => item eventKeys "db_id" e.dbId
    let crashes ← count (fun e => item eventKeys "action" (decide (e.action = .crash))) log
    let retries ← count (fun e => item eventKeys "action" (decide (e.action = .retry))) log
    return [⟨"Timeout events", [(retries : ℚ), crashes, dbs.dedup.length]⟩]

/-- `round(total_tokens["total"] / n) if n else 0`. -/
def averageTokens (round : Rounding) (run : Finished samples) : Raising ℤ :=
  let n := samples.length
  if n = 0 then .ok 0
  else do
    let total ← item ["prompt","completion","total"] "total" run.loop.totalTokens.total
    let mean ← div total n
    return round.whole mean

/-- `round(rag_recall_sum / rag_recall_count, 4) if rag_recall_count else None`. -/
def averageRecall (round : Rounding) (sum : ℚ) (recalled : ℕ) : Raising (Option ℚ) :=
  if recalled = 0 then .ok none else (div sum recalled).map fun mean => some (round.digits 4 mean)

/-- `round(avg_tok / (total_time / n), 1) if (n and total_time > 0) else 0`. -/
def tokensPerSecond (round : Rounding) (avgTok : ℤ) (totalTime : ℚ) (n : ℕ) : Raising ℚ :=
  if n ≠ 0 ∧ 0 < totalTime then do
    let perSample ← div totalTime n
    (div avgTok perSample).map (round.digits 1)
  else .ok 0

/-- The entry of `all_results`, of the sorted rows and what was computed before. -/
def configResult (round : Rounding) (run : Finished samples) (rows : List Entry)
    (diff : PyDict String DifficultySummary) (avgTok : ℤ) (stats : Option PipelineStats) :
    Raising ConfigResult := do
  let n := samples.length
  let l := run.loop
  let avgRagRecall ← averageRecall round l.ragRecallSum l.ragRecallCount
  let fbAttempted := rows.countP fun r => r.feedbackEx.isSome
  let fbFixed := rows.countP fun r => decide (r.feedbackFixed = some true)
  let fbFixRate ← rate round 4 fbFixed fbAttempted
  let fbPreEx ← rate round 4 l.passed n
  let fbPostEx ← rate round 4 (l.passed + fbFixed : ℕ) n
  let exRate ← rate round 4 l.passed n
  let avgVes ← rate round 4 l.totalVes n
  let avgTimeS ← rate round 2 l.totalTime n
  let tokensPerS ← tokensPerSecond round avgTok l.totalTime n
  return {
    knowledgeSource := run.setting.cfgKnowledge
    caseResults := rows.map Entry.toCaseRow
    timeoutLog := l.timeoutLog
    passed := l.passed
    crashed := l.crashed
    total := n
    exRate := exRate
    avgVes := avgVes
    avgTimeS := avgTimeS
    totalTokens := l.totalTokens
    avgTokens := avgTok
    tokensPerS := tokensPerS
    diffSummary := diff
    routerTraces := l.routerTraces
    pipelineStats := stats
    avgRagRecall := avgRagRecall
    ragRecallSamples := l.ragRecallCount
    fbAttempted := fbAttempted
    fbFixed := fbFixed
    fbFixRate := fbFixRate
    fbPreEx := fbPreEx
    fbPostEx := fbPostEx }

def resultKeys : List String :=
  ["config","knowledge_source","case_results","timeout_log","passed","crashed","total","ex_rate",
    "avg_ves","avg_time_s","total_tokens","avg_tokens","tokens_per_s","diff_summary",
    "router_traces","pipeline_stats","avg_rag_recall","rag_recall_samples","fb_attempted",
    "fb_fixed","fb_fix_rate","fb_pre_ex","fb_post_ex"]

def printOverall (run : Finished samples) (allResults : PyDict String ConfigResult) :
    Raising (List Line) := do
  let entry ← subscript allResults run.cfgName
  let exPct ← item resultKeys "ex_rate" entry.exRate
  let tps ← item resultKeys "tokens_per_s" entry.tokensPerS
  let avgVes ← item resultKeys "avg_ves" entry.avgVes
  let perSample ← div run.loop.totalTime samples.length
  let crashNote := if run.loop.crashed = 0 then [] else [(run.loop.crashed : ℚ)]
  let overall : Line := ⟨"EX", [(run.loop.passed : ℚ), samples.length, exPct, avgVes, perSample,
    entry.avgTokens, tps] ++ crashNote⟩
  return overall :: match entry.avgRagRecall with
    | none => []
    | some share => [⟨"RAG Table Recall", [share, entry.ragRecallSamples, samples.length]⟩]

def checkKeys : List String :=
  ["total_checked","passed","rejected","reject_rate","false_negatives","false_neg_rate"]

def semCheckKeys : List String := checkKeys ++ ["false_positives","escape_hatch_triggers"]

/-- The five numbers that are printed of the guard and of the semantic check. -/
def checkValues (keys : List String) (g : GuardStats) : Raising (List ℚ) := do
  let rejected ← item keys "rejected" g.rejected
  let total ← item keys "total_checked" g.totalChecked
  let rejectRate ← item keys "reject_rate" g.rejectRate
  let missed ← item keys "false_negatives" g.falseNegatives
  let falseNegRate ← item keys "false_neg_rate" g.falseNegRate
  return [(rejected : ℚ), total, rejectRate, missed, falseNegRate]

def selfCorrectionKeys : List String := ["retried","retry_fixed","fix_rate","retry_pct"]

/-- `c["retried"]` is read also where the statistics are empty. -/
def printSelfCorrection (stats : Option PipelineStats) : Raising (List Line) :=
  match stats with
  | none => .error (.keyError "retried")
  | some s => do
    let c := s.selfCorrection
    let retried ← item selfCorrectionKeys "retried" c.retried
    if 0 < retried then
      let pct ← item selfCorrectionKeys "retry_pct" c.retryPct
      let fixed ← item selfCorrectionKeys "retry_fixed" c.retryFixed
      let fixRate ← item selfCorrectionKeys "fix_rate" c.fixRate
      return [⟨"Self-Correction", [(retried : ℚ), pct, fixed, fixRate]⟩]
    else return []

def voterKeys : List String := ["multi_enabled_samples","avg_candidates","candidate_distribution"]

def decomposerKeys : List String := ["used","ex","ex_rate","avg_sub_questions"]

def guardLines (s : PipelineStats) : Raising (List Line) :=
  (checkValues checkKeys s.guard).map fun values => [⟨"Guard", values⟩]

def semCheckLines (s : PipelineStats) : Raising (List Line) := do
  let values ← checkValues semCheckKeys s.semCheck.toGuardStats
  let escapes ← item semCheckKeys "escape_hatch_triggers" s.semCheck.escapeHatchTriggers
  return [⟨"SemCheck", values ++ [(escapes : ℚ)]⟩]

def voterLines (s : PipelineStats) : Raising (List Line) :=
  if 0 < s.voter.multiEnabledSamples then do
    let avg ← item voterKeys "avg_candidates" s.voter.avgCandidates
    let dist := s.voter.candidateDistribution
    return [⟨"Voter", [avg, dist.one, dist.two, dist.three]⟩]
  else .ok []

def decomposerLines (s : PipelineStats) : Raising (List Line) :=
  if 0 < s.decomposer.used then do
    let used ← item decomposerKeys "used" s.decomposer.used
    let exRate ← item decomposerKeys "ex_rate" s.decomposer.exRate
    let avg ← item decomposerKeys "avg_sub_questions" s.decomposer.avgSubQuestions
    return [⟨"Decomposer", [(used : ℚ), exRate, avg]⟩]
  else .ok []

/-- A section that is read with a default prints nothing where it is missing. -/
def section_ (stats : Option PipelineStats) (lines : PipelineStats → Raising (List Line)) :
    Raising (List Line) :=
  match stats with
  | none => .ok []
  | some s => lines s

/-- The summary of the modules. -/
def printPipeline (stats : Option PipelineStats) : Raising (List Line) := do
  let guard ← section_ stats guardLines
  let semCheck ← section_ stats semCheckLines
  let selfCorrection ← printSelfCorrection stats
  let voter ← section_ stats voterLines
  let decomposer ← section_ stats decomposerLines
  return guard ++ semCheck ++ selfCorrection ++ voter ++ decomposer

/-- The line of the evidence feedback. -/
def printFeedback (r : ConfigResult) : List Line :=
  if 0 < r.fbAttempted then
    [⟨"Evidence Feedback", [(r.fbFixed : ℚ), r.fbAttempted, r.fbFixRate, r.fbPreEx, r.fbPostEx]⟩]
  else []

/-- The graph time, the match time and the last node of every sample that spent time in the graph. -/
def timings (rows : List Entry) : List (ℚ × ℚ × String) :=
  (rows.filter fun r => 0 < r.elapsedGraphS).map fun r =>
    (r.elapsedGraphS, r.elapsedExecmatchS, r.lastGraphNode)

/-- The split between the graph and the match. The two means are rounded before they are added,
and nothing guards the sum that divides. -/
def printTiming (round : Rounding) (rows : List Entry) : Raising (List Line) :=
  let timings := timings rows
  if timings = [] then .ok []
  else do
    let meanGraph ← div (timings.map fun t => t.1).sum timings.length
    let meanExec ← div (timings.map fun t => t.2.1).sum timings.length
    let avgGraph := round.digits 2 meanGraph
    let avgExec := round.digits 4 meanExec
    let share ← div avgGraph (avgGraph + avgExec)
    let slowest := (timings.mergeSort fun s t => t.2.1 ≤ s.2.1).take 3
    let slow := (slowest.filter fun t => 1 / 2 < t.2.1).map fun (graph, exec, node) =>
      (⟨"slow exec_match, last_node=" ++ node, [exec, graph]⟩ : Line)
    return ⟨"Timing", [avgGraph, avgExec, share * 100]⟩ :: slow

/-- The four nodes with the longest mean time. -/
def printNodeTime (stats : Option PipelineStats) : List Line :=
  let nodeTimes := (stats.map PipelineStats.nodeTimingAvg).getD []
  if nodeTimes = [] then []
  else
    let topNodes := (nodeTimes.mergeSort fun s t => t.2 ≤ s.2).take 4
    [⟨"Node time: " ++ Py.join " | " (topNodes.map Prod.fst), topNodes.map Prod.snd⟩]

/-- `_write_slow_log`. -/
def writeSlowLog (rows : List Entry) : Raising (List Line) :=
  if rows = [] then .ok []
  else do
    let slow := (rows.mergeSort fun r s => s.elapsedS ≤ r.elapsedS).take 10
    let times ← slow.mapM fun r => do
      let _ ← r.item "question_id" fun c => c.questionId
      let _ ← r.item "db_id" fun c => c.dbId
      let _ ← r.item "difficulty" fun c => c.difficulty
      let elapsed ← r.item "elapsed_s" fun c => c.elapsedS
      let _ ← r.item "ex" fun c => c.ex
      let _ ← r.item "ves" fun c => c.ves
      return elapsed
    let avgSlow ← div times.sum times.length
    return [⟨"Slowest 10 avg", [avgSlow]⟩]

/-- `_write_trace_log`. -/
def writeTraceLog (rows : List Entry) : Raising (List Line) := do
  let traces ← rows.mapM fun r => do
    let _ ← r.item "question_id" fun c => c.questionId
    let _ ← r.item "db_id" fun c => c.dbId
    let _ ← r.item "difficulty" fun c => c.difficulty
    let _ ← r.item "ex" fun c => c.ex
    return r.traceEvents.length
  return [⟨"Trace events", [(traces.sum : ℚ), rows.length]⟩]

/-- What follows the loop, up to the checkpoint: the results that it saves, and the lines. -/
def afterLoop (round : Rounding) (run : Finished samples) (allResults : PyDict String ConfigResult) :
    Raising (PyDict String ConfigResult × List Line) := do
  let rows ← sorted run.entries
  let diff ← diffSummary round run.loop.diffStats
  let avgTok ← averageTokens round run
  let stats ← computePipelineStats round rows
  let timeoutLines ← writeTimeoutLog run.loop.timeoutLog
  let r ← configResult round run rows diff avgTok stats
  let allResults := allResults.set run.cfgName r
  let overall ← printOverall run allResults
  let pipeline ← printPipeline stats
  let timing ← printTiming round rows
  let slowLines ← writeSlowLog rows
  let traceLines ← writeTraceLog rows
  return (allResults, timeoutLines ++ overall ++ pipeline ++ printFeedback r ++ timing ++
    printNodeTime stats ++ slowLines ++ traceLines)

section

variable {round : Rounding}

theorem Entry.item_ok {α : Type} (r : Entry) {key : String} (field : CaseRow → α)
    (common : key ∈ commonKeys) : r.item key field = .ok (field r.toCaseRow) := by
  refine Raising.item_ok _ ?_
  cases r.producer with
  | evaluated => exact List.mem_append_left _ common
  | abandoned => exact common

@[simp] theorem rate_ok (d : ℕ) (a : ℚ) (b : ℕ) : rate round d a b = .ok (round.rate d a b) := by
  unfold rate Rounding.rate
  split
  · rfl
  next positive => rw [div_ok a (Nat.cast_ne_zero.mpr positive), Raising.ok_map]

theorem diffSummary_ok (diffStats : String → Tally) :
    diffSummary round diffStats = .ok (ConfigResults.diffSummary round diffStats) := by
  have totals : (difficulties.mapM fun d => item tallyKeys "total" (d, (diffStats d).total)) =
      .ok (difficulties.map fun d => (d, (diffStats d).total)) :=
    mapM_ok fun d _ => item_ok _ (by decide)
  rw [diffSummary, totals, Raising.ok_bind]
  refine (mapM_ok (g := fun entry => (entry.1, ⟨(diffStats entry.1).total, (diffStats entry.1).passed,
    round.digits 4 ((diffStats entry.1).passed / (diffStats entry.1).total),
    round.digits 4 ((diffStats entry.1).vesSum / (diffStats entry.1).total),
    round.whole ((diffStats entry.1).tokens / (diffStats entry.1).total),
    round.digits 2 ((diffStats entry.1).time / (diffStats entry.1).total)⟩)) ?_).trans ?_
  · rintro ⟨d, total⟩ member
    obtain ⟨from_, positive⟩ := List.mem_filter.mp member
    obtain ⟨d', -, same⟩ := List.mem_map.mp from_
    obtain ⟨rfl, rfl⟩ := Prod.mk.inj same
    have nonzero : ((diffStats d').total : ℚ) ≠ 0 :=
      Nat.cast_ne_zero.mpr (Nat.pos_iff_ne_zero.mp (of_decide_eq_true positive))
    have key (name : String) (present : name ∈ tallyKeys) {α : Type} (value : α) :
        item tallyKeys name value = .ok value := item_ok value present
    simp only [key "total" (by decide), key "passed" (by decide), key "ves_sum" (by decide),
      key "tokens" (by decide), key "time" (by decide), div_ok _ nonzero, Raising.ok_bind]
    rfl
  · rw [List.filter_map, List.map_map]
    rfl

theorem bump_three {dist : CandidateDist} {n : ℕ} (many : 3 ≤ n) :
    CandidateDist.bump dist n = { dist with three := dist.three + 1 } := by
  rw [CandidateDist.bump, if_neg (by omega), if_neg (by omega)]

/-- The counts are those of the rows, whatever was counted before. -/
theorem bumped_counts (rows : List CaseRow) (dist : CandidateDist) :
    rows.foldl (fun dist r => if 1 ≤ r.candidateCount then
      CandidateDist.bump dist (min r.candidateCount 3) else dist) dist =
      ⟨dist.one + (ConfigResults.candidateDist rows).one,
        dist.two + (ConfigResults.candidateDist rows).two,
        dist.three + (ConfigResults.candidateDist rows).three⟩ := by
  induction rows generalizing dist with
  | nil => rfl
  | cons r rest ih =>
    rw [List.foldl_cons, ih]
    simp only [ConfigResults.candidateDist, List.countP_cons]
    obtain zero | one | two | three : r.candidateCount = 0 ∨ r.candidateCount = 1 ∨
        r.candidateCount = 2 ∨ 3 ≤ r.candidateCount := by omega
    · simp [zero]
    · simp [one, CandidateDist.bump]
      omega
    · simp [two, CandidateDist.bump]
      omega
    · have capped : min r.candidateCount 3 = 3 := by omega
      rw [if_pos (by omega), capped, bump_three le_rfl]
      simp [three, show r.candidateCount ≠ 1 by omega, show r.candidateCount ≠ 2 by omega]
      omega

theorem candidateDist_ok (rows : List Entry) :
    candidateDist rows = .ok (ConfigResults.candidateDist (rows.map Entry.toCaseRow)) := by
  have turns := foldlM_ok (l := rows) (⟨0, 0, 0⟩ : CandidateDist)
    (f := fun dist r => if 1 ≤ r.candidateCount then
      item distKeys (toString (min r.candidateCount 3)) (CandidateDist.bump dist (min r.candidateCount 3))
      else .ok dist)
    (g := fun dist r => if 1 ≤ r.candidateCount then
      CandidateDist.bump dist (min r.candidateCount 3) else dist) ?_
  · refine turns.trans (congrArg Except.ok ?_)
    have counts := bumped_counts (rows.map Entry.toCaseRow) ⟨0, 0, 0⟩
    rw [List.foldl_map] at counts
    rw [counts]
    simp
  · intro dist r _
    split
    next positive =>
      refine item_ok _ ?_
      obtain one | two | three : min r.candidateCount 3 = 1 ∨ min r.candidateCount 3 = 2 ∨
          min r.candidateCount 3 = 3 := by omega
      · rw [one]; decide
      · rw [two]; decide
      · rw [three]; decide
    next => rfl

theorem checkStats_ok (rows : List Entry) {key : String} (common : key ∈ commonKeys)
    (verdict : CaseRow → Option Bool) : checkStats round rows key verdict =
      .ok (ConfigResults.checkStats round (rows.map Entry.toCaseRow) verdict) := by
  have passed (l : List Entry) : count (fun r => r.item key fun c => decide (verdict c = some true)) l =
      .ok (l.countP fun r => decide (verdict r.toCaseRow = some true)) :=
    count_ok fun r _ => r.item_ok _ common
  have missed (l : List Entry) : count (fun r => do
      if ← r.item key fun c => decide (verdict c = some true) then
        if ← r.item "ex" fun c => !c.ex then return decide (r.genSql ≠ "") else return false
      else return false) l =
      .ok (l.countP fun r => verdict r.toCaseRow = some true ∧ r.ex = false ∧ r.genSql ≠ "") := by
    refine count_ok fun r _ => ?_
    rw [r.item_ok _ common, r.item_ok _ (by decide)]
    by_cases verdict r.toCaseRow = some true <;> cases r.ex <;> simp_all <;> rfl
  simp only [checkStats, passed, missed, rate_ok, Raising.ok_bind]
  simp only [ConfigResults.checkStats, List.filter_map, List.length_map, List.countP_map]
  rfl

theorem semCheckStats_ok (rows : List Entry) : semCheckStats round rows =
    .ok (ConfigResults.semCheckStats round (rows.map Entry.toCaseRow)) := by
  have rejected (l : List Entry) : count (fun r => do
      if ← r.item "semantic_pass" fun c => decide (c.semanticPass = some false) then
        r.item "ex" fun c => c.ex
      else return false) l =
      .ok (l.countP fun r => r.semanticPass = some false ∧ r.ex = true) := by
    refine count_ok fun r _ => ?_
    rw [r.item_ok _ (by decide), r.item_ok _ (by decide)]
    by_cases r.semanticPass = some false <;> cases r.ex <;> simp_all <;> rfl
  simp only [semCheckStats, checkStats_ok rows (by decide : "semantic_pass" ∈ commonKeys), rejected,
    Raising.ok_bind]
  refine congrArg Except.ok ?_
  simp only [ConfigResults.semCheckStats, List.countP_map, List.countP_filter]
  congr 1
  · refine List.countP_congr fun r _ => ?_
    simp only [Function.comp_apply, Bool.and_eq_true, decide_eq_true_eq]
    constructor
    · exact And.left
    · exact fun rejected => ⟨rejected, by rw [rejected.1]; rfl⟩
  · refine List.countP_congr fun r _ => ?_
    simp only [Function.comp_apply, Bool.and_eq_true, decide_eq_true_eq]
    exact and_comm

/-- A node is among the times by one of its durations. -/
theorem nodeTimes_nonempty (rows : List CaseRow) : ∀ t ∈ nodeTimes rows, t.2 ≠ [] := by
  have kept (durations : List (String × ℚ)) (times : PyDict String (List ℚ))
      (nonempty : ∀ t ∈ times, t.2 ≠ []) : ∀ t ∈ durations.foldl
        (fun times t => times.set t.1 ((times.lookup t.1).getD [] ++ [t.2])) times, t.2 ≠ [] := by
    induction durations generalizing times with
    | nil => exact nonempty
    | cons duration rest ih =>
      refine ih _ fun t member => ?_
      rcases PyDict.mem_set member with rfl | old
      · exact List.append_ne_nil_of_right_ne_nil _ (List.cons_ne_nil _ _)
      · exact nonempty t old
  exact kept _ [] nofun

theorem nodeTimingAvg_ok (rows : List Entry) : nodeTimingAvg round rows =
    .ok (ConfigResults.nodeTimingAvg round (rows.map Entry.toCaseRow)) := by
  refine mapM_ok fun t member => ?_
  have nonempty := nodeTimes_nonempty _ t (List.mem_mergeSort.mp member)
  have nonzero : (t.2.length : ℚ) ≠ 0 := Nat.cast_ne_zero.mpr (mt List.length_eq_zero_iff.mp nonempty)
  rw [div_ok _ nonzero, Raising.ok_map]

theorem computePipelineStats_ok (rows : List Entry) : computePipelineStats round rows =
    .ok (ConfigResults.computePipelineStats round (rows.map Entry.toCaseRow)) := by
  simp only [computePipelineStats, ConfigResults.computePipelineStats, List.length_map]
  split
  · rfl
  next some_ =>
    have fixed : count (fun r => if 0 < r.retryCount then r.item "ex" fun c => c.ex else .ok false) rows =
        .ok (rows.countP fun r => 0 < r.retryCount ∧ r.ex = true) := by
      refine count_ok fun r _ => ?_
      rw [r.item_ok _ (by decide)]
      by_cases 0 < r.retryCount <;> simp_all
    have right : count (fun r => if r.decomposerUsed then r.item "ex" fun c => c.ex else .ok false) rows =
        .ok (rows.countP fun r => r.decomposerUsed && r.ex) := by
      refine count_ok fun r _ => ?_
      rw [r.item_ok _ (by decide)]
      by_cases r.decomposerUsed <;> simp_all
    simp only [checkStats_ok rows (by decide : "guard_pass" ∈ commonKeys), semCheckStats_ok, fixed, right,
      nodeTimingAvg_ok, candidateDist_ok, rate_ok, div_ok _ (Nat.cast_ne_zero.mpr some_), Raising.ok_bind]
    simp only [List.countP_map, List.map_map]
    rfl

/-- The rows in their order, and the rows' measurements in that order. -/
theorem sorted_ok (entries : List Entry) : ∃ rows, sorted entries = .ok rows ∧ rows.Perm entries ∧
    rows.map Entry.toCaseRow =
      (entries.map Entry.toCaseRow).mergeSort fun a b => a.questionId ≤ b.questionId := by
  refine ⟨_, ?_, List.mergeSort_perm entries fun a b => a.questionId ≤ b.questionId, ?_⟩
  · rw [sorted, mapM_ok fun r _ => r.item_ok _ (by decide)]
    rfl
  · exact List.map_mergeSort fun _ _ _ _ => rfl

theorem writeTimeoutLog_ok (log : List TimeoutEvent) : ∃ lines, writeTimeoutLog log = .ok lines := by
  unfold writeTimeoutLog
  split
  · exact ⟨_, rfl⟩
  · have key (name : String) (present : name ∈ eventKeys) {α : Type} (value : α) :
        item eventKeys name value = .ok value := item_ok value present
    rw [mapM_ok fun e _ => key "db_id" (by decide) e.dbId,
      count_ok fun e _ => key "action" (by decide) (decide (e.action = .crash)),
      count_ok fun e _ => key "action" (by decide) (decide (e.action = .retry))]
    exact ⟨_, rfl⟩

variable {run : Finished samples}

theorem averageTokens_ok : averageTokens round run = .ok (if samples.length = 0 then 0
    else round.whole (run.loop.totalTokens.total / samples.length)) := by
  unfold averageTokens
  dsimp only
  split
  · rfl
  next many => rw [item_ok _ (by decide), Raising.ok_bind, div_ok _ (Nat.cast_ne_zero.mpr many)]; rfl

theorem averageRecall_ok (sum : ℚ) (recalled : ℕ) : averageRecall round sum recalled =
    .ok (if recalled = 0 then none else some (round.digits 4 (sum / recalled))) := by
  unfold averageRecall
  split
  · rfl
  next counted => rw [div_ok _ (Nat.cast_ne_zero.mpr counted), Raising.ok_map]

theorem tokensPerSecond_ok {n : ℕ} (many : n ≠ 0) (avgTok : ℤ) (totalTime : ℚ) :
    tokensPerSecond round avgTok totalTime n =
      .ok (if 0 < totalTime then round.digits 1 (avgTok / (totalTime / n)) else 0) := by
  have nonzero : (n : ℚ) ≠ 0 := Nat.cast_ne_zero.mpr many
  unfold tokensPerSecond
  by_cases positive : 0 < totalTime
  · rw [if_pos ⟨many, positive⟩, if_pos positive, div_ok _ nonzero, Raising.ok_bind,
      div_ok _ (div_ne_zero positive.ne' nonzero), Raising.ok_map]
  · rw [if_neg fun both => positive both.2, if_neg positive]

/-- What the code computes is the configuration's result. -/
theorem configResult_ok {rows : List Entry} (many : samples ≠ []) (order : rows.map Entry.toCaseRow =
      run.rows.mergeSort fun a b => a.questionId ≤ b.questionId) :
    ∃ r, configResult round run rows (ConfigResults.diffSummary round run.loop.diffStats)
        (if samples.length = 0 then 0 else round.whole (run.loop.totalTokens.total / samples.length))
        (ConfigResults.computePipelineStats round (rows.map Entry.toCaseRow)) = .ok r ∧
      run.result round = some r := by
  have length : samples.length ≠ 0 := mt List.length_eq_zero_iff.mp many
  refine ⟨_, by simp only [configResult, averageRecall_ok, tokensPerSecond_ok length, rate_ok,
    Raising.ok_bind]; rfl, ?_⟩
  simp only [ConfigRun.result, if_neg length, order]
  have attempted (p : CaseRow → Bool) :
      (run.rows.mergeSort fun a b => a.questionId ≤ b.questionId).countP p =
      rows.countP fun r => p r.toCaseRow := by
    rw [← order, List.countP_map]
    rfl
  simp only [attempted]

theorem printOverall_ok {allResults : PyDict String ConfigResult} {r : ConfigResult}
    (many : samples ≠ []) (stored : allResults.lookup run.cfgName = some r) :
    ∃ lines, printOverall run allResults = .ok lines := by
  have nonzero : (samples.length : ℚ) ≠ 0 :=
    Nat.cast_ne_zero.mpr (mt List.length_eq_zero_iff.mp many)
  have found : subscript allResults run.cfgName = .ok r := by rw [subscript, stored]
  have key (name : String) (present : name ∈ resultKeys) (value : ℚ) :
      item resultKeys name value = .ok value := item_ok value present
  simp only [printOverall, found, key "ex_rate" (by decide), key "tokens_per_s" (by decide),
    key "avg_ves" (by decide), div_ok _ nonzero, Raising.ok_bind]
  exact ⟨_, rfl⟩

theorem checkValues_ok {keys : List String} (all : ∀ key ∈ checkKeys, key ∈ keys) (g : GuardStats) :
    checkValues keys g =
      .ok [(g.rejected : ℚ), g.totalChecked, g.rejectRate, g.falseNegatives, g.falseNegRate] := by
  have key (name : String) (present : name ∈ checkKeys) {α : Type} (value : α) :
      item keys name value = .ok value := item_ok value (all name present)
  simp only [checkValues, key "rejected" (by decide), key "total_checked" (by decide),
    key "reject_rate" (by decide), key "false_negatives" (by decide), key "false_neg_rate" (by decide),
    Raising.ok_bind]
  rfl

theorem guardLines_ok (s : PipelineStats) : ∃ lines, guardLines s = .ok lines := by
  rw [guardLines, checkValues_ok fun key member => member]
  exact ⟨_, rfl⟩

theorem semCheckLines_ok (s : PipelineStats) : ∃ lines, semCheckLines s = .ok lines := by
  have contained : ∀ key ∈ checkKeys, key ∈ semCheckKeys :=
    fun key member => List.mem_append_left _ member
  rw [semCheckLines, checkValues_ok contained, Raising.ok_bind, item_ok _ (by decide)]
  exact ⟨_, rfl⟩

theorem selfCorrectionLines_ok (s : PipelineStats) :
    ∃ lines, printSelfCorrection (some s) = .ok lines := by
  have key (name : String) (present : name ∈ selfCorrectionKeys) {α : Type} (value : α) :
      item selfCorrectionKeys name value = .ok value := item_ok value present
  simp only [printSelfCorrection, key "retried" (by decide), key "retry_pct" (by decide),
    key "retry_fixed" (by decide), key "fix_rate" (by decide), Raising.ok_bind]
  split <;> exact ⟨_, rfl⟩

theorem voterLines_ok (s : PipelineStats) : ∃ lines, voterLines s = .ok lines := by
  rw [voterLines, item_ok _ (by decide)]
  split <;> exact ⟨_, rfl⟩

theorem decomposerLines_ok (s : PipelineStats) : ∃ lines, decomposerLines s = .ok lines := by
  have key (name : String) (present : name ∈ decomposerKeys) {α : Type} (value : α) :
      item decomposerKeys name value = .ok value := item_ok value present
  simp only [decomposerLines, key "used" (by decide), key "ex_rate" (by decide),
    key "avg_sub_questions" (by decide), Raising.ok_bind]
  split <;> exact ⟨_, rfl⟩

/-- The statistics of a configuration with samples have every section. -/
theorem printPipeline_ok {stats : Option PipelineStats} (present : stats.isSome = true) :
    ∃ lines, printPipeline stats = .ok lines := by
  obtain ⟨s, rfl⟩ := Option.isSome_iff_exists.mp present
  obtain ⟨guard, guarded⟩ := guardLines_ok s
  obtain ⟨semCheck, checked⟩ := semCheckLines_ok s
  obtain ⟨selfCorrection, corrected⟩ := selfCorrectionLines_ok s
  obtain ⟨voter, voted⟩ := voterLines_ok s
  obtain ⟨decomposer, decomposed⟩ := decomposerLines_ok s
  refine ⟨guard ++ semCheck ++ selfCorrection ++ voter ++ decomposer, ?_⟩
  simp only [printPipeline, section_, guarded, checked, corrected, voted, decomposed, Raising.ok_bind]
  rfl

theorem writeSlowLog_ok (rows : List Entry) : ∃ lines, writeSlowLog rows = .ok lines := by
  unfold writeSlowLog
  dsimp only
  split
  · exact ⟨_, rfl⟩
  next some_ =>
    rw [mapM_ok (g := fun r => r.elapsedS) fun r _ => by
      simp only [r.item_ok _ (by decide : "question_id" ∈ commonKeys),
        r.item_ok _ (by decide : "db_id" ∈ commonKeys),
        r.item_ok _ (by decide : "difficulty" ∈ commonKeys),
        r.item_ok _ (by decide : "elapsed_s" ∈ commonKeys), r.item_ok _ (by decide : "ex" ∈ commonKeys),
        r.item_ok _ (by decide : "ves" ∈ commonKeys), Raising.ok_bind]
      rfl]
    have positive : 0 < rows.length := List.length_pos_iff.mpr some_
    rw [Raising.ok_bind, div_ok]
    · exact ⟨_, rfl⟩
    · rw [List.length_map, List.length_take, List.length_mergeSort]
      exact Nat.cast_ne_zero.mpr (by omega)

theorem writeTraceLog_ok (rows : List Entry) : ∃ lines, writeTraceLog rows = .ok lines := by
  unfold writeTraceLog
  rw [mapM_ok (g := fun r => r.traceEvents.length) fun r _ => by
    simp only [r.item_ok _ (by decide : "question_id" ∈ commonKeys),
      r.item_ok _ (by decide : "db_id" ∈ commonKeys),
      r.item_ok _ (by decide : "difficulty" ∈ commonKeys),
      r.item_ok _ (by decide : "ex" ∈ commonKeys), Raising.ok_bind]
    rfl]
  exact ⟨_, rfl⟩

/-- `round` of rationals: to the nearest, and from the middle to the even neighbour. -/
def decimal : Rounding := ⟨fun d q => Double.nearest (q * 10 ^ d) / 10 ^ d, Double.nearest⟩

/-- The graph time of the rows with any, the match time of the same rows, and their number. -/
def graphTime (rows : List Entry) : ℚ := ((timings rows).map fun t => t.1).sum

def matchTime (rows : List Entry) : ℚ := ((timings rows).map fun t => t.2.1).sum

theorem digits_eq_zero_iff {q : ℚ} (d : ℕ) (nonneg : 0 ≤ q) :
    decimal.digits d q = 0 ↔ q * 10 ^ d ≤ 1 / 2 := by
  have scaled : 0 ≤ q * 10 ^ d := mul_nonneg nonneg (by positivity)
  change (Double.nearest (q * 10 ^ d) : ℚ) / 10 ^ d = 0 ↔ _
  rw [← Double.nearest_eq_zero_iff scaled, div_eq_zero_iff, Int.cast_eq_zero, or_iff_left]
  positivity

theorem digits_nonneg {q : ℚ} (d : ℕ) (nonneg : 0 ≤ q) : 0 ≤ decimal.digits d q := by
  have scaled : 0 ≤ q * 10 ^ d := mul_nonneg nonneg (by positivity)
  have whole : (0 : ℚ) ≤ Double.nearest (q * 10 ^ d) := by exact_mod_cast Double.nearest_nonneg scaled
  exact div_nonneg whole (by positivity)

/-- The two means, as they are rounded. -/
def avgGraph (round : Rounding) (rows : List Entry) : ℚ :=
  round.digits 2 (graphTime rows / (timings rows).length)

def avgExec (round : Rounding) (rows : List Entry) : ℚ :=
  round.digits 4 (matchTime rows / (timings rows).length)

theorem printTiming_eq {rows : List Entry} (some_ : timings rows ≠ []) : ∃ f : ℚ → List Line,
    printTiming round rows =
      (div (avgGraph round rows) (avgGraph round rows + avgExec round rows)).map f := by
  have nonzero : ((timings rows).length : ℚ) ≠ 0 :=
    Nat.cast_ne_zero.mpr (mt List.length_eq_zero_iff.mp some_)
  simp only [printTiming, if_neg some_, div_ok _ nonzero, Raising.ok_bind]
  exact ⟨_, rfl⟩

/-- Both means are rounded to zero exactly where the sums are as small as that. -/
theorem means_zero_iff {rows : List Entry} (some_ : timings rows ≠ [])
    (times : ∀ r ∈ rows, 0 ≤ r.elapsedGraphS ∧ 0 ≤ r.elapsedExecmatchS) :
    avgGraph decimal rows + avgExec decimal rows = 0 ↔
      graphTime rows ≤ (timings rows).length / 200 ∧
        matchTime rows ≤ (timings rows).length / 20000 := by
  have positive : (0 : ℚ) < (timings rows).length := by exact_mod_cast List.length_pos_iff.mpr some_
  have graph : 0 ≤ graphTime rows / (timings rows).length := by
    refine div_nonneg (List.sum_nonneg fun time member => ?_) positive.le
    simp only [timings, List.map_map, List.mem_map] at member
    obtain ⟨r, inside, rfl⟩ := member
    exact (times r (List.mem_of_mem_filter inside)).1
  have exec : 0 ≤ matchTime rows / (timings rows).length := by
    refine div_nonneg (List.sum_nonneg fun time member => ?_) positive.le
    simp only [timings, List.map_map, List.mem_map] at member
    obtain ⟨r, inside, rfl⟩ := member
    exact (times r (List.mem_of_mem_filter inside)).2
  rw [avgGraph, avgExec, add_eq_zero_iff_of_nonneg (digits_nonneg 2 graph) (digits_nonneg 4 exec),
    digits_eq_zero_iff 2 graph, digits_eq_zero_iff 4 exec, ← le_div_iff₀ (by positivity),
    ← le_div_iff₀ (by positivity), div_le_iff₀ positive, div_le_iff₀ positive]
  constructor <;> rintro ⟨few, fast⟩ <;> constructor <;> linarith

/-- The split is printed unless both means are rounded to zero. -/
theorem printTiming_iff {rows : List Entry}
    (times : ∀ r ∈ rows, 0 ≤ r.elapsedGraphS ∧ 0 ≤ r.elapsedExecmatchS) :
    (∃ lines, printTiming decimal rows = .ok lines) ↔
      timings rows = [] ∨ (timings rows).length / 200 < graphTime rows ∨
        (timings rows).length / 20000 < matchTime rows := by
  by_cases none : timings rows = []
  · simp [printTiming, none]
  obtain ⟨f, printed⟩ := @printTiming_eq decimal rows none
  have zero := means_zero_iff none times
  rw [printed, or_iff_right none]
  by_cases nothing : avgGraph decimal rows + avgExec decimal rows = 0
  · rw [nothing]
    refine iff_of_false (fun ⟨lines, ok⟩ => by cases ok) ?_
    obtain ⟨few, fast⟩ := zero.mp nothing
    rintro (slow | slow) <;> linarith
  · rw [div_ok _ nothing]
    refine iff_of_true ⟨_, rfl⟩ ?_
    by_contra small
    rw [not_or, not_lt, not_lt] at small
    exact nothing (zero.mpr small)

/-- Of all that follows the loop only the split can raise, and what is stored before it is the
configuration's result. -/
theorem afterLoop_eq (many : samples ≠ []) (allResults : PyDict String ConfigResult) :
    ∃ rows r, ∃ f : List Line → List Line, rows.Perm run.entries ∧ run.result round = some r ∧
      afterLoop round run allResults =
        (printTiming round rows).map fun timing => (allResults.set run.cfgName r, f timing) := by
  obtain ⟨rows, inOrder, perm, same⟩ := sorted_ok run.entries
  rw [run.entries_rows] at same
  obtain ⟨timeouts, timedOut⟩ := writeTimeoutLog_ok run.loop.timeoutLog
  obtain ⟨r, stored, result⟩ := @configResult_ok samples round run rows many same
  obtain ⟨overall, printed⟩ := @printOverall_ok samples run _ r many
    (PyDict.lookup_set_self allResults run.cfgName r)
  have stats : (ConfigResults.computePipelineStats round (rows.map Entry.toCaseRow)).isSome = true := by
    refine computePipelineStats_isSome round fun empty => many ?_
    rw [← List.length_eq_zero_iff, ← run.rows_length, ← List.length_mergeSort run.rows, ← same, empty,
      List.length_nil]
  obtain ⟨pipeline, summarized⟩ := printPipeline_ok stats
  obtain ⟨slowLines, slow⟩ := writeSlowLog_ok rows
  obtain ⟨traceLines, traced⟩ := writeTraceLog_ok rows
  refine ⟨rows, r, fun timing => timeouts ++ overall ++ pipeline ++ printFeedback r ++ timing ++
    printNodeTime (ConfigResults.computePipelineStats round (rows.map Entry.toCaseRow)) ++ slowLines ++
    traceLines, perm, result, ?_⟩
  simp only [afterLoop, inOrder, diffSummary_ok, averageTokens_ok, computePipelineStats_ok, timedOut,
    stored, printed, summarized, slow, traced, Raising.ok_bind]
  cases printTiming round rows <;> rfl

end

/-- A configuration with samples reaches its checkpoint exactly where no sample spent time in the
graph, or the samples that did spent more than 5 ms in the graph or 0.05 ms in the match on average. -/
theorem checkpointed_iff (run : Finished samples) (many : samples ≠ [])
    (times : ∀ r ∈ run.entries, 0 ≤ r.elapsedGraphS ∧ 0 ≤ r.elapsedExecmatchS)
    (allResults : PyDict String ConfigResult) :
    (∃ saved, afterLoop decimal run allResults = .ok saved) ↔
      timings run.entries = [] ∨ (timings run.entries).length / 200 < graphTime run.entries ∨
        (timings run.entries).length / 20000 < matchTime run.entries := by
  obtain ⟨rows, r, f, perm, -, computed⟩ := @afterLoop_eq samples decimal run many allResults
  have reordered : (timings rows).Perm (timings run.entries) := (perm.filter _).map _
  have graph : graphTime rows = graphTime run.entries := (reordered.map _).sum_eq
  have exec : matchTime rows = matchTime run.entries := (reordered.map _).sum_eq
  have empty : timings rows = [] ↔ timings run.entries = [] := by
    rw [← List.length_eq_zero_iff, reordered.length_eq, List.length_eq_zero_iff]
  rw [← graph, ← exec, ← reordered.length_eq, ← empty,
    ← printTiming_iff fun r member => times r (perm.mem_iff.mp member), computed]
  cases printTiming decimal rows with
  | error e => exact iff_of_false (fun ⟨_, ok⟩ => by cases ok) (fun ⟨_, ok⟩ => by cases ok)
  | ok lines => exact iff_of_true ⟨_, rfl⟩ ⟨_, rfl⟩

def briefSamples : List BirdSample := [⟨"1", "shop", "simple", "SELECT 1"⟩]

/-- Of a graph that raises after a millisecond. -/
def unanswered : Measured where
  ex := false
  ves := 0
  detail := "ConnectionError: no route to the model"
  genSql := ""
  tokenUsage := .zero
  elapsedS := 0
  routerScore := none
  routerMethod := none
  routerComplexity := none
  ragRecall := none

def briefSetting : Setting (Fin briefSamples.length) := setting briefSamples "rag" 1 fun _ => 0

def briefLoop : Loop (Fin briefSamples.length) :=
  iteration briefSetting ⟨[(0, .ok unanswered)], 1⟩ (start briefSetting (List.finRange _))

/-- The entry of a result whose graph ran for so long and was matched for so long. -/
def measured (graph exec : ℚ) (r : CaseResult) : Entry where
  toCaseResult := r
  elapsedGraphS := graph
  elapsedExecmatchS := exec
  producer := .evaluated
  feedback := nofun

def briefRun (graph exec : ℚ) : Finished briefSamples where
  cfgName := "R2_RAG"
  setting := briefSetting
  loop := briefLoop
  rows := (briefLoop.caseResults.map (measured graph exec)).map Entry.toCaseRow
  accounted := accounted (iteration_reckoned _ (start_reckoned _ _))
    (iteration_placed (List.nodup_finRange _) _ (start_placed _ (List.nodup_finRange _)))
    (by decide +kernel) (by decide +kernel)
  rows_results := by
    rw [List.map_map, List.map_map]
    exact List.map_id _
  entries := briefLoop.caseResults.map (measured graph exec)
  entries_rows := rfl

def briefEntry (graph exec : ℚ) : Entry :=
  measured graph exec (evaluateBirdSample "rag" ⟨"1", "shop", "simple", "SELECT 1"⟩ unanswered)

theorem briefRun_entries (graph exec : ℚ) : (briefRun graph exec).entries = [briefEntry graph exec] := by
  have collected : briefLoop.caseResults =
      [evaluateBirdSample "rag" ⟨"1", "shop", "simple", "SELECT 1"⟩ unanswered] := by decide +kernel
  change briefLoop.caseResults.map (measured graph exec) = _
  rw [collected]
  rfl

theorem brief_timings {graph : ℚ} (positive : 0 < graph) (exec : ℚ) :
    timings [briefEntry graph exec] = [(graph, exec, "?")] := by
  have counted : 0 < (briefEntry graph exec).elapsedGraphS := positive
  simp only [timings, List.filter_cons, counted, decide_true, if_true, List.filter_nil]
  rfl

theorem briefRun_times {graph exec : ℚ} (positive : 0 < graph) (nonneg : 0 ≤ exec) :
    ∀ r ∈ (briefRun graph exec).entries, 0 ≤ r.elapsedGraphS ∧ 0 ≤ r.elapsedExecmatchS := by
  rw [briefRun_entries]
  exact List.forall_mem_singleton.mpr ⟨positive.le, nonneg⟩

theorem checkpointed_two_seconds :
    (∃ saved, afterLoop decimal (briefRun 2 (1 / 100)) [] = .ok saved) ↔
      timings (briefRun 2 (1 / 100)).entries = [] ∨
        (timings (briefRun 2 (1 / 100)).entries).length / 200 < graphTime (briefRun 2 (1 / 100)).entries ∨
        (timings (briefRun 2 (1 / 100)).entries).length / 20000 < matchTime (briefRun 2 (1 / 100)).entries :=
  checkpointed_iff (briefRun 2 (1 / 100)) (List.cons_ne_nil _ _)
    (briefRun_times (by norm_num) (by norm_num)) []

/-- One sample, a millisecond in the graph, no match: the split divides by zero. -/
theorem brief_raises : briefSamples ≠ [] ∧
    (briefRun (1 / 1000) 0).entries.map (fun r => (r.elapsedGraphS, r.elapsedExecmatchS)) =
      [(1 / 1000, 0)] ∧
    afterLoop decimal (briefRun (1 / 1000) 0) [] = .error .zeroDivisionError := by
  refine ⟨List.cons_ne_nil _ _, by rw [briefRun_entries]; rfl, ?_⟩
  obtain ⟨rows, r, f, perm, -, computed⟩ :=
    @afterLoop_eq _ decimal (briefRun (1 / 1000) 0) (List.cons_ne_nil _ _) []
  rw [briefRun_entries] at perm
  obtain rfl := List.perm_singleton.mp perm
  have timed := @brief_timings (1 / 1000) (by norm_num) 0
  have some_ : timings [briefEntry (1 / 1000) 0] ≠ [] := by rw [timed]; exact List.cons_ne_nil _ _
  obtain ⟨g, printed⟩ := @printTiming_eq decimal _ some_
  have zero : avgGraph decimal [briefEntry (1 / 1000) 0] +
      avgExec decimal [briefEntry (1 / 1000) 0] = 0 := by
    refine (means_zero_iff some_ ?_).mpr ?_
    · exact briefRun_entries (1 / 1000) 0 ▸ briefRun_times (by norm_num) le_rfl
    · rw [graphTime, matchTime, timed]
      norm_num
  rw [computed, printed, zero]
  rfl

end AfterLoop
end Nl2SqlAgent

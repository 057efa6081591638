import Nl2SqlAgent.Checkpoint
import Nl2SqlAgent.Lib.Json

/-! The reports of an ablation that was resumed. The writers look most keys of a result up
with a default, and find it where the checkpoint has left the key out. -/
namespace Nl2SqlAgent

open Lib

namespace ResumedReport

open Evaluation ConfigResults Checkpoint

/-- A value of `results` in `main`. The keys that `_save_checkpoint` leaves out are there or
not; of those, the writers do not read `config`, `knowledge_source` and `timeout_log`. -/
structure StoredResult extends SavedResult where
  pipelineStats : Option (Option PipelineStats) := none
  avgRagRecall : Option (Option Rat) := none
  ragRecallSamples : Option Nat := none
  fbAttempted : Option Nat := none
  fbFixed : Option Nat := none
  fbFixRate : Option Rat := none
  fbPreEx : Option Rat := none
  fbPostEx : Option Rat := none

def evaluated (r : ConfigResult) : StoredResult where
  toSavedResult := savedResult r
  pipelineStats := some r.pipelineStats
  avgRagRecall := some r.avgRagRecall
  ragRecallSamples := some r.ragRecallSamples
  fbAttempted := some r.fbAttempted
  fbFixed := some r.fbFixed
  fbFixRate := some r.fbFixRate
  fbPreEx := some r.fbPreEx
  fbPostEx := some r.fbPostEx

def restored (r : SavedResult) : StoredResult where
  toSavedResult := r

/-- What the writers and the cost estimate read of a result, each key with its default. -/
structure ReportFields extends SavedResult where
  pipelineStats : Option PipelineStats
  avgRagRecall : Option Rat
  ragRecallSamples : Nat
  fbAttempted : Nat
  fbFixed : Nat
  fbFixRate : Rat
  fbPreEx : Rat
  fbPostEx : Rat
  deriving DecidableEq, Repr

def reportFields (r : StoredResult) : ReportFields where
  toSavedResult := r.toSavedResult
  pipelineStats := r.pipelineStats.getD none
  avgRagRecall := r.avgRagRecall.getD none
  ragRecallSamples := r.ragRecallSamples.getD 0
  fbAttempted := r.fbAttempted.getD 0
  fbFixed := r.fbFixed.getD 0
  fbFixRate := r.fbFixRate.getD 0
  fbPreEx := r.fbPreEx.getD 0
  fbPostEx := r.fbPostEx.getD 0

structure RouterDistribution where
  simple : Nat
  complex : Nat
  total : Nat
  simpleEx : Rat
  complexEx : Rat
  deriving DecidableEq, Repr

def routerDistribution (round : Rounding) (traces : List RouterTrace) : Option RouterDistribution :=
  let count (complexity : String) := traces.countP fun t => t.routerComplexity = some complexity
  let pass (complexity : String) :=
    traces.countP fun t => t.routerComplexity = some complexity ∧ t.exPass = true
  if traces = [] then none
  else
    some {
      simple := count "simple"
      complex := count "complex"
      total := traces.length
      simpleEx := round.rate 4 (pass "simple") (count "simple")
      complexEx := round.rate 4 (pass "complex") (count "complex") }

/-- An entry of `configs` in the summary; the per-case rows go into the CSV. -/
structure SummaryConfig extends ReportFields where
  routerDistribution : Option RouterDistribution

def summaryConfig (round : Rounding) (r : ReportFields) : SummaryConfig where
  toReportFields := r
  routerDistribution := routerDistribution round r.routerTraces

/-- A section of the Markdown report, with the configurations that have a row in it. -/
structure MdSection where
  title : String
  rows : List String
  deriving DecidableEq, Repr

def rowsWith (results : PyDict String ReportFields) (row : ReportFields → Bool) : List String :=
  (results.filter fun item => row item.2).map Prod.fst

def whenSome (title : String) (rows : List String) : List MdSection :=
  if rows = [] then [] else [⟨title, rows⟩]

/-- `_write_pipeline_md`, where `write_summary_md` calls it. -/
def pipelineMd (results : PyDict String ReportFields) : List MdSection :=
  let withStats := rowsWith results fun r => r.pipelineStats.isSome
  let timed := results.any fun item => item.2.pipelineStats.any fun p => !p.nodeTimingAvg.isEmpty
  if withStats = [] then []
  else
    [⟨"Guard (Hard SQL Validation)", withStats⟩, ⟨"Semantic Check (LLM Binary YES/NO)", withStats⟩,
      ⟨"Self-Correction (Refiner→Generator Loop)", withStats⟩] ++
    whenSome "Voter (Multi-Candidate Execution Voting)" (rowsWith results fun r =>
      r.pipelineStats.any fun p => decide (0 < p.voter.multiEnabledSamples)) ++
    whenSome "Decomposer (Complex Question Decomposition)" (rowsWith results fun r =>
      r.pipelineStats.any fun p => decide (0 < p.decomposer.used)) ++
    [⟨"Node Timing (Avg per Sample)", if timed then results.map Prod.fst else []⟩] ++
    whenSome "Evidence Feedback (EX=0 → BIRD Evidence as User Feedback)" (rowsWith results fun r =>
      decide (0 < r.fbAttempted)) ++
    whenSome "RAG Table Recall" (rowsWith results fun r => r.avgRagRecall.isSome)

/-- The sums of `estimate_cost`. -/
structure TestRun where
  samples : Nat
  configs : Nat
  totalCalls : Nat
  tokens : TokenUsage
  deriving DecidableEq, Repr

def testRun (results : PyDict String ReportFields) : Option TestRun :=
  results.head?.map fun first =>
    { samples := first.2.total
      configs := results.length
      totalCalls := first.2.total * results.length
      tokens := (results.map fun item => item.2.totalTokens).foldl TokenUsage.add .zero }

theorem restored_reads_iff (r : ConfigResult) :
    reportFields (restored (savedResult r)) = reportFields (evaluated r) ↔
      r.pipelineStats = none ∧ r.avgRagRecall = none ∧ r.ragRecallSamples = 0 ∧ r.fbAttempted = 0 ∧
        r.fbFixed = 0 ∧ r.fbFixRate = 0 ∧ r.fbPreEx = 0 ∧ r.fbPostEx = 0 := by
  constructor
  · intro same
    obtain ⟨-, stats, recalled, counted, attempted, fixed, rate, pre, post⟩ := ReportFields.mk.inj same
    exact ⟨stats.symm, recalled.symm, counted.symm, attempted.symm, fixed.symm, rate.symm, pre.symm,
      post.symm⟩
  · rintro ⟨stats, recalled, counted, attempted, fixed, rate, pre, post⟩
    simp only [reportFields, evaluated, restored, Option.getD_some, Option.getD_none, stats, recalled,
      counted, attempted, fixed, rate, pre, post]

/-- A report of restored results has no section on the pipeline, the feedback or the recall. -/
theorem pipelineMd_restored (results : PyDict String SavedResult) :
    pipelineMd (results.mapValues fun r => reportFields (restored r)) = [] := by
  have none_ : rowsWith (results.mapValues fun r => reportFields (restored r))
      (fun r => r.pipelineStats.isSome) = [] := by
    refine List.map_eq_nil_iff.mpr (List.filter_eq_nil_iff.mpr fun item member => ?_)
    obtain ⟨saved, -, rfl⟩ := List.mem_map.mp member
    exact Bool.false_ne_true
  simp only [pipelineMd, none_, if_true]

theorem testRun_restored (results : PyDict String ConfigResult) :
    testRun (results.mapValues fun r => reportFields (restored (savedResult r))) =
      testRun (results.mapValues fun r => reportFields (evaluated r)) := by
  simp [testRun, PyDict.mapValues, Function.comp_def, reportFields, restored, evaluated]

variable {samples : List BirdSample} {round : Rounding}

/-- The loop of `run_bird_eval` over the configurations, from what it has evaluated. -/
def evalConfigs (round : Rounding) (results : PyDict String ConfigResult) :
    List (ConfigRun samples) → Option (PyDict String ConfigResult)
  | [] => some results
  | run :: rest =>
    (run.result round).bind fun r => evalConfigs round (results.set run.cfgName r) rest

/-- The checkpoint behind the configurations that were evaluated before the interruption. -/
def checkpointOf (done : List (ConfigRun samples)) (results : PyDict String ConfigResult) :
    Option CheckpointFile :=
  done.getLast?.map fun last => saveCheckpoint results last.setting.cfgKnowledge

/-- `results` in `main` when the checkpoint was loaded first. -/
def resumeFrom (round : Rounding) (runs : List (ConfigRun samples)) (ckpt : Option CheckpointFile) :
    Option (PyDict String StoredResult) :=
  let loaded := loadedResults ckpt
  let remaining := runs.filter fun run => (loaded.lookup run.cfgName).isNone
  if remaining.isEmpty then some (loaded.mapValues restored)
  else
    (evalConfigs round [] remaining).map fun results =>
      (results.mapValues evaluated).update (loaded.mapValues restored)

/-- The ablation that is interrupted behind its first `k` configurations and resumed. -/
def resumed (round : Rounding) (runs : List (ConfigRun samples)) (k : Nat) :
    Option (PyDict String StoredResult) :=
  (evalConfigs round [] (runs.take k)).bind fun results =>
    resumeFrom round runs (checkpointOf (runs.take k) results)

theorem evalConfigs_isSome {results : PyDict String ConfigResult} {runs : List (ConfigRun samples)} :
    (evalConfigs round results runs).isSome = true ↔
      ∀ run ∈ runs, (run.result round).isSome = true := by
  induction runs generalizing results with
  | nil => simp [evalConfigs]
  | cons run rest ih =>
    simp only [evalConfigs, List.forall_mem_cons]
    cases finished : run.result round with
    | none => simp
    | some r => simpa using ih

/-- What stands under a name is of a configuration with this name. -/
theorem evalConfigs_lookup {results full : PyDict String ConfigResult}
    {runs : List (ConfigRun samples)} (ran : evalConfigs round results runs = some full)
    {name : String} {r : ConfigResult} (found : full.lookup name = some r) :
    results.lookup name = some r ∨ ∃ run ∈ runs, run.result round = some r := by
  induction runs generalizing results with
  | nil =>
    obtain rfl := Option.some.inj ran
    exact .inl found
  | cons run rest ih =>
    obtain ⟨first, finished, later⟩ := Option.bind_eq_some_iff.mp ran
    rcases ih later with before | ⟨other, member, result⟩
    · rw [PyDict.lookup_set] at before
      split at before
      · obtain rfl := Option.some.inj before
        exact .inr ⟨run, List.mem_cons_self, finished⟩
      · exact .inl before
    · exact .inr ⟨other, List.mem_cons_of_mem _ member, result⟩

theorem evalConfigs_names {results full : PyDict String ConfigResult}
    {runs : List (ConfigRun samples)} (ran : evalConfigs round results runs = some full)
    {name : String} (named : (results.lookup name).isSome = true ∨ ∃ run ∈ runs, run.cfgName = name) :
    (full.lookup name).isSome = true := by
  induction runs generalizing results with
  | nil =>
    obtain rfl := Option.some.inj ran
    simpa using named
  | cons run rest ih =>
    obtain ⟨first, finished, later⟩ := Option.bind_eq_some_iff.mp ran
    apply ih later
    rw [PyDict.lookup_set]
    split
    · exact .inl rfl
    · rename_i other
      rcases named with before | ⟨one, member, rfl⟩
      · exact .inl before
      · rcases List.mem_cons.mp member with rfl | among
        · exact absurd rfl other
        · exact .inr ⟨one, among, rfl⟩

/-- Where the checkpoint holds a name, the results are its. -/
theorem resumeFrom_lookup {runs : List (ConfigRun samples)} {ckpt : Option CheckpointFile}
    {after : PyDict String StoredResult} (resumes : resumeFrom round runs ckpt = some after)
    {name : String} (held : ((loadedResults ckpt).lookup name).isSome = true) :
    ∃ saved, after.lookup name = some (restored saved) := by
  obtain ⟨saved, found⟩ := Option.isSome_iff_exists.mp held
  simp only [resumeFrom] at resumes
  split at resumes
  · obtain rfl := Option.some.inj resumes
    exact ⟨saved, by rw [PyDict.lookup_mapValues, found]; rfl⟩
  · obtain ⟨results, -, rfl⟩ := Option.map_eq_some_iff.mp resumes
    have among : (name, restored saved) ∈ ((loadedResults ckpt).mapValues restored).reverse :=
      List.mem_reverse.mpr (List.mem_map.mpr ⟨(name, saved), mem_of_lookup found, rfl⟩)
    cases last : ((loadedResults ckpt).mapValues restored).reverse.lookup name with
    | none => simpa using List.lookup_eq_none_iff.mp last _ among
    | some value =>
      obtain ⟨item, -, same⟩ := List.mem_map.mp (List.mem_reverse.mp (mem_of_lookup last))
      obtain ⟨-, rfl⟩ := Prod.mk.inj same
      exact ⟨item.2, by rw [PyDict.lookup_update, last]; rfl⟩

theorem resumeFrom_none (runs : List (ConfigRun samples)) :
    resumeFrom round runs none = (evalConfigs round [] runs).map fun results =>
      results.mapValues evaluated := by
  have all : (runs.filter fun run => ((loadedResults none).lookup run.cfgName).isNone) = runs :=
    List.filter_eq_self.mpr fun run _ => rfl
  simp only [resumeFrom, all]
  cases runs with
  | nil => rfl
  | cons run rest => rfl

/-- A resumed ablation reports every result as the uninterrupted one exactly if nothing had
been saved when it was interrupted. -/
theorem resumed_report_iff {runs : List (ConfigRun samples)} {full : PyDict String ConfigResult}
    (uninterrupted : evalConfigs round [] runs = some full) (k : Nat) :
    ∃ after, resumed round runs k = some after ∧
      ((∀ name, (after.lookup name).map reportFields =
        (full.lookup name).map fun r => reportFields (evaluated r)) ↔ runs.take k = []) := by
  have finished : ∀ run ∈ runs, (run.result round).isSome = true :=
    evalConfigs_isSome.mp (by rw [uninterrupted]; rfl)
  have early : (evalConfigs round [] (runs.take k)).isSome = true :=
    evalConfigs_isSome.mpr fun run member => finished run (List.mem_of_mem_take member)
  obtain ⟨first, saves⟩ := Option.isSome_iff_exists.mp early
  by_cases nothing : runs.take k = []
  · refine ⟨full.mapValues evaluated, ?_, iff_of_true (fun name => ?_) nothing⟩
    · simp only [resumed, nothing, evalConfigs, Option.bind_some, checkpointOf, List.getLast?_nil,
        Option.map_none, resumeFrom_none, uninterrupted, Option.map_some]
    · rw [PyDict.lookup_mapValues, Option.map_map]
      rfl
  · obtain ⟨run, others, took⟩ := List.exists_cons_of_ne_nil nothing
    have member : run ∈ runs.take k := took ▸ List.mem_cons_self
    have ckpt : checkpointOf (runs.take k) first =
        some (saveCheckpoint first ((runs.take k).getLast nothing).setting.cfgKnowledge) := by
      simp [checkpointOf, List.getLast?_eq_some_getLast nothing]
    have held : ((loadedResults (checkpointOf (runs.take k) first)).lookup run.cfgName).isSome =
        true := by
      rw [ckpt]
      simp only [loadedResults, saveCheckpoint, Option.map_some, Option.getD_some,
        PyDict.lookup_mapValues, Option.isSome_map]
      exact evalConfigs_names saves (.inr ⟨run, member, rfl⟩)
    have goesOn : (resumeFrom round runs (checkpointOf (runs.take k) first)).isSome = true := by
      simp only [resumeFrom]
      split
      · rfl
      · rw [Option.isSome_map]
        exact evalConfigs_isSome.mpr fun other among => finished other (List.mem_of_mem_filter among)
    obtain ⟨after, resumes⟩ := Option.isSome_iff_exists.mp goesOn
    refine ⟨after, by simp [resumed, saves, resumes], iff_of_false (fun same => ?_) nothing⟩
    obtain ⟨saved, isRestored⟩ := resumeFrom_lookup resumes held
    obtain ⟨r, found⟩ := Option.isSome_iff_exists.mp
      (evalConfigs_names uninterrupted (.inr ⟨run, List.mem_of_mem_take member, rfl⟩))
    have stats : (none : Option PipelineStats) = r.pipelineStats := by
      have fields := same run.cfgName
      rw [isRestored, found] at fields
      exact congrArg ReportFields.pipelineStats (Option.some.inj fields)
    rcases evalConfigs_lookup uninterrupted found with impossible | ⟨other, -, result⟩
    · cases impossible
    · have present := other.pipelineStats_isSome result
      rw [← stats] at present
      cases present

def shopSamples : List BirdSample := [⟨"1", "shop", "simple", "SELECT 1"⟩]

/-- The retrieval found all of the sample's gold tables. -/
def recalled : Measured where
  ex := true
  ves := 1
  detail := "match (1 rows)"
  genSql := "SELECT 1"
  tokenUsage := .zero
  elapsedS := 2
  routerScore := none
  routerMethod := none
  routerComplexity := none
  ragRecall := some 1

def shopSetting : Setting (Fin shopSamples.length) := setting shopSamples "rag" 1 fun _ => 0

def shopLoop : Loop (Fin shopSamples.length) :=
  iteration shopSetting ⟨[(0, .ok recalled)], 2⟩ (start shopSetting (List.finRange _))

def shopRun : ConfigRun shopSamples where
  cfgName := "R2_RAG"
  setting := shopSetting
  loop := shopLoop
  rows := shopLoop.caseResults.map fun r => { toCaseResult := r, guardPass := some true }
  accounted := accounted (iteration_reckoned _ (start_reckoned _ _))
    (iteration_placed (List.nodup_finRange _) _ (start_placed _ (List.nodup_finRange _)))
    (by decide +kernel) (by decide +kernel)
  rows_results := by
    rw [List.map_map]
    exact List.map_id _

def exactly : Rounding := ⟨fun _ x => x, Rat.floor⟩

theorem resumed_report_shop : ∃ full, evalConfigs exactly [] [shopRun] = some full ∧
    ∃ after, resumed exactly [shopRun] 1 = some after ∧
      ((∀ name, (after.lookup name).map reportFields =
        (full.lookup name).map fun r => reportFields (evaluated r)) ↔ [shopRun].take 1 = []) :=
  ⟨_, rfl, resumed_report_iff rfl 1⟩

/-- The recall and the guard's statistics are in the report, and after a resumption they are not. -/
theorem resumed_report_differs : ∃ full after, evalConfigs exactly [] [shopRun] = some full ∧
    resumed exactly [shopRun] 1 = some after ∧
    ((full.lookup "R2_RAG").map fun r => (reportFields (evaluated r)).avgRagRecall) = some (some 1) ∧
    ((after.lookup "R2_RAG").map fun r => (reportFields r).avgRagRecall) = some none ∧
    ((after.lookup "R2_RAG").map fun r => (reportFields r).pipelineStats) = some none := by
  refine ⟨_, _, rfl, rfl, ?_, rfl, rfl⟩
  decide +kernel

end ResumedReport
end Nl2SqlAgent

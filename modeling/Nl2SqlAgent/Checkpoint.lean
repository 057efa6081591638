import Nl2SqlAgent.ConfigResults

/-! The checkpoint of the ablation: what is saved of each finished configuration, and the
sessions of `main` over one checkpoint file, each of which may be interrupted. -/
namespace Nl2SqlAgent

open Lib

namespace Checkpoint

open Evaluation ConfigResults

/-- What `_save_checkpoint` writes of a result. The file brings it back as it was. -/
structure SavedResult where
  exRate : Rat
  avgVes : Rat
  passed : Nat
  total : Nat
  crashed : Nat
  avgTokens : Int
  avgTimeS : Rat
  tokensPerS : Rat
  totalTokens : TokenUsage
  diffSummary : PyDict String DifficultySummary
  caseResults : List CaseRow
  routerTraces : List RouterTrace
  deriving DecidableEq, Repr

def savedResult (r : ConfigResult) : SavedResult where
  exRate := r.exRate
  avgVes := r.avgVes
  passed := r.passed
  total := r.total
  crashed := r.crashed
  avgTokens := r.avgTokens
  avgTimeS := r.avgTimeS
  tokensPerS := r.tokensPerS
  totalTokens := r.totalTokens
  diffSummary := r.diffSummary
  caseResults := r.caseResults
  routerTraces := r.routerTraces

structure CheckpointFile where
  knowledgeSource : String
  results : PyDict String SavedResult
  deriving DecidableEq, Repr

def saveCheckpoint (results : PyDict String ConfigResult) (knowledgeSource : String) :
    CheckpointFile where
  knowledgeSource := knowledgeSource
  results := results.mapValues savedResult

/-- `ckpt["results"]`, which is empty without a checkpoint. -/
def loadedResults (file : Option CheckpointFile) : PyDict String SavedResult :=
  (file.map CheckpointFile.results).getD []

/-- The configurations whose names are not among the done. -/
def remainingConfigs (configs : List String) (loaded : PyDict String SavedResult) : List String :=
  configs.filter fun name => (loaded.lookup name).isNone

/-- The names of `_default_configs`, which the ablation runs. -/
def defaultConfigs : List String :=
  ["R0_Baseline", "R1_Decomposer", "R2_RAG", "R3_MultiCandidate", "R4_PruneFewshot",
    "R5_EvidenceFeedback"]

/-- A run of `main`: the checkpoint as it was loaded, the configurations still to be
evaluated, and `all_results`. -/
structure Session where
  loaded : PyDict String SavedResult
  remaining : List String
  results : PyDict String ConfigResult := []

/-- `written` is what has been written so far, which no run knows. -/
structure State where
  file : Option CheckpointFile := none
  session : Option Session := none
  written : List (String × SavedResult) := []

inductive Event
  | start
  | finish (r : ConfigResult)
  | interrupt
  | complete

def step (configs : List String) (s : State) : Event → Option State
  | .start =>
    match s.session with
    | none =>
      let loaded := loadedResults s.file
      some { s with session := some ⟨loaded, remainingConfigs configs loaded, []⟩ }
    | some _ => none
  | .finish r =>
    match s.session with
    | some ⟨loaded, name :: rest, results⟩ =>
      let results := results.set name r
      some {
        file := some (saveCheckpoint results r.knowledgeSource)
        session := some ⟨loaded, rest, results⟩
        written := s.written ++ [(name, savedResult r)] }
    | _ => none
  | .interrupt =>
    match s.session with
    | some _ => some { s with session := none }
    | none => none
  | .complete =>
    match s.session with
    | some ⟨_, [], _⟩ => some { s with session := none }
    | _ => none

def machine (configs : List String) : Machine State Event := ⟨step configs⟩

inductive Steps (configs : List String) (s : State) : Event → State → Prop
  | start (idle : s.session = none) :
      Steps configs s .start { s with
        session := some ⟨loadedResults s.file, remainingConfigs configs (loadedResults s.file), []⟩ }
  | finish (loaded : PyDict String SavedResult) (name : String) (rest : List String)
      (results : PyDict String ConfigResult) (r : ConfigResult)
      (running : s.session = some ⟨loaded, name :: rest, results⟩) :
      Steps configs s (.finish r) {
        file := some (saveCheckpoint (results.set name r) r.knowledgeSource)
        session := some ⟨loaded, rest, results.set name r⟩
        written := s.written ++ [(name, savedResult r)] }
  | interrupt : Steps configs s .interrupt { s with session := none }
  | complete : Steps configs s .complete { s with session := none }

theorem step_steps {configs : List String} {s t : State} {event : Event}
    (stepped : step configs s event = some t) : Steps configs s event t := by
  cases event with
  | start =>
    simp only [step] at stepped
    split at stepped
    · rename_i idle
      obtain rfl := Option.some.inj stepped
      exact .start idle
    · contradiction
  | finish r =>
    simp only [step] at stepped
    split at stepped
    · rename_i loaded name rest results running
      obtain rfl := Option.some.inj stepped
      exact .finish loaded name rest results r running
    · contradiction
  | interrupt =>
    simp only [step] at stepped
    split at stepped
    · obtain rfl := Option.some.inj stepped
      exact .interrupt
    · contradiction
  | complete =>
    simp only [step] at stepped
    split at stepped
    · obtain rfl := Option.some.inj stepped
      exact .complete
    · contradiction

/-- Everything that was once written is still in the file, and nothing of it is among what a
session evaluates. -/
structure Monotone (s : State) : Prop where
  kept : ∀ e ∈ s.written, (loadedResults s.file).lookup e.1 = some e.2
  once : ∀ session, s.session = some session → ∀ name ∈ session.remaining,
    ∀ e ∈ s.written, e.1 ≠ name

/-- A session that has found results in the checkpoint finishes no configuration. -/
def NotResumed (s : State) : Event → Prop
  | .finish _ => ∀ session, s.session = some session → session.loaded = []
  | _ => True

/-- What a session works with: it has found what the file still says, or nothing at all. -/
structure Session.Fits (s : State) (session : Session) : Prop where
  distinct : session.remaining.Nodup
  fresh : ∀ name ∈ session.remaining, session.loaded.lookup name = none
  untouched : session.loaded ≠ [] →
    session.results = [] ∧ loadedResults s.file = session.loaded
  own : session.loaded = [] → loadedResults s.file = session.results.mapValues savedResult

structure Keeps (s : State) : Prop extends Monotone s where
  known : ∀ name saved, (loadedResults s.file).lookup name = some saved → (name, saved) ∈ s.written
  fits : ∀ session, s.session = some session → session.Fits s

section Steps

variable {configs : List String} {s t : State} {event : Event}

theorem start_keeps (distinct : configs.Nodup) (keep : Keeps s) : Keeps { s with
    session := some ⟨loadedResults s.file, remainingConfigs configs (loadedResults s.file), []⟩ } := by
  have absent (name) (member : name ∈ remainingConfigs configs (loadedResults s.file)) :
      (loadedResults s.file).lookup name = none :=
    Option.isNone_iff_eq_none.mp (List.mem_filter.mp member).2
  refine ⟨⟨keep.kept, ?_⟩, keep.known, ?_⟩
  · rintro session started name member e written rfl
    obtain rfl := Option.some.inj started
    have kept := keep.kept e written
    rw [absent _ member] at kept
    contradiction
  · rintro session started
    obtain rfl := Option.some.inj started
    exact ⟨distinct.filter _, absent, fun _ => ⟨rfl, rfl⟩, fun empty => empty⟩

theorem finish_keeps {name : String} {rest : List String} {results : PyDict String ConfigResult}
    {r : ConfigResult} (keep : Keeps s) (running : s.session = some ⟨[], name :: rest, results⟩) :
    Keeps {
      file := some (saveCheckpoint (results.set name r) r.knowledgeSource)
      session := some ⟨[], rest, results.set name r⟩
      written := s.written ++ [(name, savedResult r)] } := by
  have fits := keep.fits _ running
  obtain ⟨apart, distinct⟩ := List.nodup_cons.mp fits.distinct
  have saved : loadedResults (some (saveCheckpoint (results.set name r) r.knowledgeSource)) =
      (loadedResults s.file).set name (savedResult r) := by
    rw [fits.own rfl, ← PyDict.mapValues_set]
    rfl
  refine ⟨⟨fun e written => ?_, ?_⟩, fun other value found => ?_, ?_⟩
  · rw [saved]
    rcases List.mem_append.mp written with old | new
    · rw [PyDict.lookup_set_other _ _ (keep.once _ running name List.mem_cons_self e old)]
      exact keep.kept e old
    · rw [List.mem_singleton.mp new]
      exact PyDict.lookup_set_self _ _ _
  · rintro session started other member e written
    obtain rfl := Option.some.inj started
    rcases List.mem_append.mp written with old | new
    · exact keep.once _ running other (List.mem_cons_of_mem _ member) e old
    · rw [List.mem_singleton.mp new]
      rintro rfl
      exact apart member
  · rw [saved, PyDict.lookup_set] at found
    split at found
    · rename_i same
      obtain rfl := Option.some.inj found
      exact List.mem_append_right _ (same ▸ List.mem_cons_self)
    · exact List.mem_append_left _ (keep.known other value found)
  · rintro session started
    obtain rfl := Option.some.inj started
    exact ⟨distinct, fun other _ => rfl, fun some_ => absurd rfl some_, fun _ => rfl⟩

/-- The file of a session that has found results does not hold them any more. -/
theorem finish_loses {loaded : PyDict String SavedResult} {name : String} {rest : List String}
    {results : PyDict String ConfigResult} {r : ConfigResult} (keep : Keeps s)
    (running : s.session = some ⟨loaded, name :: rest, results⟩) (found : loaded ≠ []) :
    ¬ Monotone {
      file := some (saveCheckpoint (results.set name r) r.knowledgeSource)
      session := some ⟨loaded, rest, results.set name r⟩
      written := s.written ++ [(name, savedResult r)] } := by
  intro monotone
  have fits := keep.fits _ running
  obtain ⟨rfl, same⟩ := fits.untouched found
  obtain ⟨⟨done, saved⟩, others, rfl⟩ := List.exists_cons_of_ne_nil found
  have was : (loadedResults s.file).lookup done = some saved := by
    rw [same]
    exact List.lookup_cons_self
  have other : done ≠ name := by
    rintro rfl
    have fresh := fits.fresh done List.mem_cons_self
    simp at fresh
  have kept := monotone.kept (done, saved) (List.mem_append_left _ (keep.known done saved was))
  have gone : (loadedResults (some (saveCheckpoint (PyDict.set [] name r) r.knowledgeSource))).lookup
      done = none := (PyDict.lookup_item name done _ _).trans (if_neg other)
  rw [gone] at kept
  contradiction

theorem leave_keeps (keep : Keeps s) : Keeps { s with session := none } :=
  ⟨⟨keep.kept, nofun⟩, keep.known, nofun⟩

theorem step_keeps (distinct : configs.Nodup) (keep : Keeps s) (stepped : step configs s event = some t)
    (fresh : NotResumed s event) : Keeps t := by
  cases step_steps stepped with
  | start idle => exact start_keeps distinct keep
  | finish loaded name rest results r running =>
    obtain rfl : loaded = [] := fresh _ running
    exact finish_keeps keep running
  | interrupt | complete => exact leave_keeps keep

theorem step_monotone_iff (distinct : configs.Nodup) (keep : Keeps s)
    (stepped : step configs s event = some t) : Monotone t ↔ NotResumed s event := by
  constructor
  · intro monotone
    cases step_steps stepped with
    | finish loaded name rest results r ran =>
      intro session running
      obtain rfl := Option.some.inj (running.symm.trans ran)
      by_contra found
      exact finish_loses keep ran found monotone
    | start | interrupt | complete => trivial
  · exact fun fresh => (step_keeps distinct keep stepped fresh).toMonotone

end Steps

theorem initial_keeps : Keeps {} := ⟨⟨nofun, nofun⟩, nofun, nofun⟩

/-- Whatever was written stays in the checkpoint, and is not evaluated again, exactly in the
runs in which no session that has found results finishes a configuration. -/
theorem checkpoint_monotone_iff (events : List Event) :
    (machine defaultConfigs).Along (fun _ _ t => Monotone t) {} events ↔
      (machine defaultConfigs).Along (fun s event _ => NotResumed s event) {} events := by
  have distinct : defaultConfigs.Nodup := by decide
  symm
  exact Machine.along_iff_of_invariant Keeps
    (fun _ _ _ keep stepped fresh => step_keeps distinct keep stepped fresh)
    (fun _ _ _ keep stepped => (step_monotone_iff distinct keep stepped).symm) initial_keeps

def passingRow : CaseRow where
  questionId := "1"
  dbId := "shop"
  difficulty := "simple"
  knowledgeSource := "rag"
  ex := true
  ves := 1
  detail := "match (1 rows)"
  genSql := "SELECT 1"
  goldSql := "SELECT 1"
  tokenUsage := .zero
  elapsedS := 2
  routerScore := none
  routerMethod := none
  routerComplexity := none
  ragRecall := none

/-- One sample, which passes. -/
def passing : ConfigResult where
  knowledgeSource := "rag"
  caseResults := [passingRow]
  timeoutLog := []
  passed := 1
  crashed := 0
  total := 1
  exRate := 1
  avgVes := 1
  avgTimeS := 2
  totalTokens := .zero
  avgTokens := 0
  tokensPerS := 0
  diffSummary := [("simple", ⟨1, 1, 1, 1, 0, 2⟩)]
  routerTraces := []
  pipelineStats := computePipelineStats ⟨fun _ x => x, Rat.floor⟩ [passingRow]
  avgRagRecall := none
  ragRecallSamples := 0
  fbAttempted := 0
  fbFixed := 0
  fbFixRate := 0
  fbPreEx := 1
  fbPostEx := 1

/-- The second session writes its own result only, and the third evaluates the first
configuration again. -/
theorem resumed_loses : ∃ t, (machine defaultConfigs).exec {}
      [.start, .finish passing, .interrupt, .start, .finish passing, .interrupt, .start] = some t ∧
    ("R0_Baseline", savedResult passing) ∈ t.written ∧
    loadedResults t.file = [("R1_Decomposer", savedResult passing)] ∧
    t.session.any fun session => session.remaining.head? = some "R0_Baseline" := by
  refine ⟨_, rfl, ?_, ?_, ?_⟩ <;> decide

end Checkpoint
end Nl2SqlAgent

import Nl2SqlAgent.ErrorClassifier
import Nl2SqlAgent.FeedbackStart
import Nl2SqlAgent.SchemaExpansion
import Nl2SqlAgent.Lib.Interleave
import Nl2SqlAgent.Lib.PyDict

/-! The pipeline from before the graph (`run` in `guard/error_classifier.py`): one generation,
the review rounds, the executions with their corrections. It is a program whose effects are the
calls that leave the module; a call that raises answers `none`. -/
namespace Nl2SqlAgent

open Lib

namespace LegacyPipeline

open SqlExecutor (Database executeSql)
open SchemaExpansion (Chunk TableInfo buildPromptContext buildExpandedCatalog)

def maxReviewRounds : ℕ := 2

def maxExecutionRetries : ℕ := 2

/-- What `review` returns: its own `token_usage` beside the other fields. -/
structure ReviewResult where
  fields : PyDict String Json
  tokenUsage : Option (List (String × ℕ))
  deriving DecidableEq

inductive Effect where
  | schemaSummary
  | schemaInfo
  | sampleRows (table : String)
  | retrieve (dbId : Option String) (k : ℤ)
  /-- The LLM call of one `generate_sql`. -/
  | generate (dialect message : String)
  | review (sql schemaText notesText : String)
  /-- One call of `execute_sql`, answered by the database as it is then. -/
  | execute (sql : String)
  deriving DecidableEq

abbrev Answer : Effect → Type
  | .schemaSummary => Option String
  | .schemaInfo => Option (List TableInfo)
  | .sampleRows _ => Option String
  | .retrieve _ _ => Option (List Chunk)
  | .generate _ _ => Option Reply
  | .review _ _ _ => Option ReviewResult
  | .execute _ => Database

abbrev Call (α : Type) := Prog Effect Answer (Option α)

/-- The arguments of `run`, and the configured `SQL_DIALECT`. -/
structure Settings where
  question : String
  ragSchema : Bool := true
  ragDomain : Bool := true
  reviewerOn : Bool := true
  k : ℤ := 8
  databaseUrl : Option String := none
  dbId : Option String := none
  sqlDialect : String := "sqlite"

/-- One entry of `exec_attempts`. -/
structure Attempt where
  attempt : ℕ
  sql : String
  outcome : RunOutcome
  deriving DecidableEq

/-- The locals that the two loops rewrite. -/
structure Draft where
  sql : String
  raw : String
  tokenUsage : TokenUsage
  reviewRounds : List ReviewResult := []
  execResult : Option RunOutcome := none
  execAttempts : List Attempt := []
  schemaText : String
  notesText : String
  ragChunks : List Chunk
  expandedK : ℤ

/-- What `run` returns. -/
structure Returned where
  sql : String
  rawResponse : String
  schemaText : String
  notesText : String
  ragChunks : List Chunk
  reviewRounds : List ReviewResult
  execResult : Option RunOutcome
  execAttempts : List Attempt
  ragKInitial : ℤ
  ragKExpanded : Option ℤ
  tokenUsage : TokenUsage
  deriving DecidableEq

variable (env : Env) (settings : Settings)

/-- `retrieve_bird` with a database's id, `retrieve` without. -/
def retrieve (k : ℤ) : Call (List Chunk) :=
  .act (.retrieve (settings.dbId.filter (· ≠ "")) k) .ret

def buildTableCatalog : Call String :=
  if Py.truthy settings.databaseUrl then
    .act .schemaInfo fun info => .ret (info.map (buildExpandedCatalog settings.databaseUrl))
  else .ret (some "")

/-- `schema_text + "\n\n" + catalog`. -/
def withCatalog (schemaText : String) : Call String :=
  (buildTableCatalog settings).andThen fun catalog => .ret (some (schemaText ++ "\n\n" ++ catalog))

def getSampleRows : List TableInfo → Call (List String)
  | [] => .ret (some [])
  | table :: rest => .andThen (.act (.sampleRows table.actualName) .ret) fun rows =>
    (getSampleRows rest).andThen fun blocks => .ret (some (rows :: blocks))

def buildSampleRows : Call String :=
  if Py.truthy settings.databaseUrl then
    .andThen (.act .schemaInfo .ret) fun info =>
      (getSampleRows info).andThen fun blocks => .ret (some (Py.join "\n\n" blocks))
  else .ret (some "")

def getSchemaSummary : Call String :=
  if Py.truthy settings.databaseUrl then .act .schemaSummary .ret else .ret (some "")

/-- The chunks, the schema text and the notes text before the first generation. -/
def gather : Call (List Chunk × String × String) :=
  let chunks := if settings.ragSchema || settings.ragDomain then retrieve settings settings.k
    else .ret (some [])
  chunks.andThen fun chunks =>
    let context := buildPromptContext chunks
    let schemaText := if settings.ragSchema then context.1 else ""
    let notesText := if settings.ragDomain then context.2 else ""
    let completed := if schemaText = "" then getSchemaSummary settings
      else withCatalog settings schemaText
    completed.andThen fun schemaText => .ret (some (chunks, schemaText, notesText))

/-- The human message of `generate_sql`; `run` gives it no sub-questions. -/
def message (schemaText notesText sampleRows lastError lastSql : String) : String :=
  Py.join "\n\n" (["## SCHEMA\n" ++ schemaText] ++
    (if sampleRows ≠ "" then ["## SAMPLE ROWS\n" ++ sampleRows] else []) ++
    (if notesText ≠ "" then ["## RETRIEVED NOTES\n" ++ notesText] else []) ++
    ["## USER QUESTION\n" ++ settings.question] ++
    (if lastError ≠ "" ∧ lastSql ≠ "" then
      ["## LAST_ERROR\n" ++ lastError, "## LAST_SQL\n" ++ lastSql] else []))

/-- The dialect that the system message names. -/
def dialect : String :=
  env.case.upper (if Py.truthy settings.databaseUrl then
    Guard.getDialectFromUrl (settings.databaseUrl.getD "") else settings.sqlDialect)

/-- What `generate_sql` makes of a reply: a text that the safety check refuses is emptied. -/
def checked (reply : Reply) : Option (String × String × TokenUsage) :=
  let sql := env.extractSql reply.raw
  (SafetyRules.checkSafety env.case env.sqlglot sql "sqlite").map fun safety =>
    if safety.valid then (sql, reply.raw, reply.usage)
    else
      let reason := (safety.issues.head?.map Issue.detail).getD "Unknown"
      ("", "Validation failed: " ++ reason ++ "\n\nOriginal response:\n" ++ reply.raw, reply.usage)

def generateSql (schemaText notesText sampleRows lastError lastSql : String) :
    Call (String × String × TokenUsage) :=
  .act (.generate (dialect env settings)
      (message settings schemaText notesText sampleRows lastError lastSql))
    fun reply => .ret (reply.bind (checked env))

/-- A generation with an error to correct; its tokens are added. -/
def regenerate (sampleRows : String) (d : Draft) (lastError : String) : Call Draft :=
  (generateSql env settings d.schemaText d.notesText sampleRows lastError d.sql).andThen
    fun (sql, raw, usage) =>
      .ret (some { d with sql := sql, raw := raw, tokenUsage := d.tokenUsage.add usage })

/-- One line of the feedback: an issue that is no dictionary has no `get`. -/
def issueLine (shown : Json → String) : Json → Option String
  | .obj issue => some ("- [" ++ (((issue.lookup "type").map shown).getD "?") ++ "] " ++
      ((issue.lookup "detail").map shown).getD "")
  | _ => none

def formatReviewFeedback (shown : Json → String) (result : ReviewResult) : Option String :=
  (FeedbackRounds.pyList ((result.fields.lookup "issues").getD (.arr []))).bind fun issues =>
    (issues.mapM (issueLine shown)).map fun lines =>
      let fix := (result.fields.lookup "suggested_fix").getD (.str "")
      Py.join "\n" (["Reviewer found issues with your SQL:"] ++ lines ++
        (if FeedbackRounds.truthy fix then ["\nSuggested fix: " ++ shown fix] else []))

def ReviewResult.valid (result : ReviewResult) : Bool :=
  FeedbackRounds.truthy ((result.fields.lookup "valid").getD .null)

variable (shown : Json → String) (sampleRows : String)

/-- The rounds that are left. What the last one generates is reviewed by no other. -/
def reviewLoop : ℕ → Draft → Call Draft
  | 0, d => .ret (some d)
  | rounds + 1, d =>
    .andThen (.act (.review d.sql d.schemaText d.notesText) .ret) fun result =>
      let seen := { d with
        reviewRounds := d.reviewRounds ++ [result]
        tokenUsage := SemanticCheck.addUsage d.tokenUsage (result.tokenUsage.getD []) }
      if result.valid then .ret (some seen)
      else .andThen (.ret (formatReviewFeedback shown result)) fun feedback =>
        (regenerate env settings sampleRows seen feedback).andThen fun next =>
          if next.sql = "" then .ret (some next) else reviewLoop rounds next

/-- One call of `execute_sql`, and its entry in the list. -/
def executeOnce (attempt : ℕ) (d : Draft) : Call (Draft × RunOutcome) :=
  .act (.execute d.sql) fun database =>
    .ret ((executeSql env database d.sql 1000 settings.databaseUrl).2.map fun outcome =>
      ({ d with
          execResult := some outcome
          execAttempts := d.execAttempts ++ [⟨attempt, d.sql, outcome⟩] }, outcome))

/-- For a missing column or table the context is retrieved again, twice as deep, as long as
`expanded_k` is `k`. -/
def expandContext (type : ErrorType) (d : Draft) : Call Draft :=
  if (type = .missingColumn ∨ type = .missingTable) ∧ d.expandedK = settings.k then
    (retrieve settings (settings.k * 2)).andThen fun chunks =>
      let context := buildPromptContext chunks
      let schemaText := if settings.ragSchema && context.1 ≠ "" then withCatalog settings context.1
        else .ret (some d.schemaText)
      schemaText.andThen fun schemaText => .ret (some { d with
        expandedK := settings.k * 2
        schemaText := schemaText
        notesText := if settings.ragDomain && context.2 ≠ "" then context.2 else d.notesText
        ragChunks := chunks })
  else .ret (some d)

def formatExecError (error hint : String) : String :=
  "The SQL execution failed with the following error:\n  " ++ error ++ "\n" ++ "\n" ++ hint

/-- The correction after a failed attempt. -/
def correct (error : String) (d : Draft) : Call Draft :=
  .andThen (.ret (ErrorClassifier.classifyExecError env.case error)) fun (type, hint) =>
    (expandContext settings type d).andThen fun wide =>
      regenerate env settings sampleRows wide (formatExecError error hint)

/-- The attempts, with the number of corrections that are left. -/
def executeLoop : ℕ → ℕ → Draft → Call Draft
  | 0, attempt, d => (executeOnce env settings attempt d).andThen fun ran => .ret (some ran.1)
  | retries + 1, attempt, d =>
    (executeOnce env settings attempt d).andThen fun (ran, outcome) =>
      match outcome with
      | .rows _ _ => .ret (some ran)
      | .failed error _ =>
        (correct env settings sampleRows error ran).andThen fun next =>
          if next.sql = "" then .ret (some next) else executeLoop retries (attempt + 1) next

def Draft.returned (d : Draft) : Returned where
  sql := d.sql
  rawResponse := d.raw
  schemaText := d.schemaText
  notesText := d.notesText
  ragChunks := d.ragChunks
  reviewRounds := d.reviewRounds
  execResult := d.execResult
  execAttempts := d.execAttempts
  ragKInitial := settings.k
  ragKExpanded := if d.expandedK ≠ settings.k then some d.expandedK else none
  tokenUsage := d.tokenUsage

/-- The first generation. -/
def draft (sampleRows : String) (chunks : List Chunk) (schemaText notesText : String) : Call Draft :=
  (generateSql env settings schemaText notesText sampleRows "" "").andThen fun (sql, raw, usage) =>
    .ret (some {
      sql := sql, raw := raw, tokenUsage := TokenUsage.zero.add usage, schemaText := schemaText,
      notesText := notesText, ragChunks := chunks, expandedK := settings.k })

def reviewed (d : Draft) : Call Draft :=
  if settings.reviewerOn ∧ d.sql ≠ "" then
    reviewLoop env settings shown sampleRows maxReviewRounds d
  else .ret (some d)

def executed (d : Draft) : Call Draft :=
  if d.sql ≠ "" then executeLoop env settings sampleRows maxExecutionRetries 1 d else .ret (some d)

def run : Call Returned :=
  (gather settings).andThen fun (chunks, schemaText, notesText) =>
    (buildSampleRows settings).andThen fun sampleRows =>
      (draft env settings sampleRows chunks schemaText notesText).andThen fun d =>
        (reviewed env settings shown sampleRows d).andThen fun d =>
          (executed env settings sampleRows d).andThen fun d => .ret (some (d.returned settings))

/-- The generations, the executions with the database of each, and the tokens that the
generator's and the reviewer's calls report. -/
structure Tally where
  generated : ℕ := 0
  executions : List (String × Database) := []
  spent : TokenUsage := .zero

def note (t : Tally) : (e : Effect) × Answer e → Tally
  | ⟨.generate _ _, reply⟩ =>
    { t with
      generated := t.generated + 1
      spent := t.spent.add ((reply.map Reply.usage).getD .zero) }
  | ⟨.review _ _ _, result⟩ =>
    { t with spent := SemanticCheck.addUsage t.spent ((result.bind ReviewResult.tokenUsage).getD []) }
  | ⟨.execute sql, database⟩ => { t with executions := t.executions ++ [(sql, database)] }
  | _ => t

/-- The tally of a recorded run. -/
def tally (log : List ((e : Effect) × Answer e)) : Tally := log.foldl note {}

/-- What the execution of a text came to, if it did not raise. -/
def outcome (call : String × Database) : Option RunOutcome :=
  (executeSql env call.2 call.1 1000 settings.databaseUrl).2

/-- The entries are the executions, in order and numbered from one. -/
def Lists (attempts : List Attempt) (executions : List (String × Database)) : Prop :=
  attempts.map (fun entry => (entry.attempt, entry.sql, some entry.outcome)) =
    executions.mapIdx fun i call => (i + 1, call.1, outcome env settings call)

/-- The returned dictionary against the calls that were made. -/
structure Accounted (t : Tally) (r : Returned) : Prop where
  result : ∀ shownResult, r.execResult = some shownResult → r.sql ≠ "" →
    ∃ database, t.executions.getLast? = some (r.sql, database) ∧
      outcome env settings (r.sql, database) = some shownResult
  attempts : Lists env settings r.execAttempts t.executions
  failed : ∀ entry ∈ r.execAttempts.dropLast, entry.outcome.success = false
  usage : r.tokenUsage = t.spent

/-- What holds of the locals at every point of the two loops. -/
structure Booked (d : Draft) (t : Tally) : Prop where
  usage : d.tokenUsage = t.spent
  attempts : Lists env settings d.execAttempts t.executions
  result : d.execResult = d.execAttempts.getLast?.map Attempt.outcome

/-- Before an execution nothing has succeeded. -/
structure Ready (d : Draft) (t : Tally) : Prop extends Booked env settings d t where
  failed : ∀ entry ∈ d.execAttempts, entry.outcome.success = false

/-- At the end the last entry is about the text that is returned, if there is one. -/
structure Finished (d : Draft) (t : Tally) : Prop extends Booked env settings d t where
  failed : ∀ entry ∈ d.execAttempts.dropLast, entry.outcome.success = false
  last : d.sql ≠ "" → ∀ entry ∈ d.execAttempts.getLast?, entry.sql = d.sql

/-- The calls are few, also where the run raises; where it goes on, `good` holds. -/
structure Within (generated executions : ℕ) (good : α → Tally → Prop) (out : Option α)
    (t : Tally) : Prop where
  generated : t.generated ≤ generated
  executions : t.executions.length ≤ executions
  good : ∀ a, out = some a → good a t

section

variable {env settings shown sampleRows}

theorem Lists.length {attempts : List Attempt} {executions : List (String × Database)}
    (lists : Lists env settings attempts executions) : attempts.length = executions.length := by
  simpa using congrArg List.length lists

theorem Lists.append {attempts : List Attempt} {executions : List (String × Database)}
    {call : String × Database} {o : RunOutcome} (lists : Lists env settings attempts executions)
    (ran : outcome env settings call = some o) :
    Lists env settings (attempts ++ [⟨executions.length + 1, call.1, o⟩]) (executions ++ [call]) := by
  rw [Lists, List.map_append, List.mapIdx_concat, show _ = _ from lists, ran]
  rfl

theorem Finished.accounted {d : Draft} {t : Tally} (finished : Finished env settings d t) :
    Accounted env settings t (d.returned settings) where
  attempts := finished.attempts
  failed := finished.failed
  usage := finished.usage
  result o present nonempty := by
    have present : d.execAttempts.getLast?.map Attempt.outcome = some o :=
      finished.result.symm.trans present
    obtain ⟨entry, last, rfl⟩ := Option.map_eq_some_iff.mp present
    have paired := congrArg List.getLast? (show _ = _ from finished.attempts)
    rw [List.getLast?_map, last, List.mapIdx_eq_zipIdx_map, List.getLast?_map] at paired
    obtain ⟨⟨call, i⟩, ended, same⟩ := Option.map_eq_some_iff.mp paired.symm
    obtain ⟨-, sameSql, ran⟩ : i + 1 = entry.attempt ∧ call.1 = entry.sql ∧
        outcome env settings call = some entry.outcome := by simpa using same
    have text : call.1 = d.sql := sameSql.trans (finished.last nonempty entry last)
    refine ⟨call.2, ?_, ?_⟩
    · have := congrArg (Option.map Prod.fst) ended
      rw [← List.getLast?_map, List.zipIdx_map_fst] at this
      rw [this]
      exact congrArg some (Prod.ext text rfl)
    · change outcome env settings (d.sql, call.2) = _
      rw [← text]
      exact ran

/-- No effect of the contexts is tallied. -/
def Untallied : Effect → Prop
  | .generate _ _ | .review _ _ _ | .execute _ => False
  | _ => True

theorem note_untallied {t : Tally} : ∀ e, Untallied e → ∀ r, note t ⟨e, r⟩ = t
  | .schemaSummary, _, _ | .schemaInfo, _, _ | .sampleRows _, _, _ | .retrieve _ _, _, _ => rfl

theorem retrieve_untallied (k : ℤ) : (retrieve settings k).Emits Untallied :=
  ⟨trivial, fun _ => trivial⟩

theorem withCatalog_untallied (schemaText : String) :
    (withCatalog settings schemaText).Emits Untallied := by
  refine Prog.emits_andThen ?_ fun catalog => trivial
  unfold buildTableCatalog
  split
  · exact ⟨trivial, fun _ => trivial⟩
  · trivial

theorem getSchemaSummary_untallied : (getSchemaSummary settings).Emits Untallied := by
  unfold getSchemaSummary
  split
  · exact ⟨trivial, fun _ => trivial⟩
  · trivial

theorem getSampleRows_untallied (info : List TableInfo) : (getSampleRows info).Emits Untallied := by
  induction info with
  | nil => trivial
  | cons table rest ih =>
    refine Prog.emits_andThen ⟨trivial, fun _ => trivial⟩ fun rows => ?_
    exact Prog.emits_andThen ih fun blocks => trivial

theorem buildSampleRows_untallied : (buildSampleRows settings).Emits Untallied := by
  unfold buildSampleRows
  split
  · refine Prog.emits_andThen ⟨trivial, fun _ => trivial⟩ fun info => ?_
    exact Prog.emits_andThen (getSampleRows_untallied info) fun blocks => trivial
  · trivial

theorem gather_untallied : (gather settings).Emits Untallied := by
  refine Prog.emits_andThen ?_ fun chunks => Prog.emits_andThen ?_ fun schemaText => trivial
  · split
    · exact retrieve_untallied _
    · trivial
  · refine iteInduction (motive := Prog.Emits Untallied) (fun _ => ?_) (fun _ => ?_)
    · exact getSchemaSummary_untallied
    · exact withCatalog_untallied _

abbrev noting : Prog.Protocol Effect Answer Tally := Prog.noting note

theorem generateSql_keeps (schemaText notesText lastError lastSql : String) (t : Tally) :
    (generateSql env settings schemaText notesText sampleRows lastError lastSql).Keeps noting
      (fun out t' => t'.generated = t.generated + 1 ∧ t'.executions = t.executions ∧
        ∀ sql raw usage, out = some (sql, raw, usage) → t'.spent = t.spent.add usage) t := by
  refine Prog.keeps_note fun reply => ⟨rfl, rfl, ?_⟩
  intro sql raw usage returned
  obtain ⟨reply, rfl, some⟩ := Option.bind_eq_some_iff.mp returned
  obtain ⟨safety, -, same⟩ := Option.map_eq_some_iff.mp some
  have usages : reply.usage = usage := by
    split at same
    · exact congrArg (fun out => out.2.2) same
    · exact congrArg (fun out => out.2.2) same
  exact congrArg t.spent.add usages

theorem regenerate_keeps {d : Draft} {t : Tally} (ready : Ready env settings d t) (lastError : String) :
    (regenerate env settings sampleRows d lastError).Keeps noting
      (fun out t' => t'.generated = t.generated + 1 ∧ t'.executions = t.executions ∧
        ∀ next, out = some next → Ready env settings next t') t := by
  refine Prog.keeps_andThen (generateSql_keeps _ _ _ _ t) ?_ ?_
  · rintro t' ⟨once, same, -⟩
    exact ⟨once, same, nofun⟩
  · rintro ⟨sql, raw, usage⟩ t' ⟨once, same, spent⟩
    refine ⟨once, same, ?_⟩
    intro next equal
    obtain rfl := Option.some.inj equal
    exact {
      usage := by rw [spent sql raw usage rfl, ← ready.usage]
      attempts := same ▸ ready.attempts
      result := ready.result
      failed := ready.failed }

theorem reviewLoop_keeps (rounds : ℕ) {d : Draft} {t : Tally} (ready : Ready env settings d t) :
    (reviewLoop env settings shown sampleRows rounds d).Keeps noting
      (fun out t' => t'.generated ≤ t.generated + rounds ∧ t'.executions = t.executions ∧
        ∀ next, out = some next → Ready env settings next t') t := by
  induction rounds generalizing d t with
  | zero => exact ⟨le_rfl, rfl, fun next same => Option.some.inj same ▸ ready⟩
  | succ rounds ih =>
    refine Prog.keeps_note fun answer => ?_
    cases answer with
    | none => exact ⟨Nat.le_add_right _ _, rfl, nofun⟩
    | some result =>
      have seen : Ready env settings { d with
          reviewRounds := d.reviewRounds ++ [result]
          tokenUsage := SemanticCheck.addUsage d.tokenUsage (result.tokenUsage.getD []) }
          (note t ⟨.review d.sql d.schemaText d.notesText, some result⟩) := {
        usage := congrArg (SemanticCheck.addUsage · _) ready.usage
        attempts := ready.attempts
        result := ready.result
        failed := ready.failed }
      refine iteInduction (motive := Prog.Keeps _ _ _) (fun _ => ?_) (fun _ => ?_)
      · exact ⟨Nat.le_add_right _ _, rfl, fun next same => Option.some.inj same ▸ seen⟩
      · cases formatReviewFeedback shown result with
        | none => exact ⟨Nat.le_add_right _ _, rfl, nofun⟩
        | some feedback =>
          rw [Prog.some_andThen]
          refine Prog.keeps_andThen (regenerate_keeps seen feedback) ?_ ?_
          · rintro t' ⟨once, same, -⟩
            have once : t'.generated = t.generated + 1 := once
            exact ⟨by omega, same, nofun⟩
          · rintro next t' ⟨once, same, after⟩
            have once : t'.generated = t.generated + 1 := once
            have ready' := after next rfl
            refine iteInduction (motive := Prog.Keeps _ _ _) (fun _ => ?_) (fun _ => ?_)
            · exact ⟨by omega, same, fun last equal => Option.some.inj equal ▸ ready'⟩
            · refine (ih ready').mono ?_
              rintro out t'' ⟨few, kept, good⟩
              exact ⟨by omega, kept.trans same, good⟩

theorem expandContext_keeps (type : ErrorType) {d : Draft} {t : Tally}
    (ready : Ready env settings d t) :
    (expandContext settings type d).Keeps noting
      (fun out t' => t' = t ∧ ∀ next, out = some next → Ready env settings next t) t := by
  refine iteInduction (motive := Prog.Keeps _ _ _) (fun _ => ?_) (fun _ => ?_)
  · refine Prog.keeps_andThen ((retrieve_untallied _).unnoted note_untallied) ?_ ?_
    · rintro t' rfl
      exact ⟨rfl, nofun⟩
    · rintro chunks t' rfl
      refine @Prog.keeps_andThen _ _ _ _ _ _ _ _ _ (fun _ t'' => t'' = t') _ ?_ ?_ ?_
      · refine iteInduction (motive := Prog.Keeps _ _ _) (fun _ => ?_) (fun _ => rfl)
        exact (withCatalog_untallied _).unnoted note_untallied
      · rintro t'' rfl
        exact ⟨rfl, nofun⟩
      · rintro schemaText t'' rfl
        refine ⟨rfl, fun next same => ?_⟩
        obtain rfl := Option.some.inj same
        exact ⟨⟨ready.usage, ready.attempts, ready.result⟩, ready.failed⟩
  · exact ⟨rfl, fun next same => Option.some.inj same ▸ ready⟩

theorem correct_keeps (error : String) {d : Draft} {t : Tally} (ready : Ready env settings d t) :
    (correct env settings sampleRows error d).Keeps noting
      (fun out t' => t'.generated ≤ t.generated + 1 ∧ t'.executions = t.executions ∧
        ∀ next, out = some next → Ready env settings next t') t := by
  unfold correct
  cases ErrorClassifier.classifyExecError env.case error with
  | none => exact ⟨Nat.le_succ _, rfl, nofun⟩
  | some classified =>
    rw [Prog.some_andThen]
    refine Prog.keeps_andThen (expandContext_keeps classified.1 ready) ?_ ?_
    · rintro t' ⟨rfl, -⟩
      exact ⟨Nat.le_succ _, rfl, nofun⟩
    · rintro wide t' ⟨rfl, expanded⟩
      refine (regenerate_keeps (expanded wide rfl) _).mono ?_
      rintro out t'' ⟨once, same, good⟩
      exact ⟨once.le, same, good⟩

theorem executeOnce_keeps {d : Draft} {t : Tally} (ready : Ready env settings d t) :
    (executeOnce env settings (t.executions.length + 1) d).Keeps noting
      (fun out t' => t'.generated = t.generated ∧ t'.executions.length = t.executions.length + 1 ∧
        ∀ ran o, out = some (ran, o) → Finished env settings ran t' ∧
          (o.success = false → Ready env settings ran t')) t := by
  refine Prog.keeps_note fun database => ⟨rfl, List.length_append, ?_⟩
  intro ran o returned
  obtain ⟨result, executed, same⟩ := Option.map_eq_some_iff.mp returned
  obtain ⟨rfl, rfl⟩ := Prod.mk.inj same
  have booked : Booked env settings { d with
      execResult := some result
      execAttempts := d.execAttempts ++ [⟨t.executions.length + 1, d.sql, result⟩] }
      (note t ⟨.execute d.sql, database⟩) := {
    usage := ready.usage
    attempts := @Lists.append env settings _ _ (d.sql, database) _ ready.attempts executed
    result := by simp }
  refine ⟨⟨booked, ?_, ?_⟩, fun unsuccessful => ⟨booked, ?_⟩⟩
  · simpa using ready.failed
  · simp
  · intro entry member
    rcases List.mem_append.mp member with before | here
    · exact ready.failed entry before
    · exact List.mem_singleton.mp here ▸ unsuccessful

theorem Ready.emptied {d : Draft} {t : Tally} (ready : Ready env settings d t) (empty : d.sql = "") :
    Finished env settings d t :=
  ⟨ready.toBooked, fun entry member => ready.failed entry (List.dropLast_subset _ member),
    fun nonempty => absurd empty nonempty⟩

/-- With so many corrections left there are at most as many generations, and one execution more. -/
theorem executeLoop_keeps (retries : ℕ) {attempt : ℕ} {d : Draft} {t : Tally}
    (ready : Ready env settings d t) (numbered : attempt = t.executions.length + 1) :
    (executeLoop env settings sampleRows retries attempt d).Keeps noting
      (Within (t.generated + retries) (t.executions.length + (1 + retries)) (Finished env settings)) t := by
  induction retries generalizing attempt d t with
  | zero =>
    subst numbered
    refine Prog.keeps_andThen (executeOnce_keeps ready) ?_ ?_
    · rintro t' ⟨same, once, -⟩
      exact ⟨same.le, once.le, nofun⟩
    · rintro ⟨ran, o⟩ t' ⟨same, once, good⟩
      exact ⟨same.le, once.le, fun last equal => Option.some.inj equal ▸ (good ran o rfl).1⟩
  | succ retries ih =>
    subst numbered
    refine Prog.keeps_andThen (executeOnce_keeps ready) ?_ ?_
    · rintro t' ⟨same, once, -⟩
      exact ⟨by omega, by omega, nofun⟩
    · rintro ⟨ran, o⟩ t' ⟨same, once, good⟩
      obtain ⟨finished, failing⟩ := good ran o rfl
      cases o with
      | rows data columns =>
        exact ⟨by omega, by omega, fun last equal => Option.some.inj equal ▸ finished⟩
      | failed error errorType =>
        refine Prog.keeps_andThen (correct_keeps error (failing rfl)) ?_ ?_
        · rintro t'' ⟨few, kept, -⟩
          exact ⟨by omega, by rw [kept]; omega, nofun⟩
        · rintro next t'' ⟨few, kept, after⟩
          have ready' := after next rfl
          refine iteInduction (motive := Prog.Keeps _ _ _) (fun empty => ?_) (fun _ => ?_)
          · refine ⟨by omega, by rw [kept]; omega, fun last equal => ?_⟩
            exact Option.some.inj equal ▸ ready'.emptied empty
          · have numbered : t.executions.length + 1 + 1 = t''.executions.length + 1 := by
              rw [kept, once]
            refine (ih ready' numbered).mono fun out last within => ?_
            exact ⟨by have := within.generated; omega,
              by have := within.executions; rw [kept] at this; omega, within.good⟩

theorem reviewed_keeps {d : Draft} {t : Tally} (ready : Ready env settings d t) :
    (reviewed env settings shown sampleRows d).Keeps noting
      (fun out t' => t'.generated ≤ t.generated + maxReviewRounds ∧ t'.executions = t.executions ∧
        ∀ next, out = some next → Ready env settings next t') t := by
  refine iteInduction (motive := Prog.Keeps _ _ _) (fun _ => ?_) (fun _ => ?_)
  · exact reviewLoop_keeps maxReviewRounds ready
  · exact ⟨Nat.le_add_right _ _, rfl, fun next same => Option.some.inj same ▸ ready⟩

theorem executed_keeps {d : Draft} {t : Tally} (ready : Ready env settings d t)
    (fresh : t.executions = []) :
    (executed env settings sampleRows d).Keeps noting
      (Within (t.generated + maxExecutionRetries) (1 + maxExecutionRetries) (Finished env settings)) t := by
  refine iteInduction (motive := Prog.Keeps _ _ _) (fun _ => ?_) (fun empty => ?_)
  · refine (executeLoop_keeps maxExecutionRetries ready (by rw [fresh]; rfl)).mono ?_
    rintro out t' ⟨few, once, good⟩
    rw [fresh] at once
    exact ⟨few, by simpa using once, good⟩
  · refine ⟨Nat.le_add_right _ _, by rw [fresh]; exact Nat.zero_le _, fun next same => ?_⟩
    exact Option.some.inj same ▸ ready.emptied (not_not.mp empty)

theorem draft_keeps (chunks : List Chunk) (schemaText notesText : String) :
    (draft env settings sampleRows chunks schemaText notesText).Keeps noting
      (fun out t' => t'.generated = 1 ∧ t'.executions = [] ∧
        ∀ d, out = some d → Ready env settings d t') {} := by
  refine Prog.keeps_andThen (generateSql_keeps _ _ _ _ {}) ?_ ?_
  · rintro t' ⟨once, none, -⟩
    exact ⟨once, none, nofun⟩
  · rintro ⟨sql, raw, usage⟩ t' ⟨once, none, spent⟩
    refine ⟨once, none, fun d same => ?_⟩
    obtain rfl := Option.some.inj same
    exact {
      usage := (spent sql raw usage rfl).symm
      attempts := by rw [none]; rfl
      result := rfl
      failed := nofun }

theorem run_keeps : (run env settings shown).Keeps noting
    (Within (1 + maxReviewRounds + maxExecutionRetries) (1 + maxExecutionRetries)
      fun r t => Accounted env settings t r) {} := by
  refine Prog.keeps_andThen (gather_untallied.unnoted note_untallied) ?_ ?_
  · rintro t rfl
    exact ⟨Nat.zero_le _, Nat.zero_le _, nofun⟩
  rintro ⟨chunks, schemaText, notesText⟩ t rfl
  refine Prog.keeps_andThen (buildSampleRows_untallied.unnoted note_untallied) ?_ ?_
  · rintro t rfl
    exact ⟨Nat.zero_le _, Nat.zero_le _, nofun⟩
  rintro sampleRows t rfl
  refine Prog.keeps_andThen (draft_keeps chunks schemaText notesText) ?_ ?_
  · rintro t ⟨once, none, -⟩
    exact ⟨by omega, by rw [none]; exact Nat.zero_le _, nofun⟩
  rintro d t ⟨once, none, ready⟩
  refine Prog.keeps_andThen (reviewed_keeps (ready d rfl)) ?_ ?_
  · rintro t' ⟨few, same, -⟩
    exact ⟨by omega, by rw [same, none]; exact Nat.zero_le _, nofun⟩
  rintro d' t' ⟨few, same, ready'⟩
  refine Prog.keeps_andThen (executed_keeps (ready' d' rfl) (same.trans none)) ?_ ?_
  · rintro t'' ⟨calls, executions, -⟩
    exact ⟨by omega, executions, nofun⟩
  rintro last t'' ⟨calls, executions, good⟩
  refine ⟨by omega, executions, fun returned equal => ?_⟩
  exact Option.some.inj equal ▸ (good last rfl).accounted

end

/-- In every world, whether the run returns or raises, its calls are bounded; and what it
returns pairs the text with its result and accounts for every call. -/
theorem run_accounted (world : Prog.World Effect Answer) :
    let recorded := (run env settings shown).record world []
    (tally recorded.1).generated ≤ 1 + maxReviewRounds + maxExecutionRetries ∧
    (tally recorded.1).executions.length ≤ 1 + maxExecutionRetries ∧
    ∀ returned, recorded.2 = some returned → Accounted env settings (tally recorded.1) returned := by
  obtain ⟨calls, executions, good⟩ :=
    @Prog.Keeps.recorded _ _ _ _ note {} _ _ [] world (@run_keeps env settings shown)
  exact ⟨calls, executions, good⟩

/-- A reviewer that rejects twice, and a database that knows no column until the second attempt. -/
def strict : Prog.World Effect Answer := fun past e =>
  match e with
  | .schemaSummary => some "CREATE TABLE t (\n  total INTEGER\n);\n"
  | .schemaInfo => some []
  | .sampleRows _ => some ""
  | .retrieve _ _ => some []
  | .generate _ _ => some ⟨"SELECT total FROM t", ⟨10, 2, 12⟩⟩
  | .review _ _ _ => some ⟨[("valid", .bool false)], some [("total", 5)]⟩
  | .execute _ => fun _ _ =>
    if (tally past).executions = [] then .error "no such column: total" else .ok ([[.num 1]], ["total"])

example : ((run Env.plain { question := "Total?" } fun _ => "").record strict []).2.map
    (fun r => (r.sql, r.execAttempts.map Attempt.attempt, r.tokenUsage)) =
      some ("SELECT total FROM t", [1, 2], ⟨40, 8, 58⟩) := by decide +kernel

end LegacyPipeline
end Nl2SqlAgent

import Mathlib.Algebra.GroupWithZero.Nat
import Mathlib.Algebra.Order.Ring.Rat
import Nl2SqlAgent.AgentState
import Nl2SqlAgent.Lib.Machine
import Nl2SqlAgent.Lib.PyText

/-! The loop of `run_bird_eval` over one configuration. A sample waits in the queue, runs
as a future of the pool and comes back: to the queue after an exception or a timeout, to
the results after its last. -/
namespace Nl2SqlAgent

open Lib

namespace Evaluation

structure BirdSample where
  questionId : String
  dbId : String
  difficulty : String
  goldSql : String
  deriving DecidableEq, Repr

/-- What `evaluate_bird_sample` finds out about its sample. -/
structure Measured where
  ex : Bool
  ves : Rat
  detail : String
  genSql : String
  tokenUsage : TokenUsage
  elapsedS : Rat
  routerScore : Option Rat
  routerMethod : Option String
  routerComplexity : Option String
  ragRecall : Option Rat
  deriving DecidableEq, Repr

structure CaseResult where
  questionId : String
  dbId : String
  difficulty : String
  knowledgeSource : String
  ex : Bool
  ves : Rat
  detail : String
  genSql : String
  goldSql : String
  tokenUsage : TokenUsage
  elapsedS : Rat
  routerScore : Option Rat
  routerMethod : Option String
  routerComplexity : Option String
  ragRecall : Option Rat
  deriving DecidableEq, Repr

def evaluateBirdSample (knowledgeSource : String) (sample : BirdSample) (m : Measured) :
    CaseResult where
  questionId := sample.questionId
  dbId := sample.dbId
  difficulty := sample.difficulty
  knowledgeSource := knowledgeSource
  ex := m.ex
  ves := m.ves
  detail := m.detail
  genSql := Py.take 300 m.genSql
  goldSql := Py.take 300 sample.goldSql
  tokenUsage := m.tokenUsage
  elapsedS := m.elapsedS
  routerScore := m.routerScore
  routerMethod := m.routerMethod
  routerComplexity := m.routerComplexity
  ragRecall := m.ragRecall

/-- The entry of a sample that no attempt has settled. -/
def crashResult (knowledgeSource : String) (sample : BirdSample) (detail : String) :
    CaseResult where
  questionId := sample.questionId
  dbId := sample.dbId
  difficulty := sample.difficulty
  knowledgeSource := knowledgeSource
  ex := false
  ves := 0
  detail := Py.take 200 detail
  genSql := ""
  goldSql := Py.take 300 sample.goldSql
  tokenUsage := .zero
  elapsedS := 0
  routerScore := none
  routerMethod := none
  routerComplexity := none
  ragRecall := none

def maxSampleRetries : Nat := 2

def timeouts : List Rat := [120, 300, 480]

def hardTimeout (retries : Nat) : Rat := timeouts.getD (min retries (timeouts.length - 1)) 0

/-- How an attempt ended: its future was done, with a result or with an exception (its
text), or it was given up. -/
inductive Ending
  | finished (result : Except String Measured)
  | expired
  deriving Repr

def Ending.failed : Ending → Bool
  | .finished (.ok _) => false
  | .finished (.error _) => true
  | .expired => true

/-- One item of `pending`. -/
structure Running (S : Type) where
  future : Nat
  sample : S
  retries : Nat
  tSubmit : Rat
  deriving Repr

structure Attempt (S : Type) where
  sample : S
  retries : Nat
  ending : Ending
  deriving Repr

/-- No attempt follows this one. -/
def Attempt.final {S : Type} (a : Attempt S) : Bool :=
  !a.ending.failed || decide (maxSampleRetries ≤ a.retries)

structure Tally where
  passed : Nat := 0
  total : Nat := 0
  vesSum : Rat := 0
  tokens : Nat := 0
  time : Rat := 0
  deriving DecidableEq, Repr

inductive TimeoutAction
  | retry
  | crash
  deriving DecidableEq, Repr

structure TimeoutEvent where
  questionId : String
  dbId : String
  difficulty : String
  retry : Nat
  timeoutS : Rat
  action : TimeoutAction
  deriving DecidableEq, Repr

structure RouterTrace where
  questionId : String
  difficulty : String
  routerScore : Rat
  routerMethod : Option String
  routerComplexity : Option String
  exPass : Bool
  deriving DecidableEq, Repr

/-- The variables of the loop. `submitted` and `ended` are what has happened so far, which
the code does not keep. -/
structure Loop (S : Type) where
  taskQueue : List (S × Nat)
  pending : List (Running S) := []
  futures : Nat := 0
  caseResults : List CaseResult := []
  passed : Nat := 0
  crashed : Nat := 0
  completed : Nat := 0
  totalTime : Rat := 0
  totalVes : Rat := 0
  totalTokens : TokenUsage := .zero
  diffStats : String → Tally := fun _ => {}
  routerTraces : List RouterTrace := []
  ragRecallSum : Rat := 0
  ragRecallCount : Nat := 0
  timeoutLog : List TimeoutEvent := []
  submitted : List S := []
  ended : List (Attempt S) := []

/-- What the loop is started with. The samples are objects, of which `about` reads the
fields; `clock` is the time at which each future is submitted. -/
structure Setting (S : Type) where
  about : S → BirdSample
  cfgKnowledge : String
  maxWorkers : Nat
  clock : Nat → Rat

/-- What one iteration of the loop meets: the futures that `wait` returns as done, and the time. -/
structure Wake where
  done : List (Nat × Except String Measured)
  now : Rat
  deriving Repr

variable {S : Type}

def submitNext (c : Setting S) (l : Loop S) : Loop S :=
  match l.taskQueue with
  | [] => l
  | (s, retries) :: rest =>
    if l.pending.length < c.maxWorkers then
      { l with
        taskQueue := rest
        pending := l.pending ++ [⟨l.futures, s, retries, c.clock l.futures⟩]
        futures := l.futures + 1
        submitted := l.submitted ++ [s] }
    else l

/-- `while len(pending) < max_workers and task_queue`, for at most so many rounds. -/
def fill (c : Setting S) : Nat → Loop S → Loop S
  | 0, l => l
  | rounds + 1, l =>
    if l.pending.length < c.maxWorkers && !l.taskQueue.isEmpty then
      fill c rounds (submitNext c l)
    else l

/-- Every round of the loop takes one sample from the queue. -/
def refill (c : Setting S) (l : Loop S) : Loop S := fill c l.taskQueue.length l

def Tally.add (t : Tally) (r : CaseResult) : Tally where
  passed := if r.ex then t.passed + 1 else t.passed
  total := t.total + 1
  vesSum := if r.ex then t.vesSum + r.ves else t.vesSum
  tokens := t.tokens + r.tokenUsage.total
  time := t.time + r.elapsedS

/-- The entry of a future that was done goes into the results and all counts. -/
def account (r : CaseResult) (l : Loop S) : Loop S :=
  { l with
    completed := l.completed + 1
    totalTime := l.totalTime + r.elapsedS
    totalTokens := l.totalTokens.add r.tokenUsage
    totalVes := l.totalVes + r.ves
    passed := if r.ex then l.passed + 1 else l.passed
    diffStats := fun d => if d = r.difficulty then (l.diffStats d).add r else l.diffStats d
    caseResults := l.caseResults ++ [r]
    ragRecallSum := l.ragRecallSum + r.ragRecall.getD 0
    ragRecallCount := l.ragRecallCount + r.ragRecall.isSome.toNat
    routerTraces := l.routerTraces ++ r.routerScore.toList.map fun score =>
      ⟨r.questionId, r.difficulty, score, r.routerMethod, r.routerComplexity, r.ex⟩ }

/-- `pending` without the future. -/
def leave (e : Running S) (ending : Ending) (l : Loop S) : Loop S :=
  { l with
    pending := l.pending.filter fun other => other.future != e.future
    ended := l.ended ++ [⟨e.sample, e.retries, ending⟩] }

/-- One future of `done`. -/
def takeDone (c : Setting S) (l : Loop S) (d : Nat × Except String Measured) : Loop S :=
  match l.pending.find? fun e => e.future == d.1 with
  | none => l
  | some e =>
    let l := leave e (.finished d.2) l
    match d.2 with
    | .ok m => account (evaluateBirdSample c.cfgKnowledge (c.about e.sample) m) l
    | .error exc =>
      if e.retries < maxSampleRetries then
        { l with taskQueue := (e.sample, e.retries + 1) :: l.taskQueue }
      else
        account (crashResult c.cfgKnowledge (c.about e.sample)
          s!"Failed after {maxSampleRetries + 1} attempts: {exc}") { l with crashed := l.crashed + 1 }

def timeoutEvent (c : Setting S) (e : Running S) (action : TimeoutAction) : TimeoutEvent where
  questionId := (c.about e.sample).questionId
  dbId := (c.about e.sample).dbId
  difficulty := (c.about e.sample).difficulty
  retry := e.retries + 1
  timeoutS := hardTimeout e.retries
  action := action

/-- One item of `expired`, as `pending` held it at the start of the iteration. -/
def takeExpired (c : Setting S) (l : Loop S) (e : Running S) : Loop S :=
  if l.pending.any fun other => other.future == e.future then
    let l := leave e .expired l
    if e.retries < maxSampleRetries then
      { l with
        timeoutLog := l.timeoutLog ++ [timeoutEvent c e .retry]
        taskQueue := (e.sample, e.retries + 1) :: l.taskQueue }
    else
      let r := crashResult c.cfgKnowledge (c.about e.sample)
        s!"Hard timeout after {maxSampleRetries + 1} attempts"
      { l with
        timeoutLog := l.timeoutLog ++ [timeoutEvent c e .crash]
        crashed := l.crashed + 1
        completed := l.completed + 1
        diffStats := fun d =>
          if d = r.difficulty then { l.diffStats d with total := (l.diffStats d).total + 1 }
          else l.diffStats d
        caseResults := l.caseResults ++ [r] }
  else l

def Wake.expires (w : Wake) (e : Running S) : Bool :=
  decide (hardTimeout e.retries < w.now - e.tSubmit)

/-- One iteration of `while pending`. What has expired is found before `done` is worked off. -/
def iteration (c : Setting S) (w : Wake) (l : Loop S) : Loop S :=
  refill c ((l.pending.filter w.expires).foldl (takeExpired c) (w.done.foldl (takeDone c) l))

def start (c : Setting S) (samples : List S) : Loop S :=
  refill c { taskQueue := samples.map fun s => (s, 0) }

def Loop.settled (l : Loop S) : List (Attempt S) := l.ended.filter Attempt.final

/-- How the attempts of a sample ended, in order. -/
def Loop.attempts [DecidableEq S] (l : Loop S) (s : S) : List Ending :=
  (l.ended.filter fun a => a.sample = s).map Attempt.ending

/-- Where the samples are: each waits, runs or is settled. -/
def Loop.holdings (l : Loop S) : List S :=
  l.taskQueue.map Prod.fst ++ l.pending.map Running.sample ++ l.settled.map Attempt.sample

/-- The entry of a sample whose last attempt ended so. -/
def entry (c : Setting S) (s : S) : Ending → CaseResult
  | .finished (.ok m) => evaluateBirdSample c.cfgKnowledge (c.about s) m
  | .finished (.error exc) => crashResult c.cfgKnowledge (c.about s)
      s!"Failed after {maxSampleRetries + 1} attempts: {exc}"
  | .expired => crashResult c.cfgKnowledge (c.about s)
      s!"Hard timeout after {maxSampleRetries + 1} attempts"

/-- The entry goes into the results and is counted; the samples stay where they are. -/
structure Enters (r : CaseResult) (crash : Bool) (l l' : Loop S) : Prop where
  taskQueue : l'.taskQueue = l.taskQueue
  pending : l'.pending = l.pending
  futures : l'.futures = l.futures
  submitted : l'.submitted = l.submitted
  ended : l'.ended = l.ended
  caseResults : l'.caseResults = l.caseResults ++ [r]
  completed : l'.completed = l.completed + 1
  passed : l'.passed = l.passed + r.ex.toNat
  crashed : l'.crashed = l.crashed + crash.toNat
  totals : ∀ d, (l'.diffStats d).total = (l.diffStats d).total + (r.difficulty == d).toNat
  passes : ∀ d, (l'.diffStats d).passed =
    (l.diffStats d).passed + (r.difficulty == d && r.ex).toNat

/-- The attempt is over: its sample goes back to the head of the queue or is settled. -/
inductive Ends (c : Setting S) (e : Running S) (l : Loop S) : Loop S → Prop
  | requeued (ending : Ending) (log : List TimeoutEvent) (failed : ending.failed = true)
      (few : e.retries < maxSampleRetries) :
      Ends c e l { leave e ending l with
        timeoutLog := log, taskQueue := (e.sample, e.retries + 1) :: l.taskQueue }
  | settled (ending : Ending) (final : Attempt.final ⟨e.sample, e.retries, ending⟩ = true)
      (entered : Enters (entry c e.sample ending) ending.failed (leave e ending l) l') :
      Ends c e l l'

section Moves

variable {c : Setting S} {l l' : Loop S} {e : Running S}

theorem account_enters (r : CaseResult) (l : Loop S) : Enters r false l (account r l) where
  taskQueue := rfl
  pending := rfl
  futures := rfl
  submitted := rfl
  ended := rfl
  caseResults := rfl
  completed := rfl
  passed := by cases ex : r.ex <;> simp [account, ex]
  crashed := rfl
  totals d := by
    by_cases same : d = r.difficulty
    · subst same
      simp [account, Tally.add]
    · simp [account, same, beq_false_of_ne (Ne.symm same)]
  passes d := by
    by_cases same : d = r.difficulty
    · subst same
      cases ex : r.ex <;> simp [account, Tally.add, ex]
    · simp [account, same, beq_false_of_ne (Ne.symm same)]

/-- An attempt that raised counts its crash before the entry is accounted. -/
theorem account_crashed (r : CaseResult) (l : Loop S) :
    Enters r true l (account r { l with crashed := l.crashed + 1 }) := by
  have entered := account_enters r { l with crashed := l.crashed + 1 }
  exact { entered with crashed := rfl }

theorem takeDone_cases (c : Setting S) (l : Loop S) (d : Nat × Except String Measured) :
    (takeDone c l d = l ∧ ∀ e ∈ l.pending, e.future ≠ d.1) ∨
      ∃ e ∈ l.pending, e.future = d.1 ∧ Ends c e l (takeDone c l d) := by
  cases found : l.pending.find? fun e => e.future == d.1 with
  | none =>
    refine .inl ⟨by simp only [takeDone, found], fun e member => ?_⟩
    simpa using List.find?_eq_none.mp found e member
  | some e =>
    have same : e.future = d.1 := by simpa using List.find?_some found
    refine .inr ⟨e, List.mem_of_find?_eq_some found, same, ?_⟩
    obtain ⟨future, result⟩ := d
    simp only [takeDone, found]
    cases result with
    | ok m => exact .settled (.finished (.ok m)) rfl (account_enters _ _)
    | error exc =>
      simp only
      split
      · rename_i few
        exact .requeued (.finished (.error exc)) _ rfl few
      · rename_i many
        exact .settled (.finished (.error exc)) (by simpa [Attempt.final] using Or.inr (not_lt.mp many))
          (account_crashed _ _)

theorem takeExpired_cases (c : Setting S) (l : Loop S) (e : Running S) :
    (takeExpired c l e = l ∧ ∀ other ∈ l.pending, other.future ≠ e.future) ∨
      (∃ other ∈ l.pending, other.future = e.future) ∧ Ends c e l (takeExpired c l e) := by
  cases found : l.pending.any fun other => other.future == e.future with
  | false =>
    refine .inl ⟨by simp [takeExpired, found], fun other member => ?_⟩
    simpa using List.any_eq_false.mp found other member
  | true =>
    refine .inr ⟨by simpa using found, ?_⟩
    simp only [takeExpired, found, if_true]
    split
    · rename_i few
      exact .requeued .expired _ rfl few
    · rename_i many
      refine .settled .expired (by simpa [Attempt.final] using Or.inr (not_lt.mp many)) ?_
      exact {
        taskQueue := rfl
        pending := rfl
        futures := rfl
        submitted := rfl
        ended := rfl
        caseResults := rfl
        completed := rfl
        passed := rfl
        crashed := rfl
        totals := fun d => by
          by_cases same : d = (c.about e.sample).difficulty
          · subst same
            simp [leave, entry, crashResult]
          · simp [leave, entry, crashResult, same, beq_false_of_ne (Ne.symm same)]
        passes := fun d => by
          by_cases same : d = (c.about e.sample).difficulty
          · simp [leave, entry, crashResult, same]
          · simp [leave, entry, crashResult, same] }

theorem Ends.pending (ends : Ends c e l l') :
    l'.pending = l.pending.filter fun other => other.future != e.future := by
  cases ends with
  | requeued => rfl
  | settled ending _ entered => exact entered.pending

theorem Ends.gone (ends : Ends c e l l') : ∀ other ∈ l'.pending, other.future ≠ e.future := by
  intro other member
  rw [ends.pending] at member
  simpa using (List.mem_filter.mp member).2

theorem takeDone_subset (d : Nat × Except String Measured) :
    (takeDone c l d).pending ⊆ l.pending := by
  rcases takeDone_cases c l d with ⟨same, _⟩ | ⟨e, _, _, ends⟩
  · rw [same]
    exact List.Subset.refl _
  · rw [ends.pending]
    exact List.filter_subset_self _

theorem takeExpired_subset (e : Running S) : (takeExpired c l e).pending ⊆ l.pending := by
  rcases takeExpired_cases c l e with ⟨same, _⟩ | ⟨_, ends⟩
  · rw [same]
    exact List.Subset.refl _
  · rw [ends.pending]
    exact List.filter_subset_self _

theorem done_subset (done : List (Nat × Except String Measured)) :
    (done.foldl (takeDone c) l).pending ⊆ l.pending := by
  induction done generalizing l with
  | nil => exact List.Subset.refl _
  | cons d rest ih => exact fun e member => takeDone_subset d (ih member)

theorem expired_subset (expired : List (Running S)) :
    (expired.foldl (takeExpired c) l).pending ⊆ l.pending := by
  induction expired generalizing l with
  | nil => exact List.Subset.refl _
  | cons e rest ih => exact fun other member => takeExpired_subset e (ih member)

theorem takeDone_gone (d : Nat × Except String Measured) :
    ∀ e ∈ (takeDone c l d).pending, e.future ≠ d.1 := by
  rcases takeDone_cases c l d with ⟨same, absent⟩ | ⟨e, _, future, ends⟩
  · rw [same]
    exact absent
  · rw [← future]
    exact ends.gone

theorem takeExpired_gone (e : Running S) :
    ∀ other ∈ (takeExpired c l e).pending, other.future ≠ e.future := by
  rcases takeExpired_cases c l e with ⟨same, absent⟩ | ⟨_, ends⟩
  · rw [same]
    exact absent
  · exact ends.gone

theorem done_gone {done : List (Nat × Except String Measured)} (member : d ∈ done) :
    ∀ e ∈ (done.foldl (takeDone c) l).pending, e.future ≠ d.1 := by
  induction done generalizing l with
  | nil => simp at member
  | cons first rest ih =>
    rcases List.mem_cons.mp member with rfl | later
    · exact fun e still => takeDone_gone _ e (done_subset rest still)
    · exact ih later

theorem expired_gone {expired : List (Running S)} (member : e ∈ expired) :
    ∀ other ∈ (expired.foldl (takeExpired c) l).pending, other.future ≠ e.future := by
  induction expired generalizing l with
  | nil => simp at member
  | cons first rest ih =>
    rcases List.mem_cons.mp member with rfl | later
    · exact fun other still => takeExpired_gone _ other (expired_subset rest still)
    · exact ih later

theorem takeDone_keeps {d : Nat × Except String Measured} (member : e ∈ l.pending)
    (other : e.future ≠ d.1) : e ∈ (takeDone c l d).pending := by
  rcases takeDone_cases c l d with ⟨same, _⟩ | ⟨_, _, future, ends⟩
  · rwa [same]
  · rw [ends.pending, future]
    exact List.mem_filter.mpr ⟨member, bne_iff_ne.mpr other⟩

theorem takeExpired_keeps {gone : Running S} (member : e ∈ l.pending)
    (other : e.future ≠ gone.future) : e ∈ (takeExpired c l gone).pending := by
  rcases takeExpired_cases c l gone with ⟨same, _⟩ | ⟨_, ends⟩
  · rwa [same]
  · rw [ends.pending]
    exact List.mem_filter.mpr ⟨member, bne_iff_ne.mpr other⟩

/-- `_submit_next` in the loops that call it. -/
theorem fill_induction (property : Loop S → Prop)
    (submits : ∀ l s retries rest, l.taskQueue = (s, retries) :: rest → property l →
      property { l with
        taskQueue := rest
        pending := l.pending ++ [⟨l.futures, s, retries, c.clock l.futures⟩]
        futures := l.futures + 1
        submitted := l.submitted ++ [s] })
    (rounds : Nat) (initial : property l) : property (fill c rounds l) := by
  induction rounds generalizing l with
  | zero => exact initial
  | succ rounds ih =>
    simp only [fill]
    split
    · rename_i guard
      cases queue : l.taskQueue with
      | nil => simp [queue] at guard
      | cons q rest =>
        have slot : l.pending.length < c.maxWorkers := by
          simp only [queue, List.isEmpty_cons, Bool.not_false, Bool.and_true, decide_eq_true_eq] at guard
          exact guard
        simp only [submitNext, queue, slot, if_true]
        exact ih (submits l q.1 q.2 rest queue initial)
    · exact initial

/-- The loops that refill the slots end with a slot taken or the queue empty. -/
theorem fill_idle (rounds : Nat) (enough : l.taskQueue.length ≤ rounds)
    (slot : (fill c rounds l).pending.length < c.maxWorkers) : (fill c rounds l).taskQueue = [] := by
  induction rounds generalizing l with
  | zero => exact List.length_eq_zero_iff.mp (Nat.le_zero.mp enough)
  | succ rounds ih =>
    simp only [fill] at slot ⊢
    split at slot
    · rename_i guard
      rw [if_pos guard]
      refine ih ?_ slot
      cases queue : l.taskQueue with
      | nil => simp [queue] at guard
      | cons q rest =>
        rw [queue, List.length_cons] at enough
        simp only [submitNext, queue]
        split
        · exact Nat.le_of_succ_le_succ enough
        · rename_i full
          simp [queue, full] at guard
    · rename_i guard
      rw [if_neg guard]
      simpa [slot] using guard

theorem refill_idle (workers : 1 ≤ c.maxWorkers) (idle : (refill c l).pending = []) :
    (refill c l).taskQueue = [] :=
  fill_idle _ le_rfl (by rw [refill] at idle; rw [idle]; exact workers)

end Moves

end Evaluation
end Nl2SqlAgent

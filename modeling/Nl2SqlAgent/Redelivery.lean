import Nl2SqlAgent.TaskEvents

/-! A request message that is handled when its task is over: the transition to RUNNING is
refused, and what the handler does then. -/
namespace Nl2SqlAgent

open Lib

namespace TaskEvents

variable {w w' : World} {c : Choice} {e : Effect} {r : e.Answer} {forks : List Desc} {d : Doc} {n : Nat}
  {retryCount : Fin 4}

/-- The result and what later feedback rounds are given. -/
def resultKeys : List String :=
  ["sql","exec_result","token_usage","conversation_turns"] ++ TaskStore.contextKeys

def KeepsResult (w w' : World) : Prop :=
  ∃ d d', w.task.doc = some d ∧ w'.task.doc = some d' ∧ ∀ key ∈ resultKeys, d'.lookup key = d.lookup key

/-- No event tells that the task runs or has succeeded. -/
def Silent (w w' : World) : Prop :=
  ∀ event ∈ [EventName.running, .success], w'.published.count event = w.published.count event

def NoGraph (w w' : World) : Prop := w'.graphs = w.graphs

/-- The handler of a request message, alone with the task. -/
def redelivered (w : World) (retryCount : Fin 4) (n : Nat) (again : Bool) :
    Config Effect Effect.Answer World Desc :=
  ⟨w, [system.start { task := .handleTask retryCount, handler := n, again }]⟩

def isArrival : Event Desc Choice Move → Bool
  | .arrive _ => true
  | _ => false

/-- What holds at the end of every run of the handler, its graph and the recorder. -/
def Always (w : World) (retryCount : Fin 4) (n : Nat) (again : Bool) (property : World → World → Prop) :
    Prop :=
  ∀ events config, (∀ event ∈ events, isArrival event = false) →
    system.machine.exec (redelivered w retryCount n again) events = some config →
    property w config.world

/-- How far the handler has come that finds the flag set and the task over. -/
inductive Refused (n : Nat) (retryCount : Fin 4) : Task Unit → Prop where
  | begun : Refused n retryCount (handleTask n retryCount)
  | flagged : Refused n retryCount (conclude n false "CANCELLED" none)
  | ended : Refused n retryCount (.ret ())

theorem over_refused {next : String} (finished : TaskThreads.isOver (TaskStore.status d) = true)
    (later : next ≠ "PENDING") : TaskStore.validTransition (some d) next = false := by
  simp only [TaskThreads.isOver, List.mem_cons, List.not_mem_nil, or_false, decide_eq_true_eq] at finished
  rcases finished with status | status | status | status <;>
    simp [TaskStore.validTransition, TaskStore.allowed, status, later]

/-- What the handler leaves as it is. -/
structure Alike (w w' : World) : Prop where
  doc : w'.task.doc = w.task.doc
  cancelled : w'.task.cancelled = w.task.cancelled
  published : w'.published = w.published
  graphs : w'.graphs = w.graphs

theorem Alike.trans {w'' : World} (first : Alike w w') (second : Alike w' w'') : Alike w w'' :=
  ⟨second.doc.trans first.doc, second.cancelled.trans first.cancelled,
    second.published.trans first.published, second.graphs.trans first.graphs⟩

theorem Refused.step {k : e.Answer → Task Unit} (refused : Refused n retryCount (.act e k))
    (stored : w.task.doc = some d) (finished : TaskThreads.isOver (TaskStore.status d) = true)
    (flagged : w.task.cancelled = true) (performed : perform w c e = some (w', r, forks)) :
    forks = [] ∧ Alike w w' ∧ Refused n retryCount (k r) := by
  generalize same : Prog.act e k = q at refused
  cases refused with
  | begun =>
    obtain ⟨rfl, rest⟩ := Prog.act.inj same
    obtain rfl := eq_of_heq rest
    obtain ⟨rfl, answered⟩ := Prod.mk.inj (Option.some.inj performed)
    obtain ⟨rfl, rfl⟩ := Prod.mk.inj answered
    refine ⟨rfl, ⟨rfl, rfl, rfl, rfl⟩, ?_⟩
    change Refused n retryCount
      (if (w.task.cancelled : Bool) = true then conclude n false "CANCELLED" none else _)
    rw [if_pos flagged]
    exact .flagged
  | flagged =>
    obtain ⟨rfl, rest⟩ := Prog.act.inj same
    obtain rfl := eq_of_heq rest
    obtain ⟨rfl, answered⟩ := Prod.mk.inj (Option.some.inj performed)
    obtain ⟨rfl, rfl⟩ := Prod.mk.inj answered
    refine ⟨rfl, ⟨rfl, rfl, rfl, rfl⟩, ?_⟩
    have refusal : TaskStore.validTransition w.task.doc "CANCELLED" = false := by
      rw [stored]
      exact over_refused finished (by decide)
    change Refused n retryCount (Prog.embed _ _
      (if TaskStore.validTransition w.task.doc "CANCELLED" then _ else _))
    rw [refusal]
    exact .ended
  | ended => contradiction

/-- The handler is alone, and has come to nothing that changes the task. -/
structure Stopped (w : World) (n : Nat) (retryCount : Fin 4)
    (config : Config Effect Effect.Answer World Desc) : Prop where
  alike : Alike w config.world
  alone : ∃ t, config.pool = [t] ∧ Refused n retryCount t.rest

theorem Stopped.step {config config' : Config Effect Effect.Answer World Desc}
    {event : Event Desc Choice Move} (stored : w.task.doc = some d)
    (finished : TaskThreads.isOver (TaskStore.status d) = true) (flagged : w.task.cancelled = true)
    (stopped : Stopped w n retryCount config)
    (stepped : system.machine.step config event = some config') (ran : isArrival event = false) :
    Stopped w n retryCount config' := by
  obtain ⟨alike, t, alone, refused⟩ := stopped
  rcases Threads.step_cases stepped with
    ⟨pid, choice, d, e, k, w', r, forks, rfl, fetched, performed, rfl⟩ |
    ⟨d, w', rfl, arrived, rfl⟩ | ⟨move, w', rfl, moved, rfl⟩
  · rw [alone] at fetched
    obtain ⟨bound, same⟩ := List.getElem?_eq_some_iff.mp fetched
    obtain rfl : pid = 0 := by simpa using bound
    obtain rfl : t = ⟨d, .act e k⟩ := same
    obtain ⟨rfl, still, later⟩ := refused.step (alike.doc.trans stored) finished
      (alike.cancelled.trans flagged) performed
    refine ⟨alike.trans still, ⟨d, k r⟩, ?_, later⟩
    simp [alone]
  · contradiction
  · obtain ⟨recorder, -, rfl⟩ := Option.map_eq_some_iff.mp moved
    exact ⟨⟨alike.doc, alike.cancelled, alike.published, alike.graphs⟩, t, alone, refused⟩

theorem alike_always (stored : w.task.doc = some d)
    (finished : TaskThreads.isOver (TaskStore.status d) = true) (flagged : w.task.cancelled = true)
    (retryCount : Fin 4) (n : Nat) (again : Bool) : Always w retryCount n again Alike := by
  intro events config ran run
  have initially : Stopped w n retryCount (redelivered w retryCount n again) :=
    ⟨⟨rfl, rfl, rfl, rfl⟩, _, rfl, .begun⟩
  have stopped := Machine.invariant_along (Stopped w n retryCount)
    (fun _ _ _ held stepped allowed => held.step stored finished flagged stepped allowed) initially
    (Machine.along_of_events ran) run
  exact stopped.alike

/-- `handle_task` after its first transition. -/
def goingOn (n : Nat) (retryCount : Fin 4) : Task Unit := do
  publish .running
  let run ← calls { handler := some n } (TaskThreads.ask .startGraph)
  await n run >>= taskWaited n retryCount

theorem goes_on (stored : w.task.doc = some d)
    (finished : TaskThreads.isOver (TaskStore.status d) = true) (unflagged : w.task.cancelled = false)
    (retryCount : Fin 4) (n : Nat) (again : Bool) :
    system.machine.exec (redelivered w retryCount n again) [.run 0 {}, .run 0 {}] = some
      ⟨w, [⟨{ task := .handleTask retryCount, handler := n, again }, goingOn n retryCount⟩]⟩ := by
  obtain ⟨⟨doc, cancelled, requests, feedbacks, asked, runs, results, deliveries, checks, executions,
    answered⟩, broker, recorder, submitted, handlers, published, graphs, inCharge, submitting⟩ := w
  obtain rfl : doc = some d := stored
  obtain rfl : cancelled = false := unflagged
  have refusal : TaskStore.validTransition (some d) "RUNNING" = false := over_refused finished (by decide)
  refine Machine.exec_cons_some.mpr ⟨_, rfl, Machine.exec_cons_some.mpr ⟨_, rfl, ?_⟩⟩
  change some (Config.mk _ [Thread.mk _ ((Prog.embed (place _) (placed _)
    (if TaskStore.validTransition (some d) "RUNNING" = true then _ else _)).bind _)]) = _
  rw [refusal]
  rfl

def graphOf (sql : String) : TaskThreads.GraphRun TaskThreads.Context :=
  ⟨[], .ok (⟨some sql, .null, [], []⟩, ⟨"", "", "", []⟩)⟩

/-- The graph is started all the same, and its result replaces the stored one. -/
theorem overwrites (stored : w.task.doc = some d)
    (finished : TaskThreads.isOver (TaskStore.status d) = true) (unflagged : w.task.cancelled = false)
    (retryCount : Fin 4) (n : Nat) (again : Bool) (sql : String) :
    ∃ events config, (∀ event ∈ events, isArrival event = false) ∧
      system.machine.exec (redelivered w retryCount n again) events = some config ∧
      config.world.published = .running :: w.published ∧ config.world.graphs = w.graphs ++ [n] ∧
      config.world.task.doc.bind (fun d' => d'.lookup "sql") = some (.str sql) := by
  have begun := goes_on stored finished unflagged retryCount n again
  obtain ⟨⟨doc, cancelled, requests, feedbacks, asked, runs, results, deliveries, checks, executions,
    answered⟩, broker, recorder, submitted, handlers, published, graphs, inCharge, submitting⟩ := w
  obtain rfl : doc = some d := stored
  refine ⟨[.run 0 {}, .run 0 {}] ++ [.run 0 {}, .run 0 { graph := graphOf sql }, .run 1 {}, .run 1 {}],
    _, by simp [isArrival], (Machine.exec_append_some _ _).mpr ⟨_, begun, rfl⟩, rfl, rfl, ?_⟩
  have written : (TaskStore.merged "" d
      (TaskStore.Write.graphDone (some sql) .null [] [] "" "" "" []).fields).lookup "sql" =
      some (.str sql) := by
    simp [TaskStore.merged, TaskStore.Write.fields, TaskStore.text]
  exact written

/-- Nothing of the result changes, nothing is announced and no graph is started. -/
structure Harmless (w w' : World) : Prop where
  result : KeepsResult w w'
  silent : Silent w w'
  noGraph : NoGraph w w'

theorem Alike.harmless (alike : Alike w w') (stored : w.task.doc = some d) : Harmless w w' where
  result := ⟨d, d, stored, alike.doc.trans stored, fun _ _ => rfl⟩
  silent event _ := by rw [alike.published]
  noGraph := alike.graphs

theorem other_sql (d : Doc) : ∃ sql, d.lookup "sql" ≠ some (.str sql) := by
  by_cases same : d.lookup "sql" = some (.str "SELECT 1")
  · exact ⟨"SELECT 2", by simp [same]⟩
  · exact ⟨"SELECT 1", same⟩

/-- A request message for a task that is over is harmless exactly when the task's cancel
flag is set; without the flag it is harmless in no respect. -/
theorem redelivery_harmless_iff (w : World) (d : Doc) (stored : w.task.doc = some d)
    (finished : TaskThreads.isOver (TaskStore.status d) = true) (retryCount : Fin 4) (n : Nat)
    (again : Bool) :
    (Always w retryCount n again Harmless ↔ w.task.cancelled = true) ∧
      (Always w retryCount n again KeepsResult ↔ w.task.cancelled = true) ∧
      (Always w retryCount n again Silent ↔ w.task.cancelled = true) ∧
      (Always w retryCount n again NoGraph ↔ w.task.cancelled = true) := by
  have safe (flagged : w.task.cancelled = true) : Always w retryCount n again Harmless :=
    fun events config ran run =>
      (alike_always stored finished flagged retryCount n again events config ran run).harmless stored
  have result (always : Always w retryCount n again KeepsResult) : w.task.cancelled = true := by
    by_contra unflagged
    obtain ⟨sql, other⟩ := other_sql d
    obtain ⟨events, config, ran, run, -, -, replaced⟩ :=
      overwrites stored finished (by simpa using unflagged) retryCount n again sql
    obtain ⟨d₁, d₂, stored₁, stored₂, same⟩ := always events config ran run
    obtain rfl := Option.some.inj (stored.symm.trans stored₁)
    rw [stored₂] at replaced
    exact other ((same "sql" (by decide)).symm.trans replaced)
  have silent (always : Always w retryCount n again Silent) : w.task.cancelled = true := by
    by_contra unflagged
    obtain ⟨events, config, ran, run, published, -, -⟩ :=
      overwrites stored finished (by simpa using unflagged) retryCount n again ""
    have same := always events config ran run .running List.mem_cons_self
    rw [published, List.count_cons_self] at same
    omega
  have noGraph (always : Always w retryCount n again NoGraph) : w.task.cancelled = true := by
    by_contra unflagged
    obtain ⟨events, config, ran, run, -, started, -⟩ :=
      overwrites stored finished (by simpa using unflagged) retryCount n again ""
    have same : config.world.graphs = w.graphs := always events config ran run
    rw [started] at same
    simp at same
  have part {property : World → World → Prop} (of : ∀ {w w'}, Harmless w w' → property w w')
      (flagged : w.task.cancelled = true) : Always w retryCount n again property :=
    fun events config ran run => of (safe flagged events config ran run)
  exact ⟨⟨fun always => result fun events config ran run => (always events config ran run).result, safe⟩,
    ⟨result, part Harmless.result⟩, ⟨silent, part Harmless.silent⟩, ⟨noGraph, part Harmless.noGraph⟩⟩

/-- A task that was cancelled, and whose flag is set or gone. -/
def cancelledWorld (cancelled : Bool) : World :=
  { start.world with
    task := { start.world.task with
      doc := some (TaskStore.merged "08:05" (TaskStore.taskCreate "t1" "How many orders?" "shop" "" "08:00")
        (TaskStore.Write.ended "CANCELLED" none).fields)
      cancelled } }

theorem cancelled_over : TaskThreads.isOver (TaskStore.status (TaskStore.merged "08:05"
    (TaskStore.taskCreate "t1" "How many orders?" "shop" "" "08:00")
    (TaskStore.Write.ended "CANCELLED" none).fields)) = true := by
  rw [TaskStore.status_merged]
  decide

theorem redelivery_harmless_flag :
    Always (cancelledWorld true) 0 0 false Harmless ∧
      ¬ Always (cancelledWorld false) 0 0 false Harmless := by
  constructor
  · exact (redelivery_harmless_iff (cancelledWorld true) _ rfl cancelled_over 0 0 false).1.mpr rfl
  · intro always
    have flagged := (redelivery_harmless_iff (cancelledWorld false) _ rfl cancelled_over 0 0 false).1.mp
      always
    contradiction

/-- A task is handled, its graph yields one statement; the same message is delivered again
and the graph yields another. -/
def handledOnce : List (Event Desc Choice Move) :=
  [.arrive { task := .submit (.api "t1" "How many orders?" "shop" "") }, .run 0 {}, .run 0 {},
    .arrive { task := .handleTask 0 }, .run 1 {}, .run 1 {}, .run 1 {}, .run 1 {}, .run 1 {},
    .run 1 { graph := graphOf "SELECT 1" }, .run 2 {}, .run 2 {}, .run 2 {}, .run 2 {}, .run 1 {},
    .run 1 {}, .run 1 {}, .run 1 {}]

def handledAgain : List (Event Desc Choice Move) :=
  [.arrive { task := .handleTask 0, handler := 1, again := true }, .run 3 {}, .run 3 {}, .run 3 {},
    .run 3 { graph := graphOf "SELECT 2" }, .run 4 {}, .run 4 {}, .run 4 {}]

def storedSql (w : World) : Option String :=
  match w.task.doc.bind fun d => d.lookup "sql" with
  | some (.str sql) => some sql
  | _ => none

theorem redelivery_overwrites :
    ∃ c c', system.machine.exec start handledOnce = some c ∧
      system.machine.exec c handledAgain = some c' ∧
      c.world.task.doc.map TaskStore.status = some "SUCCESS" ∧
      storedSql c.world = some "SELECT 1" ∧ storedSql c'.world = some "SELECT 2" ∧
      c'.world.published = .success :: .running :: c.world.published := by
  have ends : (system.machine.exec start handledOnce).any (fun c =>
      c.world.task.doc.map TaskStore.status = some "SUCCESS" ∧ storedSql c.world = some "SELECT 1" ∧
      (system.machine.exec c handledAgain).any fun c' => storedSql c'.world = some "SELECT 2" ∧
        c'.world.published = .success :: .running :: c.world.published) = true := by decide +kernel
  obtain ⟨c, run, final⟩ := (Option.any_eq_true _ _).mp ends
  obtain ⟨succeeded, first, more⟩ := of_decide_eq_true final
  obtain ⟨c', again, later⟩ := (Option.any_eq_true _ _).mp more
  obtain ⟨second, published⟩ := of_decide_eq_true later
  exact ⟨c, c', run, again, succeeded, first, second, published⟩

end TaskEvents
end Nl2SqlAgent

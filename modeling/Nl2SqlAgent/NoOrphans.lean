import Nl2SqlAgent.TaskProgress

/-! Whether somebody is left to bring a task to its end when a publish may fail. -/
namespace Nl2SqlAgent

open Lib

namespace TaskEvents

open TaskThreads (Submission Message NodeDone GraphRun Context)

variable {w w' : World} {c : Choice} {e : Effect} {r : e.Answer} {forks : List Desc} {role : Role}
  {p : Point} {n : Nat}

/-- A message is still to be read, or a handler other than that one has its part to do. -/
def Others (w : World) (handler : Option Nat) : Prop :=
  w.broker.unread ≠ [] ∨ ∃ n ∈ w.inCharge, some n ≠ handler

instance (w : World) (handler : Option Nat) : Decidable (Others w handler) :=
  inferInstanceAs (Decidable (_ ∨ ∃ n ∈ w.inCharge, some n ≠ handler))

/-- A request that does not arrive was not needed, a feedback message that is dropped leaves
others at work, and a task is reopened only while somebody will end it. -/
def Attended (w : World) (_ : Desc) : (e : Effect) → e.Answer → Prop
  | .send note (.request _), sent =>
    Sent.arrived sent = true ∨ isOver w.task.doc = true ∨ Others w note.handler
  | .task note (.inspect _), _ => TaskThreads.isRunning w.task.doc = true → Others w note.handler
  | .task _ (.update _ basis write), _ =>
    TaskThreads.isOver (written basis write) = false → isOver w.task.doc = true → Others w none
  | .task _ (.save _ .feedback), _ => isOver w.task.doc = true → Others w none
  | _, _ => True

instance (w : World) (d : Desc) (e : Effect) (r : e.Answer) : Decidable (Attended w d e r) := by
  unfold Attended
  split <;> infer_instance

/-- A task that is not over is about to be published, or somebody has to do with it. -/
def Backed (w : World) : Prop :=
  ∀ d ∈ w.task.doc, isOver (some d) = false → w.submitting = true ∨ Others w none

theorem Others.any {handler : Option Nat} (others : Others w handler) : Others w none := by
  rcases others with unread | ⟨n, charged, -⟩
  · exact .inl unread
  · exact .inr ⟨n, charged, nofun⟩

theorem others_kept {handler : Option Nat} (others : Others w handler)
    (unread : w'.broker.unread = w.broker.unread)
    (charge : w'.inCharge = w.inCharge.filter fun n => some n ≠ handler) : Others w' none := by
  rcases others with some_unread | ⟨n, charged, other⟩
  · exact .inl (unread.symm ▸ some_unread)
  · exact .inr ⟨n, by simp [charge, charged, other], nofun⟩

theorem Backed.frame (backed : Backed w) (doc : w'.task.doc = w.task.doc)
    (submitting : w.submitting = true → w'.submitting = true)
    (unread : w.broker.unread ≠ [] → w'.broker.unread ≠ [])
    (charge : ∀ n ∈ w.inCharge, n ∈ w'.inCharge) : Backed w' := by
  intro d stored unfinished
  rw [doc] at stored
  rcases backed d stored unfinished with busy | some_unread | ⟨n, charged, -⟩
  · exact .inl (submitting busy)
  · exact .inr (.inl (unread some_unread))
  · exact .inr (.inr ⟨n, charge n charged, nofun⟩)

theorem backed_over (finished : isOver w.task.doc = true) : Backed w := by
  intro d stored unfinished
  rw [Option.mem_def.mp stored, unfinished] at finished
  contradiction

theorem backed_others (others : Others w none) : Backed w := fun _ _ _ => .inr others

theorem backed_written (stored : Stored w) (backed : Backed w)
    (reopened : isOver w.task.doc = true → Others w none)
    (submitting : w'.submitting = w.submitting) (unread : w'.broker.unread = w.broker.unread)
    (charge : w'.inCharge = w.inCharge) : Backed w' := by
  have others (before : Others w none) : Others w' none := by
    rw [Others, unread, charge]
    exact before
  intro d' _ _
  obtain ⟨d, held⟩ := Option.isSome_iff_exists.mp stored
  by_cases finished : isOver w.task.doc = true
  · exact .inr (others (reopened finished))
  · have unfinished : isOver (some d) = false := by simpa [held] using finished
    rcases backed d held unfinished with busy | before
    · exact .inl (submitting.trans busy)
    · exact .inr (others before)

/-- A message that is published is unread, unless it is lost. -/
theorem send_backed {note : Note} {item : Item} {r : Sent} {d : Desc} (backed : Backed w)
    (attended : Attended w d (.send note item) r)
    (performed : perform w c (.send note item) = some (w', r, forks)) : Backed w' := by
  cases item with
  | request retryCount =>
    obtain ⟨rfl, rest⟩ := Prod.mk.inj (Option.some.inj performed)
    obtain ⟨rfl, -⟩ := Prod.mk.inj rest
    cases lost : c.lost with
    | false =>
      refine backed_others (.inl ?_)
      change (if c.lost = true then w.broker else _).unread ≠ []
      rw [lost]
      exact List.cons_ne_nil _ _
    | true =>
      rcases attended with arrived | finished | others
      · simp [Choice.sent, lost] at arrived
      · exact backed_over finished
      · refine backed_others (others_kept others ?_ rfl)
        change (if c.lost = true then w.broker else _).unread = w.broker.unread
        rw [if_pos lost]
  | feedback m =>
    obtain rfl := perform_after performed
    refine backed.frame rfl id (fun some_unread => ?_) fun n charged => charged
    change (if c.lost = true then w.broker else _).unread ≠ []
    split
    · exact some_unread
    · exact List.cons_ne_nil _ _

theorem perform_backed (backed : Backed w) (at_point : At w role p) (allowed : allows role p e)
    {d : Desc} (attended : Attended w d e r) (performed : perform w c e = some (w', r, forks)) :
    Backed w' := by
  cases e with
  | task note e =>
    obtain rfl := perform_after performed
    cases e with
    | create submission =>
      cases submission with
      | cached taskId question dbId sql execResult tokenUsage nodeTimings =>
        apply backed_over
        change TaskThreads.isOver (TaskStore.status (Submission.document c.now _)) = true
        rw [cached_status]
        decide
      | _ => exact fun _ _ _ => .inl rfl
    | read =>
      by_cases ended : note.decides = true ∧ isOver w.task.doc = true
      · exact backed_over ended.2
      · refine backed.frame rfl id id fun n charged => ?_
        change n ∈ if note.decides = true ∧ isOver w.task.doc = true then _ else _
        rw [if_neg ended]
        exact charged
    | inspect delivery =>
      by_cases running : TaskThreads.isRunning w.task.doc = true
      · refine backed_others (others_kept (attended running) rfl ?_)
        exact if_pos running
      · refine backed.frame rfl id id fun n charged => ?_
        change n ∈ if TaskThreads.isRunning w.task.doc = true then _ else _
        rw [if_neg running]
        exact charged
    | update seen basis write =>
      obtain ⟨-, -, point, updates⟩ := allowed
      by_cases finished : TaskThreads.isOver (written basis write) = true
      · apply backed_over
        change TaskThreads.isOver
          (TaskStore.status (TaskStore.merged c.now basis write.fields)) = true
        rw [TaskStore.status_merged]
        exact finished
      · have unfinished : TaskThreads.isOver (written basis write) = false :=
          by simpa using finished
        have quiet : ¬ note.decides = true := fun decides => finished (updates.final decides)
        have stored : Stored w := at_point.stored (by rcases point with rfl | rfl | rfl <;> nofun)
        exact backed_written stored backed (attended unfinished) rfl rfl (if_neg quiet)
    | save s operation =>
      obtain ⟨-, -, rfl, -⟩ := allowed
      cases operation with
      | feedback =>
        exact backed_written (at_point.stored nofun) backed attended rfl rfl rfl
      | scanStale =>
        apply backed_over
        change TaskThreads.isOver (TaskStore.status
          (JavaTaskState.encode (JavaTaskState.staleSaved c.now s))) = true
        rw [TaskThreads.status_staleSaved]
        decide
    | _ => exact backed.frame rfl id id fun n charged => charged
  | send note item => exact send_backed backed attended performed
  | _ =>
    obtain rfl := perform_after performed
    exact backed.frame rfl id id fun n charged => charged

theorem arrive_backed {d : Desc} (backed : Backed w) (arrived : arrive w d = some w') :
    Backed w' := by
  rcases arrive_cases arrived with ⟨-, rfl⟩ | ⟨-, task, here, rfl⟩ |
    ⟨-, number, item, broker, task, -, delivered, here, rfl⟩
  · exact backed.frame rfl id id fun n charged => charged
  · exact backed.frame (task_arrive here).1 id id fun n charged => charged
  · exact backed_others (.inr ⟨d.handler, List.mem_cons_self, nofun⟩)

/-- Whoever has to do with the task is a thread. -/
structure Manned (config : Config Effect Effect.Answer World Desc) : Prop where
  submit : config.world.submitting = true → ∃ t ∈ config.pool, t.desc.role = .submit
  handler : ∀ n ∈ config.world.inCharge, ∃ t ∈ config.pool, t.desc.role = .handler n

structure Kept (config : Config Effect Effect.Answer World Desc) : Prop where
  tracked : progress.Holds config
  backed : Backed config.world
  manned : Manned config

theorem stays {pool : List (Thread Effect Effect.Answer Desc)} {pid : Nat} {d : Desc}
    {q q' : Task Unit} {more : List (Thread Effect Effect.Answer Desc)}
    (fetched : pool[pid]? = some ⟨d, q⟩) (there : ∃ t ∈ pool, t.desc.role = role) :
    ∃ t ∈ pool.set pid ⟨d, q'⟩ ++ more, t.desc.role = role := by
  obtain ⟨t, member, same⟩ := there
  have kept : t.desc ∈ (pool.set pid ⟨d, q'⟩).map Thread.desc := by
    rw [Threads.Outline.desc_set fetched]
    exact List.mem_map_of_mem member
  obtain ⟨t', member', desc⟩ := List.mem_map.mp kept
  exact ⟨t', List.mem_append_left _ member', by rw [desc, same]⟩

theorem perform_manned {config : Config Effect Effect.Answer World Desc} {pid : Nat} {d : Desc}
    {k : e.Answer → Task Unit} {more : List (Thread Effect Effect.Answer Desc)}
    (manned : Manned config) (fetched : config.pool[pid]? = some ⟨d, .act e k⟩)
    (allowed : allows d.role p e) (performed : perform config.world c e = some (w', r, forks)) :
    Manned ⟨w', config.pool.set pid ⟨d, k r⟩ ++ more⟩ := by
  obtain rfl := perform_after performed
  constructor
  · intro busy
    apply stays fetched
    by_cases created : ∃ note submission, e = .task note (.create submission)
    · obtain ⟨note, submission, rfl⟩ := created
      exact ⟨_, List.mem_of_getElem? fetched, allowed.1⟩
    · apply manned.submit
      by_contra quiet
      have kept := after_submitting (c := c) (config.world.taskAfter c e)
        (fun note submission same => created ⟨note, submission, same⟩) (by simpa using quiet)
      rw [kept] at busy
      contradiction
  · intro n charged
    exact stays fetched (manned.handler n (chargeAfter_subset _ e n charged))

theorem arrive_manned {config : Config Effect Effect.Answer World Desc} {d : Desc}
    (manned : Manned config) (arrived : arrive config.world d = some w') :
    Manned ⟨w', config.pool ++ [system.start d]⟩ := by
  have kept {role : Role} (there : ∃ t ∈ config.pool, t.desc.role = role) :
      ∃ t ∈ config.pool ++ [system.start d], t.desc.role = role := by
    obtain ⟨t, member, same⟩ := there
    exact ⟨t, List.mem_append_left _ member, same⟩
  rcases arrive_cases arrived with ⟨-, rfl⟩ | ⟨-, task, here, rfl⟩ |
    ⟨role, number, item, broker, task, -, delivered, here, rfl⟩
  · exact ⟨fun busy => kept (manned.submit busy), fun n charged => kept (manned.handler n charged)⟩
  · exact ⟨fun busy => kept (manned.submit busy), fun n charged => kept (manned.handler n charged)⟩
  · refine ⟨fun busy => kept (manned.submit busy), fun n charged => ?_⟩
    rcases List.mem_cons.mp charged with rfl | old
    · exact ⟨system.start d, List.mem_append_right _ List.mem_cons_self, role⟩
    · exact kept (manned.handler n old)

theorem Kept.step {config config' : Config Effect Effect.Answer World Desc}
    {event : Event Desc Choice Move} (kept : Kept config)
    (stepped : system.machine.step config event = some config')
    (attended : system.Meets Attended config event config') : Kept config' := by
  have progressed := progress.step kept.tracked stepped (system.meets_true _ _ _)
  rcases Threads.step_cases stepped with
    ⟨pid, choice, d, e, k, w, r, forks, rfl, fetched, performed, rfl⟩ |
    ⟨d, w, rfl, arrived, rfl⟩ | ⟨move, w, rfl, moved, rfl⟩
  · obtain ⟨-, p, at_point, allowed, -⟩ := kept.tracked.threads _ (List.mem_of_getElem? fetched)
    have cared := attended d e k w r forks fetched performed
    exact ⟨progressed, perform_backed kept.backed at_point allowed cared performed,
      perform_manned kept.manned fetched allowed performed⟩
  · exact ⟨progressed, arrive_backed kept.backed arrived, arrive_manned kept.manned arrived⟩
  · obtain ⟨recorder, -, rfl⟩ := Option.map_eq_some_iff.mp moved
    exact ⟨progressed, kept.backed.frame rfl id id fun n charged => charged,
      ⟨kept.manned.submit, kept.manned.handler⟩⟩

/-- A submit, or a handler of the worker. -/
def Desc.works (d : Desc) : Bool :=
  match d.task with
  | .submit _ => true
  | .handleTask _ => true
  | .handleFeedback _ _ => true
  | _ => false

/-- The task waits or runs, no message of it is left in a topic, and neither its submit nor
a handler is at work. -/
def Orphaned (config : Config Effect Effect.Answer World Desc) : Prop :=
  (∃ d ∈ config.world.task.doc, TaskStore.status d = "PENDING" ∨ TaskStore.status d = "RUNNING") ∧
    config.world.broker.unread = [] ∧ ∀ t ∈ config.pool, t.desc.works = true → t.rest.ended = true

theorem works_submit {d : Desc} (same : d.role = .submit) : d.works = true := by
  obtain ⟨task, number, again⟩ := d
  cases task <;> first | rfl | contradiction

theorem works_handler {d : Desc} (same : d.role = .handler n) : d.works = true := by
  obtain ⟨task, number, again⟩ := d
  cases task <;> first | rfl | contradiction

/-- A thread that has ended is at a final point of its role. -/
theorem ended_final {t : Thread Effect Effect.Answer Desc} (track : OnTrack w t.desc.role t.rest)
    (ended : t.rest.ended = true) : ∃ p, At w t.desc.role p ∧ final p t.desc.role := by
  obtain ⟨-, p, at_point, follows⟩ := track
  cases rest : t.rest with
  | ret a =>
    rw [rest] at follows
    exact ⟨p, at_point, follows⟩
  | act e k =>
    rw [rest] at ended
    contradiction

theorem Kept.not_orphaned {config : Config Effect Effect.Answer World Desc} (kept : Kept config) :
    ¬ Orphaned config := by
  rintro ⟨⟨d, stored, status⟩, read, ended⟩
  have unfinished : isOver (some d) = false := by
    rcases status with status | status <;> simp [isOver, TaskThreads.isOver, status]
  rcases kept.backed d stored unfinished with busy | unread | ⟨n, charged, -⟩
  · obtain ⟨t, member, role⟩ := kept.manned.submit busy
    obtain ⟨p, at_point, last⟩ := ended_final (kept.tracked.threads t member)
      (ended t member (works_submit role))
    rw [role] at at_point last
    have quiet : config.world.submitting = false := by
      rcases last with rfl | rfl <;> exact at_point.2 rfl
    rw [quiet] at busy
    contradiction
  · exact unread read
  · obtain ⟨t, member, role⟩ := kept.manned.handler n charged
    obtain ⟨p, at_point, last⟩ := ended_final (kept.tracked.threads t member)
      (ended t member (works_handler role))
    rw [role] at at_point last
    obtain rfl : p = .done := last
    exact at_point.2 n rfl charged

/-- The feedback endpoint of the gateway. -/
def Desc.byGateway (d : Desc) : Bool :=
  match d.task with
  | .feedback .gateway _ => true
  | _ => false

/-- The effect is a publish whose message does not arrive. -/
def Effect.fails (c : Choice) : Effect → Bool
  | .send _ _ => c.lost
  | _ => false

/-- The thread has told of success: a submit by its answer, which follows its publish unless
the gateway's raises, a feedback request by its own, and a retry by its event. -/
def Effect.accepts (d : Desc) (c : Choice) : Effect → Bool
  | .send _ (.request _) =>
    match d.task with
    | .submit (.gateway ..) => !c.raised
    | .submit _ => true
    | _ => false
  | .task _ (.answer _) => true
  | .publish .retrying => true
  | _ => false

/-- The threads that have published without a message arriving, and those that have told of
success. -/
structure Reported where
  failed : List Nat := []
  accepted : List Nat := []

def Reported.after (config : Config Effect Effect.Answer World Desc)
    (event : Event Desc Choice Move)
    (_ : Config Effect Effect.Answer World Desc) (g : Reported) : Reported :=
  match event with
  | .run pid c =>
    match config.pool[pid]? with
    | some ⟨d, .act e _⟩ =>
      { failed := if e.fails c then pid :: g.failed else g.failed
        accepted := if e.accepts d c then pid :: g.accepted else g.accepted }
    | _ => g
  | _ => g

/-- A thread whose publish failed is at its end and has told of no success. -/
def Candid (config : Config Effect Effect.Answer World Desc) (g : Reported) : Prop :=
  ∀ pid ∈ g.failed, pid ∉ g.accepted ∧ ∃ t, config.pool[pid]? = some t ∧ t.rest.ended = true

/-- Every request arrives, and every feedback message unless the gateway's publish raises. -/
def Delivered (d : Desc) : (e : Effect) → e.Answer → Prop
  | .send _ (.request _), sent => Sent.arrived sent = true
  | .send _ (.feedback _), sent =>
    Sent.arrived sent = true ∨ (d.byGateway = true ∧ Sent.raised sent = true)
  | _, _ => True

instance (d : Desc) (e : Effect) (r : e.Answer) : Decidable (Delivered d e r) := by
  unfold Delivered
  split <;> infer_instance

/-- The messages arrive, and nobody leaves a task alone that others do not attend to. -/
def Faithful (w : World) (d : Desc) (e : Effect) (r : e.Answer) : Prop :=
  Attended w d e r ∧ Delivered d e r

instance (w : World) (d : Desc) (e : Effect) (r : e.Answer) : Decidable (Faithful w d e r) :=
  inferInstanceAs (Decidable (_ ∧ _))

/-- After it the gateway's thread has nothing left to do. -/
def lastWord : (e : Effect) → e.Answer → Bool
  | .send _ _, sent => Sent.raised sent
  | .task _ (.answer _), _ => true
  | .publish .retrying, _ => true
  | _, _ => false

def speech : Prog.Protocol Effect Effect.Answer Bool where
  allows spoken _ := spoken = false
  next _ e r spoken := spoken = lastWord e r
  final _ := True

theorem gatewayGet_speech :
    TaskThreads.gatewayGet.Keeps (speech.comap (place {}) (placed {}))
      (fun _ spoken => spoken = false) false := by
  refine ⟨rfl, ?_⟩
  rintro _ _ ⟨_, -, rfl⟩
  rfl

/-- Where the gateway's publish raises its thread ends, and its answer comes last. -/
theorem feedback_speech (request : Nat) :
    (calls {} (TaskThreads.taskFeedback request .gateway)).Follows speech false := by
  apply Prog.follows_embed
  apply Prog.follows_bind gatewayGet_speech
  rintro current _ rfl
  cases current with
  | none => trivial
  | some s =>
    by_cases accepts : s.status.any TaskThreads.acceptsFeedback ∧
        JavaTaskState.turnCount s + 1 ≤ JavaTaskState.feedbackMaxTurns
    · simp only [accepts]
      refine ⟨rfl, ?_⟩
      rintro raised _ ⟨sent, rfl, rfl⟩
      obtain ⟨raised, arrived⟩ := (sent : Sent)
      cases raised with
      | true => trivial
      | false =>
        refine ⟨rfl, ?_⟩
        rintro _ _ ⟨_, -, rfl⟩
        exact ⟨rfl, fun _ _ _ => trivial⟩
    · simp only [accepts]
      trivial

theorem body_speech {d : Desc} (gateway : d.byGateway = true) : (body d).Follows speech false := by
  obtain ⟨task, number, again⟩ := d
  cases task with
  | feedback endpoint request =>
    cases endpoint with
    | gateway => exact feedback_speech request
    | api => contradiction
  | _ => contradiction

/-- Each thread of the gateway's feedback endpoint is at its last word when it has told of
success. -/
structure Speaks (config : Config Effect Effect.Answer World Desc) (g : Reported) : Prop where
  known : ∀ pid ∈ g.accepted, pid < config.pool.length
  spoken : ∀ (pid : Nat) t, config.pool[pid]? = some t → t.desc.byGateway = true →
    ∃ spoken, t.rest.Follows speech spoken ∧ (pid ∈ g.accepted → spoken = true)
  candid : Candid config g

/-- What the gateway's feedback endpoint tells, it tells with its last word. -/
theorem accepts_last {d : Desc} (gateway : d.byGateway = true) (accepted : e.accepts d c = true) :
    lastWord e r = true := by
  obtain ⟨task, number, again⟩ := d
  cases task with
  | feedback endpoint request =>
    cases e with
    | task note e =>
      cases e with
      | answer m => rfl
      | _ => contradiction
    | send note item => cases item <;> contradiction
    | publish event =>
      cases event with
      | retrying => rfl
      | _ => contradiction
    | _ => contradiction
  | _ => contradiction

/-- Along a faithful run only the gateway's feedback endpoint sees a publish fail, which
raises. -/
theorem fails_raises {d : Desc} (delivered : Delivered d e r) (failed : e.fails c = true)
    (performed : perform w c e = some (w', r, forks)) :
    d.byGateway = true ∧ e.accepts d c = false ∧ lastWord e r = true := by
  cases e with
  | send note item =>
    have lost : c.lost = true := failed
    obtain ⟨-, same⟩ := Prod.mk.inj (Option.some.inj performed)
    obtain ⟨rfl, -⟩ := Prod.mk.inj same
    cases item with
    | request retryCount =>
      have arrived : (!c.lost) = true := delivered
      simp [lost] at arrived
    | feedback m =>
      rcases delivered with arrived | ⟨gateway, raised⟩
      · have arrived : (!c.lost) = true := arrived
        simp [lost] at arrived
      · exact ⟨gateway, rfl, raised⟩
  | _ => contradiction

section Speaks

variable {config config' : Config Effect Effect.Answer World Desc} {g : Reported}

theorem Speaks.append {more : List (Thread Effect Effect.Answer Desc)} (speaks : Speaks config g)
    (new : ∀ t ∈ more, ∃ d, t = system.start d) :
    Speaks ⟨w, config.pool ++ more⟩ g where
  known pid told := by
    have bound := speaks.known pid told
    rw [List.length_append]
    omega
  spoken pid t held gateway := by
    rcases Nat.lt_or_ge pid config.pool.length with old | later
    · rw [List.getElem?_append_left old] at held
      exact speaks.spoken pid t held gateway
    · rw [List.getElem?_append_right later] at held
      obtain ⟨d, rfl⟩ := new t (List.mem_of_getElem? held)
      refine ⟨false, body_speech gateway, fun told => ?_⟩
      exact absurd (speaks.known pid told) (Nat.not_lt_of_le later)
  candid pid failed := by
    obtain ⟨untold, t, held, ended⟩ := speaks.candid pid failed
    obtain ⟨bound, -⟩ := List.getElem?_eq_some_iff.mp held
    exact ⟨untold, t, (List.getElem?_append_left bound).trans held, ended⟩

theorem follows_spoken {q : Task Unit} (follows : q.Follows speech true) : q.ended = true := by
  cases q with
  | ret a => rfl
  | act e k =>
    have allowed : true = false := follows.1
    contradiction

theorem noted_cases {noted : List Nat} {now : Bool} {pid i : Nat}
    (held : i ∈ if now then pid :: noted else noted) : i ∈ noted ∨ (i = pid ∧ now = true) := by
  split at held
  next now => exact (List.mem_cons.mp held).symm.imp_right fun same => ⟨same, now⟩
  next => exact .inl held

/-- A thread of the gateway's feedback endpoint that goes on has told nothing yet. -/
theorem Speaks.silent {d : Desc} {k : e.Answer → Task Unit} {pid : Nat} (speaks : Speaks config g)
    (fetched : config.pool[pid]? = some ⟨d, .act e k⟩) (gateway : d.byGateway = true) :
    pid ∉ g.accepted ∧ (k r).Follows speech (lastWord e r) := by
  obtain ⟨spoken, ⟨unspoken, later⟩, last⟩ := speaks.spoken pid _ fetched gateway
  obtain rfl : spoken = false := unspoken
  exact ⟨fun held => absurd (last held) (by decide), later r _ rfl⟩

theorem Speaks.run {d : Desc} {k : e.Answer → Task Unit} {pid : Nat} (speaks : Speaks config g)
    (fetched : config.pool[pid]? = some ⟨d, .act e k⟩) (delivered : Delivered d e r)
    (performed : perform config.world c e = some (w', r, forks)) :
    Speaks ⟨w', config.pool.set pid ⟨d, k r⟩⟩
      { failed := if e.fails c then pid :: g.failed else g.failed
        accepted := if e.accepts d c then pid :: g.accepted else g.accepted } := by
  obtain ⟨bound, -⟩ := List.getElem?_eq_some_iff.mp fetched
  constructor
  · intro i held
    change i < (config.pool.set pid _).length
    rw [List.length_set]
    rcases noted_cases held with old | ⟨rfl, -⟩
    · exact speaks.known i old
    · exact bound
  · intro i t held gateway
    by_cases own : pid = i
    · subst own
      obtain rfl : ⟨d, k r⟩ = t :=
        Option.some.inj ((List.getElem?_set_self bound).symm.trans held)
      obtain ⟨untold, follows⟩ := speaks.silent (r := r) fetched gateway
      refine ⟨_, follows, fun now => ?_⟩
      exact accepts_last gateway ((noted_cases now).resolve_left untold).2
    · obtain ⟨spoken, follows, last⟩ :=
        speaks.spoken i t ((List.getElem?_set_ne own).symm.trans held) gateway
      refine ⟨spoken, follows, fun now => last ((noted_cases now).resolve_right fun same => ?_)⟩
      exact own same.1.symm
  · intro i failed
    rcases noted_cases failed with before | ⟨rfl, fails⟩
    · obtain ⟨untold, t, held, ended⟩ := speaks.candid i before
      have other : pid ≠ i := by
        rintro rfl
        obtain rfl := Option.some.inj (fetched.symm.trans held)
        contradiction
      exact ⟨fun now => untold ((noted_cases now).resolve_right fun same => other same.1.symm), t,
        (List.getElem?_set_ne other).trans held, ended⟩
    · obtain ⟨gateway, unaccepted, last⟩ := fails_raises delivered fails performed
      obtain ⟨untold, follows⟩ := speaks.silent (r := r) fetched gateway
      rw [last] at follows
      refine ⟨fun now => ?_, _, List.getElem?_set_self bound, follows_spoken follows⟩
      rcases noted_cases now with old | ⟨-, accepts⟩
      · exact untold old
      · exact absurd (unaccepted.symm.trans accepts) (by decide)

theorem Speaks.step {event : Event Desc Choice Move} (speaks : Speaks config g)
    (stepped : system.machine.step config event = some config')
    (delivered : system.Meets (fun _ => Delivered) config event config') :
    Speaks config' (Reported.after config event config' g) := by
  rcases Threads.step_cases stepped with
    ⟨pid, choice, d, e, k, w, r, forks, rfl, fetched, performed, rfl⟩ |
    ⟨d, w, rfl, arrived, rfl⟩ | ⟨move, w, rfl, moved, rfl⟩
  · have here := delivered d e k w r forks fetched performed
    simp only [Reported.after, fetched]
    have ran := speaks.run fetched here performed
    exact ran.append fun t started => by
      obtain ⟨f, -, rfl⟩ := List.mem_map.mp started
      exact ⟨f, rfl⟩
  · exact speaks.append fun t started => ⟨d, List.mem_singleton.mp started⟩
  · exact ⟨speaks.known, speaks.spoken, speaks.candid⟩

end Speaks

/-- Along a run in which the messages arrive and a task is dropped or reopened only while
somebody will end it, no task is orphaned, and no thread goes on after a publish that failed. -/
theorem no_orphan (events : List (Event Desc Choice Move))
    {config : Config Effect Effect.Answer World Desc} {g : Reported}
    (faithful : system.machine.Along (system.Meets Faithful) start events)
    (run : (system.machine.noted Reported.after).exec (start, {}) events = some (config, g)) :
    ¬ Orphaned config ∧ Candid config g := by
  have initially : Kept start := ⟨progress.holds_empty start_sound, nofun, nofun, nofun⟩
  have silent : Speaks start {} := ⟨nofun, nofun, nofun⟩
  have kept : Kept config := Machine.invariant_along Kept
    (fun _ _ _ kept stepped meets => kept.step stepped meets) initially
    (faithful.mono fun _ _ _ meets => Threads.meets_mono meets fun _ _ _ _ both => both.1)
    (Machine.noted_run run)
  have speaks : Speaks config g := Machine.invariant_along (fun s => Speaks s.1 s.2)
    (fun s event t speaks stepped meets => by
      obtain ⟨taken, same⟩ := Machine.noted_step.mp stepped
      rw [same]
      exact speaks.step taken (Threads.meets_mono meets fun _ _ _ _ both => both.2))
    silent faithful.noted run
  exact ⟨kept.not_orphaned, speaks.candid⟩

/-- A submit to the gateway. -/
def submitted (lost : Bool) : List (Event Desc Choice Move) :=
  [.arrive { task := .submit (.gateway "t1" "How many orders?" "shop" "") }, .run 0 {},
    .run 0 { lost }]

theorem no_orphan_submitted :
    ∃ config g, (system.machine.noted Reported.after).exec (start, {}) (submitted false) =
        some (config, g) ∧
      config.world.task.doc.map TaskStore.status = some "PENDING" ∧ g.accepted = [0] ∧
      ¬ Orphaned config ∧ Candid config g := by
  have ends : ((system.machine.noted Reported.after).exec (start, {}) (submitted false)).any
    (fun c =>
      c.1.world.task.doc.map TaskStore.status = some "PENDING" ∧ c.2.accepted = [0]) = true := by
    decide +kernel
  obtain ⟨⟨config, g⟩, run, final⟩ := (Option.any_eq_true _ _).mp ends
  obtain ⟨status, accepted⟩ := of_decide_eq_true final
  exact ⟨config, g, run, status, accepted, no_orphan _ (by decide +kernel) run⟩

/-- The gateway answers before it knows whether the message has arrived. -/
theorem lost_request_orphans :
    ∃ config g, (system.machine.noted Reported.after).exec (start, {}) (submitted true) =
      some (config, g) ∧ Orphaned config ∧ ¬ Candid config g := by
  have ends : ((system.machine.noted Reported.after).exec (start, {}) (submitted true)).any
    (fun c =>
      c.1.world.task.doc.any (fun d => TaskStore.status d = "PENDING") ∧
      c.1.world.broker.unread = [] ∧ (c.1.pool.all fun t => t.rest.ended) = true ∧
      c.2.failed = [0] ∧ c.2.accepted = [0]) = true := by
    decide +kernel
  obtain ⟨⟨config, g⟩, run, final⟩ := (Option.any_eq_true _ _).mp ends
  obtain ⟨pending, read, ended, failed, accepted⟩ := of_decide_eq_true final
  obtain ⟨d, stored, status⟩ := (Option.any_eq_true _ _).mp pending
  refine ⟨config, g, run, ⟨⟨d, stored, .inl (of_decide_eq_true status)⟩, read,
    fun t member _ => List.all_eq_true.mp ended t member⟩, fun candid => ?_⟩
  exact (candid 0 (by rw [failed]; decide)).1 (by rw [accepted]; decide)

end TaskEvents
end Nl2SqlAgent

import Nl2SqlAgent.TaskHeartbeat

/-! Which running tasks a scan takes to be lost: what it found of the heartbeat when it
looked, against the heartbeat that was written last. -/
namespace Nl2SqlAgent

open Lib

namespace TaskHeartbeat

/-- A heartbeat: its time stamp, and when it was written. -/
structure Beat where
  stamp : Nat
  written : Nat
  deriving DecidableEq, Repr

/-- A scan's read of the heartbeat: when it was, and the last heartbeat written by then. -/
structure Look where
  moment : Nat
  last : Option Beat
  deriving DecidableEq, Repr

/-- A running task that a scan with this threshold in seconds moved to TIMEOUT: when it
did and what it had looked at, with the last heartbeat, and the last time that the task
became RUNNING or was published again, by then. -/
structure Kill where
  limit : Nat
  moment : Nat
  look : Option Look
  last : Option Beat
  since : Nat
  deriving DecidableEq, Repr

/-- The last heartbeat, when the task last became RUNNING or was published again, what the
scans have looked at, and the running tasks that they moved to TIMEOUT. -/
structure Record where
  last : Option Beat := none
  since : Nat := 0
  looks : List (Nat × Look) := []
  kills : List Kill := []

/-- A command that makes the task RUNNING, or publishes its request again. -/
def restarts : TaskThreads.Effect → Bool
  | .update _ _ write => write.status = some "RUNNING"
  | .save _ .feedback => true
  | .publishRequest _ => true
  | _ => false

/-- A command that stores the status TIMEOUT. -/
def timesOut : TaskThreads.Effect → Bool
  | .update _ _ write => write.status = some "TIMEOUT"
  | .save _ .scanStale => true
  | _ => false

/-- The number of a scan, and its threshold in seconds. -/
def Desc.scan : Desc → Option (Nat × Nat)
  | .scanStaleTasks scan staleS _ => some (scan, staleS)
  | .scanStale scan => some (scan, heartbeatStale)
  | _ => none

def Record.kill (g : Record) (w : World) (scan limit : Nat) : Record :=
  { g with kills := ⟨limit, w.clock, g.looks.lookup scan, g.last, g.since⟩ :: g.kills }

/-- What a command on the task's keys adds. -/
def Record.written (g : Record) (w : World) (d : Desc) (e : TaskThreads.Effect) : Record :=
  if restarts e then { g with since := w.clock }
  else if timesOut e ∧ TaskThreads.isRunning w.current.doc then
    match d.scan with
    | some (scan, limit) => g.kill w scan limit
    | none => g
  else g

def Record.looked (g : Record) (w : World) (d : Desc) : Record :=
  match d.scan with
  | some (scan, _) => { g with looks := (scan, ⟨w.clock, g.last⟩) :: g.looks }
  | none => g

def Record.after (g : Record) (w : World) (d : Desc) : Effect → Record
  | .task e => g.written w d e
  | .setHeartbeat stamp => { g with last := some ⟨stamp, w.clock⟩ }
  | .getHeartbeat => g.looked w d
  | _ => g

def notes : Notes Effect Effect.Answer World Desc Nat Record where
  run w g d e _ := g.after w d e

abbrev watched := system.watched notes

abbrev Run := Config (Desc × Effect) (fun e => e.2.Answer) (World × Record) Desc

def start : Run := ⟨(⟨TaskThreads.start.world, 0, 0, 0, none, 0, [], 0, false⟩, {}), []⟩

/-- At its look the scan found no heartbeat of the last 30 seconds, or the last one is
older than the threshold by now. -/
def Unheard (limit now : Nat) (look : Look) : Prop :=
  look.moment ≤ now ∧ ∀ beat ∈ look.last,
    beat.written + heartbeatTtl * second ≤ look.moment ∨ beat.stamp + limit * second < now

theorem Unheard.later {limit now later : Nat} {look : Look} (unheard : Unheard limit now look)
    (after : now ≤ later) : Unheard limit later look :=
  ⟨unheard.1.trans after, fun beat member => (unheard.2 beat member).imp_right fun old => old.trans_le after⟩

/-- Where a scan stands: `timed` holds the time that it took at its start, `heard` the
stamp it has just read; `dead` once it is to move the task. -/
inductive Point where
  | start
  | timed (now : Nat)
  | heard (stamp : Nat)
  | dead (now : Option Nat)

/-- Where what was read of the heartbeat leads; it is a time. -/
def Point.read (limit : Nat) : Point → Option (Option Nat) → Option Point
  | .start, none => some (.dead none)
  | .start, some (some stamp) => some (.heard stamp)
  | .timed now, none => some (.dead (some now))
  | .dead (some now), none => some (.dead (some now))
  | .timed now, some (some stamp) =>
    some (if isOlder limit stamp now then .dead (some now) else .timed now)
  | .dead (some now), some (some stamp) =>
    some (if isOlder limit stamp now then .dead (some now) else .timed now)
  | _, _ => none

/-- Where the time leads. -/
def Point.time (limit : Nat) : Point → Nat → Option Point
  | .start, now => some (.timed now)
  | .heard stamp, now => some (if isOlder limit stamp now then .dead none else .start)
  | _, _ => none

def Point.isDead : Point → Bool
  | .dead _ => true
  | _ => false

/-- A scan moves the task only when it has found it dead. -/
def protocol (limit : Nat) : Prog.Protocol Effect Effect.Answer Point where
  allows p e :=
    match e with
    | .task e => restarts e = false ∧ (timesOut e = true → p.isDead = true)
    | .now => ∀ now, (p.time limit now).isSome = true
    | .getHeartbeat => ∀ stamp : Option Nat, (p.read limit (stamp.map some)).isSome = true
    | _ => False
  next p e r p' :=
    match e, r with
    | .now, now => p.time limit now = some p'
    | .getHeartbeat, value => p.read limit value = some p'
    | _, _ => p' = p
  final _ := True

variable {limit now : Nat} {p : Point}

theorem calls_keeps {q : TaskThreads.Task α}
    (emits : q.Emits fun e => restarts e = false ∧ (timesOut e = true → p.isDead = true)) :
    (calls q).Keeps (protocol limit) (fun _ p' => p' = p) p := by
  induction q with
  | ret a => rfl
  | act e k ih =>
    refine ⟨emits.1, fun r p' same => ?_⟩
    obtain rfl : p' = p := same
    exact ih r (emits.2 r)

theorem taskGet_keeps :
    (calls TaskThreads.taskGet).Keeps (protocol limit) (fun _ p' => p' = p) p :=
  calls_keeps (Prog.emits_perform _ _ ⟨rfl, nofun⟩)

theorem timeout_keeps (reason : String) (dead : p.isDead = true) :
    (calls (TaskThreads.taskTransition (.ended "TIMEOUT" (some reason)))).Keeps (protocol limit)
      (fun _ p' => p' = p) p :=
  calls_keeps (TaskThreads.taskTransition_emits rfl (by decide) ⟨rfl, nofun⟩
    fun _ _ _ => ⟨rfl, fun _ => dead⟩)

/-- The points of a scan of the store that has taken its time. -/
def Point.at (now : Nat) (p : Point) : Prop := p = .timed now ∨ p = .dead (some now)

theorem getHeartbeat_allowed (started : p.at now) (stamp : Option Nat) :
    (p.read limit (stamp.map some)).isSome = true := by
  rcases started with rfl | rfl <;> cases stamp <;> rfl

theorem read_lost {p' : Point} {value : Option (Option Nat)} (started : p.at now)
    (leads : p.read limit value = some p') :
    p'.at now ∧ ∀ reason ∈ lost limit now value, p'.isDead = true := by
  match value with
  | none =>
    obtain rfl : p' = .dead (some now) := by
      rcases started with rfl | rfl <;> exact (Option.some.inj leads).symm
    exact ⟨.inr rfl, fun _ _ => rfl⟩
  | some none => rcases started with rfl | rfl <;> contradiction
  | some (some stamp) =>
    obtain rfl : p' = if isOlder limit stamp now then .dead (some now) else .timed now := by
      rcases started with rfl | rfl <;> exact (Option.some.inj leads).symm
    by_cases old : isOlder limit stamp now = true
    · rw [if_pos old]
      exact ⟨.inr rfl, fun _ _ => rfl⟩
    · rw [if_neg old]
      exact ⟨.inl rfl, fun reason member => by simp [lost, old] at member⟩

theorem scanTask_keeps (started : p.at now) :
    (scanTask limit now).Keeps (protocol limit) (fun _ p' => p'.at now) p := by
  apply Prog.keeps_bind taskGet_keeps
  rintro state _ rfl
  by_cases running : TaskThreads.isRunning state = true
  · rw [if_pos running]
    refine ⟨getHeartbeat_allowed started, fun value p' leads => ?_⟩
    obtain ⟨later, dead⟩ := read_lost started leads
    simp only [Prog.bind]
    cases judged : lost limit now value with
    | none => exact later
    | some reason =>
      apply (timeout_keeps reason (dead reason judged)).mono
      rintro _ _ rfl
      exact later
  · rw [if_neg running]
    exact started

theorem scanTasks_keeps (returned : Nat) (started : p.at now) :
    (scanTasks limit now returned).Keeps (protocol limit) (fun _ p' => p'.at now) p := by
  induction returned generalizing p with
  | zero => exact started
  | succ returned ih => exact Prog.keeps_bind (scanTask_keeps started) fun _ _ kept => ih kept

theorem scanStaleTasks_follows (returned : Nat) :
    (scanStaleTasks limit returned).Follows (protocol limit) .start := by
  refine ⟨fun _ => rfl, fun now p' leads => ?_⟩
  obtain rfl : Point.timed now = p' := Option.some.inj leads
  exact (scanTasks_keeps returned (.inl rfl)).follows fun _ _ _ => trivial

theorem save_follows (s : JavaTaskState.TaskState) (dead : p.isDead = true) :
    (ask (.task (.save s .scanStale))).Follows (protocol limit) p :=
  ⟨⟨rfl, fun _ => dead⟩, fun _ _ _ => trivial⟩

/-- The gateway's scan at the time it compares with the stamp it has read. -/
theorem judged_follows (s : JavaTaskState.TaskState) (stamp now : Nat) {p' : Point}
    (leads : (Point.heard stamp).time limit now = some p') :
    (if isOlder limit stamp now then ask (.task (.save s .scanStale)) else pure ()).Follows
      (protocol limit) p' := by
  obtain rfl := Option.some.inj leads
  by_cases old : isOlder limit stamp now = true
  · rw [if_pos old, if_pos old]
    exact save_follows s rfl
  · rw [if_neg old, if_neg old]
    trivial

theorem looked_follows (s : JavaTaskState.TaskState) (value : Option (Option Nat)) {p' : Point}
    (leads : Point.start.read limit value = some p') :
    (match value with
      | none => ask (.task (.save s .scanStale))
      | some none => ask (.task (.save s .scanStale))
      | some (some stamp) => ask .now >>= fun now =>
        if isOlder limit stamp now then ask (.task (.save s .scanStale)) else pure ()).Follows
      (protocol limit) p' := by
  match value with
  | none =>
    obtain rfl := Option.some.inj leads
    exact save_follows s rfl
  | some none => contradiction
  | some (some stamp) =>
    obtain rfl := Option.some.inj leads
    exact Prog.follows_perform (fun _ => rfl) fun now p' later => judged_follows s stamp now later

theorem scanStale_follows : scanStale.Follows (protocol heartbeatStale) .start := by
  have reading : (calls TaskThreads.gatewayGet).Keeps (protocol heartbeatStale)
      (fun _ p' => p' = .start) .start := by
    apply calls_keeps
    apply Prog.emits_bind
    · exact Prog.emits_perform _ _ ⟨rfl, nofun⟩
    · exact fun _ => trivial
  apply Prog.follows_bind reading
  rintro state _ rfl
  cases state with
  | none => trivial
  | some s =>
    by_cases running : s.status = some "RUNNING"
    · simp only [running, if_true]
      exact ⟨fun stamp => by cases stamp <;> rfl, fun value p' leads => looked_follows s value leads⟩
    · simp only [running, if_false]
      trivial

def Point.Holds (w : World × Record) (scan limit : Nat) : Point → Prop
  | .start => True
  | .timed now => now ≤ w.1.clock
  | .heard stamp => ∃ look, w.2.looks.lookup scan = some look ∧ look.moment ≤ w.1.clock ∧
      ∃ beat, look.last = some beat ∧ beat.stamp = stamp
  | .dead now => (∀ t ∈ now, t ≤ w.1.clock) ∧
      ∃ look, w.2.looks.lookup scan = some look ∧ Unheard limit w.1.clock look

/-- The heartbeat's key is that of the last one written. -/
structure Kept (w : World × Record) : Prop where
  heartbeat : w.1.heartbeat =
    w.2.last.map fun beat => (some beat.stamp, beat.written + heartbeatTtl * second)
  kills : ∀ kill ∈ w.2.kills, ∃ look, kill.look = some look ∧ Unheard kill.limit kill.moment look

/-- What holds of a thread: a scan keeps to its protocol. -/
def Scans (w : World × Record)
    (t : Thread (Desc × Effect) (fun e => e.2.Answer) Desc) : Prop :=
  match t.desc.scan with
  | some (scan, limit) => scan < w.1.scans ∧
      ∃ p : Point, p.Holds w scan limit ∧ t.rest.Follows ((protocol limit).tagged t.desc) p
  | none => t.rest.Emits fun e => e.1 = t.desc

/-- Two threads are not the same scan. -/
def Apart (d d' : Desc) : Prop := ∀ s ∈ d.scan, ∀ s' ∈ d'.scan, s.1 ≠ s'.1

theorem Point.Holds.frame {w w' : World × Record} {scan limit : Nat} {p : Point}
    (holds : p.Holds w scan limit) (later : w.1.clock ≤ w'.1.clock)
    (looks : w'.2.looks.lookup scan = w.2.looks.lookup scan) : p.Holds w' scan limit := by
  cases p with
  | start => trivial
  | timed now => exact le_trans holds later
  | heard stamp =>
    obtain ⟨look, found, before, beat⟩ := holds
    exact ⟨look, looks.trans found, before.trans later, beat⟩
  | dead now =>
    obtain ⟨before, look, found, unheard⟩ := holds
    exact ⟨fun t member => (before t member).trans later, look, looks.trans found, unheard.later later⟩

theorem Scans.frame {w w' : World × Record}
    {t : Thread (Desc × Effect) (fun e => e.2.Answer) Desc} (scans : Scans w t)
    (later : w.1.clock ≤ w'.1.clock) (more : w.1.scans ≤ w'.1.scans)
    (looks : ∀ s ∈ t.desc.scan, w'.2.looks.lookup s.1 = w.2.looks.lookup s.1) : Scans w' t := by
  unfold Scans at *
  cases kind : t.desc.scan with
  | none =>
    rw [kind] at scans
    exact scans
  | some s =>
    rw [kind] at scans
    obtain ⟨known, p, holds, follows⟩ := scans
    exact ⟨known.trans_le more, p, holds.frame later (looks s kind), follows⟩

theorem start_scans (w : World × Record) (d : Desc) (known : ∀ s ∈ d.scan, s.1 < w.1.scans) :
    Scans w (watched.start d) := by
  cases d with
  | scanStaleTasks scan staleS returned =>
    exact ⟨known _ rfl, .start, trivial, Prog.follows_tag _ (scanStaleTasks_follows returned)⟩
  | scanStale scan => exact ⟨known _ rfl, .start, trivial, Prog.follows_tag _ scanStale_follows⟩
  | _ => exact Prog.emits_embed _ _ (Prog.emits_of_all (fun _ => rfl) _)

theorem perform_clock {w w' : World} {c : Choice} {e : Effect} {r : e.Answer} {forks : List Desc}
    (performed : perform w c e = some (w', r, forks)) :
    w'.clock = w.clock ∧ w'.scans = w.scans ∧ ∀ f ∈ forks, f.scan = none := by
  cases e with
  | task e =>
    obtain ⟨⟨task, answer, started⟩, -, same⟩ := Option.map_eq_some_iff.mp performed
    obtain ⟨rfl, rfl, rfl⟩ := same
    refine ⟨rfl, rfl, fun f forked => ?_⟩
    obtain ⟨d, -, rfl⟩ := List.mem_map.mp forked
    rfl
  | startHeartbeat =>
    obtain ⟨rfl, rfl, rfl⟩ := Option.some.inj performed
    exact ⟨rfl, rfl, fun f forked => by rw [List.mem_singleton.mp forked]; rfl⟩
  | wait thread moment =>
    obtain ⟨-, same⟩ := Option.ite_none_right_eq_some.mp performed
    obtain ⟨rfl, rfl, rfl⟩ := Option.some.inj same
    exact ⟨rfl, rfl, by simp⟩
  | _ =>
    obtain ⟨rfl, rfl, rfl⟩ := Option.some.inj performed
    exact ⟨rfl, rfl, by simp⟩

/-- A command on the keys adds no look, and a kill only for a scan that times the task out. -/
theorem written_cases (g : Record) (w : World) (d : Desc) (e : TaskThreads.Effect) :
    (g.written w d e).last = g.last ∧ (g.written w d e).looks = g.looks ∧
      ((g.written w d e).kills = g.kills ∨ ∃ scan limit, d.scan = some (scan, limit) ∧
        timesOut e = true ∧ g.written w d e = g.kill w scan limit) := by
  unfold Record.written
  by_cases again : restarts e = true
  · rw [if_pos again]
    exact ⟨rfl, rfl, .inl rfl⟩
  · rw [if_neg again]
    by_cases ends : timesOut e = true ∧ TaskThreads.isRunning w.current.doc = true
    · rw [if_pos ends]
      cases kind : d.scan with
      | none => exact ⟨rfl, rfl, .inl rfl⟩
      | some s => exact ⟨rfl, rfl, .inr ⟨s.1, s.2, rfl, ends.1, rfl⟩⟩
    · rw [if_neg ends]
      exact ⟨rfl, rfl, .inl rfl⟩

theorem after_looks (g : Record) (w : World) (d : Desc) (e : Effect) (scan : Nat)
    (other : ∀ s ∈ d.scan, s.1 ≠ scan) :
    (g.after w d e).looks.lookup scan = g.looks.lookup scan := by
  cases e with
  | task e => exact congrArg (List.lookup scan) (written_cases g w d e).2.1
  | getHeartbeat =>
    change (g.looked w d).looks.lookup scan = _
    unfold Record.looked
    cases kind : d.scan with
    | none => rfl
    | some s =>
      have different : (scan == s.1) = false := by simpa using (other s kind).symm
      simp only [List.lookup_cons, different]
  | _ => rfl

theorem getHeartbeat_kept {w : World × Record} (kept : Kept w) :
    (w.1.getHeartbeat = none ∧
        ∀ beat ∈ w.2.last, beat.written + heartbeatTtl * second ≤ w.1.clock) ∨
      ∃ beat, w.2.last = some beat ∧ w.1.getHeartbeat = some (some beat.stamp) := by
  unfold World.getHeartbeat
  rw [kept.heartbeat]
  cases last : w.2.last with
  | none => exact .inl ⟨rfl, by simp⟩
  | some beat =>
    by_cases alive : w.1.clock < beat.written + heartbeatTtl * second
    · exact .inr ⟨beat, rfl, by simp [alive]⟩
    · refine .inl ⟨by simp [alive], fun other member => ?_⟩
      obtain rfl : beat = other := Option.some.inj member
      exact Nat.le_of_not_lt alive

/-- A scan's command on the keys leaves it where it stands; a kill is of what it found. -/
theorem Kept.written {w : World × Record} {w' : World} {d : Desc} {e : TaskThreads.Effect}
    (kept : Kept w) (same : w'.heartbeat = w.1.heartbeat)
    (found : ∀ s ∈ d.scan, timesOut e = true →
      ∃ look, w.2.looks.lookup s.1 = some look ∧ Unheard s.2 w.1.clock look) :
    Kept (w', w.2.written w.1 d e) := by
  obtain ⟨last, -, kills⟩ := written_cases w.2 w.1 d e
  refine ⟨?_, fun kill member => ?_⟩
  · rw [last, same]
    exact kept.heartbeat
  · rcases kills with unchanged | ⟨scan, limit, kind, ends, killed⟩
    · rw [unchanged] at member
      exact kept.kills kill member
    · rw [killed] at member
      rcases List.mem_cons.mp member with rfl | old
      · exact found (scan, limit) kind ends
      · exact kept.kills kill old

theorem isOlder_lt {limit stamp now : Nat} (old : isOlder limit stamp now = true) :
    stamp + limit * second < now := Nat.add_lt_of_lt_sub' (of_decide_eq_true old)

theorem isDead_cases {p : Point} (dead : p.isDead = true) : ∃ now, p = .dead now := by
  cases p with
  | dead now => exact ⟨now, rfl⟩
  | _ => contradiction

theorem read_holds {w : World × Record} {w' : World} {d : Desc} {scan limit : Nat} {p p' : Point}
    (kept : Kept w) (kind : d.scan = some (scan, limit)) (same : w'.clock = w.1.clock)
    (holds : p.Holds w scan limit) (leads : p.read limit w.1.getHeartbeat = some p') :
    p'.Holds (w', w.2.looked w.1 d) scan limit := by
  have looks : (w.2.looked w.1 d).looks.lookup scan = some ⟨w.1.clock, w.2.last⟩ := by
    simp [Record.looked, kind]
  have timed (now : Nat) (before : now ≤ w.1.clock)
      (place : p' = .dead (some now) ∧ (w.1.getHeartbeat = none ∨
          ∃ stamp, w.1.getHeartbeat = some (some stamp) ∧ isOlder limit stamp now = true) ∨
        p' = .timed now) : p'.Holds (w', w.2.looked w.1 d) scan limit := by
    rcases place with ⟨rfl, reason⟩ | rfl
    · refine ⟨fun t member => ?_, _, looks, same.ge, fun beat member => ?_⟩
      · obtain rfl : now = t := Option.some.inj member
        exact before.trans same.ge
      · rcases getHeartbeat_kept kept with ⟨-, expired⟩ | ⟨last, found, stored⟩
        · exact .inl (expired beat member)
        · obtain rfl : last = beat := Option.some.inj (found.symm.trans member)
          rcases reason with missing | ⟨stamp, read, old⟩
          · rw [missing] at stored
            contradiction
          · rw [stored] at read
            obtain rfl : last.stamp = stamp := Option.some.inj (Option.some.inj read)
            have older := isOlder_lt old
            exact .inr ((older.trans_le before).trans_le same.ge)
    · exact before.trans same.ge
  rcases getHeartbeat_kept kept with ⟨missing, expired⟩ | ⟨beat, found, stored⟩
  · rw [missing] at leads
    match p, leads with
    | .start, leads =>
      obtain rfl := Option.some.inj leads
      exact ⟨nofun, _, looks, same.ge, fun beat member => .inl (expired beat member)⟩
    | .timed now, leads => exact timed now holds (.inl ⟨(Option.some.inj leads).symm, .inl missing⟩)
    | .dead (some now), leads =>
      exact timed now (holds.1 now rfl) (.inl ⟨(Option.some.inj leads).symm, .inl missing⟩)
    | .dead none, leads => contradiction
    | .heard stamp, leads => contradiction
  · rw [stored] at leads
    have judged (now : Nat) (before : now ≤ w.1.clock)
        (place : p' = if isOlder limit beat.stamp now then .dead (some now) else .timed now) :
        p'.Holds (w', w.2.looked w.1 d) scan limit := by
      by_cases old : isOlder limit beat.stamp now = true
      · rw [if_pos old] at place
        exact timed now before (.inl ⟨place, .inr ⟨_, stored, old⟩⟩)
      · rw [if_neg old] at place
        exact timed now before (.inr place)
    match p, leads with
    | .start, leads =>
      obtain rfl := Option.some.inj leads
      exact ⟨_, looks, same.ge, beat, found, rfl⟩
    | .timed now, leads => exact judged now holds (Option.some.inj leads).symm
    | .dead (some now), leads => exact judged now (holds.1 now rfl) (Option.some.inj leads).symm
    | .dead none, leads => contradiction
    | .heard stamp, leads => contradiction

theorem time_holds {w : World × Record} {scan limit : Nat} {p p' : Point}
    (holds : p.Holds w scan limit) (leads : p.time limit w.1.clock = some p') :
    p'.Holds w scan limit := by
  match p, leads with
  | .start, leads =>
    obtain rfl := Option.some.inj leads
    exact le_refl w.1.clock
  | .heard stamp, leads =>
    obtain rfl := Option.some.inj leads
    by_cases old : isOlder limit stamp w.1.clock = true
    · rw [if_pos old]
      obtain ⟨look, found, before, beat, last, rfl⟩ := holds
      refine ⟨nofun, look, found, before, fun other member => .inr ?_⟩
      obtain rfl : beat = other := Option.some.inj (last.symm.trans member)
      exact isOlder_lt old
    · rw [if_neg old]
      trivial
  | .timed now, leads => contradiction
  | .dead now, leads => contradiction

theorem Kept.other {w w' : World × Record} {c : Choice} {d : Desc} {e : Effect} {r : e.Answer}
    {forks : List Desc} (kept : Kept w) (kind : d.scan = none)
    (performed : perform w.1 c e = some (w'.1, r, forks)) (noted : w'.2 = w.2.after w.1 d e) :
    Kept w' := by
  obtain ⟨world, record⟩ := w'
  obtain rfl : record = w.2.after w.1 d e := noted
  cases e with
  | task e =>
    obtain ⟨outcome, -, same⟩ := Option.map_eq_some_iff.mp performed
    obtain ⟨rfl, -⟩ := Prod.mk.inj same
    exact kept.written rfl fun s found => by simp [kind] at found
  | setHeartbeat stamp =>
    obtain ⟨rfl, -⟩ := Prod.mk.inj (Option.some.inj performed)
    exact ⟨rfl, kept.kills⟩
  | getHeartbeat =>
    obtain ⟨rfl, -⟩ := Prod.mk.inj (Option.some.inj performed)
    have same : w.2.after w.1 d .getHeartbeat = w.2 := by
      change w.2.looked w.1 d = w.2
      simp [Record.looked, kind]
    rw [same]
    exact kept
  | wait thread moment =>
    obtain ⟨-, same⟩ := Option.ite_none_right_eq_some.mp performed
    obtain ⟨rfl, -⟩ := Prod.mk.inj (Option.some.inj same)
    exact kept
  | _ =>
    obtain ⟨rfl, -⟩ := Prod.mk.inj (Option.some.inj performed)
    exact ⟨kept.heartbeat, kept.kills⟩

/-- A command of a scan, which then stands at a point that holds again. -/
theorem Kept.scan {w w' : World × Record} {c : Choice} {d : Desc} {e : Effect} {r : e.Answer}
    {forks : List Desc} {scan limit : Nat} {p : Point} (kept : Kept w)
    (kind : d.scan = some (scan, limit)) (holds : p.Holds w scan limit)
    (allowed : (protocol limit).allows p e)
    (performed : perform w.1 c e = some (w'.1, r, forks)) (noted : w'.2 = w.2.after w.1 d e) :
    Kept w' ∧ ∃ p' : Point, (protocol limit).next p e r p' ∧ p'.Holds w' scan limit := by
  obtain ⟨world, record⟩ := w'
  obtain rfl : record = w.2.after w.1 d e := noted
  have clock : world.clock = w.1.clock := (perform_clock performed).1
  cases e with
  | task e =>
    obtain ⟨outcome, -, same⟩ := Option.map_eq_some_iff.mp performed
    obtain ⟨rfl, -⟩ := Prod.mk.inj same
    constructor
    · refine kept.written rfl fun s found ends => ?_
      obtain rfl : (scan, limit) = s := Option.some.inj (kind.symm.trans found)
      obtain ⟨now, rfl⟩ := isDead_cases (allowed.2 ends)
      exact holds.2
    · refine ⟨p, rfl, holds.frame clock.ge ?_⟩
      exact congrArg (List.lookup scan) (written_cases w.2 w.1 d e).2.1
  | now =>
    obtain ⟨rfl, answered⟩ := Prod.mk.inj (Option.some.inj performed)
    obtain ⟨rfl, -⟩ := Prod.mk.inj answered
    obtain ⟨p', leads⟩ := Option.isSome_iff_exists.mp (allowed w.1.clock)
    exact ⟨kept, p', leads, time_holds holds leads⟩
  | getHeartbeat =>
    obtain ⟨rfl, answered⟩ := Prod.mk.inj (Option.some.inj performed)
    obtain ⟨rfl, -⟩ := Prod.mk.inj answered
    obtain ⟨stamp, value⟩ : ∃ stamp : Option Nat, w.1.getHeartbeat = stamp.map some := by
      rcases getHeartbeat_kept kept with ⟨missing, -⟩ | ⟨beat, -, stored⟩
      · exact ⟨none, missing⟩
      · exact ⟨some beat.stamp, stored⟩
    obtain ⟨p', leads⟩ := Option.isSome_iff_exists.mp (allowed stamp)
    rw [← value] at leads
    have unchanged : (w.2.looked w.1 d).last = w.2.last ∧ (w.2.looked w.1 d).kills = w.2.kills := by
      simp [Record.looked, kind]
    refine ⟨⟨?_, fun kill member => ?_⟩, p', leads, read_holds kept kind rfl holds leads⟩
    · exact kept.heartbeat.trans (congrArg (Option.map _) unchanged.1.symm)
    · rw [show (w.2.after w.1 d .getHeartbeat).kills = w.2.kills from unchanged.2] at member
      exact kept.kills kill member
  | _ => exact allowed.elim

theorem next_lt {w w' : World} {scan : Nat} (arrived : arriveScan w scan = some w') :
    scan = w.scans ∧ w' = { w with scans := w.scans + 1 } := by
  obtain ⟨same, moved⟩ := Option.ite_none_right_eq_some.mp arrived
  exact ⟨same, (Option.some.inj moved).symm⟩

theorem arrive_scans {w w' : World} {d : Desc} (arrived : arrive w d = some w') :
    w'.clock = w.clock ∧ w'.heartbeat = w.heartbeat ∧ w.scans ≤ w'.scans ∧
      ∀ s ∈ d.scan, s.1 = w.scans ∧ s.1 < w'.scans := by
  have numbered {scan limit : Nat} (arrived : arriveScan w scan = some w') :
      w'.clock = w.clock ∧ w'.heartbeat = w.heartbeat ∧ w.scans ≤ w'.scans ∧
        ∀ s ∈ some (scan, limit), s.1 = w.scans ∧ s.1 < w'.scans := by
    obtain ⟨rfl, rfl⟩ := next_lt arrived
    refine ⟨rfl, rfl, Nat.le_succ _, fun s member => ?_⟩
    obtain rfl := Option.some.inj member
    exact ⟨rfl, Nat.lt_succ_self _⟩
  cases d with
  | scanStaleTasks scan staleS returned => exact numbered arrived
  | scanStale scan => exact numbered arrived
  | heartbeat thread rounds => contradiction
  | task d =>
    have taken (arrived : ((TaskThreads.arrive w.task d).map fun task => { w with task := task }) =
        some w') : w'.clock = w.clock ∧ w'.heartbeat = w.heartbeat ∧ w.scans ≤ w'.scans ∧
          ∀ s ∈ (Desc.task d).scan, s.1 = w.scans ∧ s.1 < w'.scans := by
      obtain ⟨task, -, rfl⟩ := Option.map_eq_some_iff.mp arrived
      exact ⟨rfl, rfl, le_refl _, nofun⟩
    cases d with
    | submit submission =>
      obtain ⟨-, same⟩ := Option.ite_none_left_eq_some.mp arrived
      obtain rfl := Option.some.inj same
      exact ⟨rfl, rfl, le_refl _, nofun⟩
    | scanStale endpoint => contradiction
    | _ => exact taken arrived

/-- The scans over every interleaving, with the time that passes. -/
def scanning : Threads.Outline watched fun _ _ _ _ => True where
  inv := Kept
  ok := Scans
  apart := Apart
  own {w c d e k w' r forks} kept scans _ performed := by
    obtain ⟨taken, noted⟩ := Threads.watched_performed performed
    obtain ⟨clock, numbers, started⟩ := perform_clock taken
    have fork (f : Desc) (forked : f ∈ forks) : Scans w' (watched.start f) :=
      start_scans w' f fun s member => by simp [started f forked] at member
    unfold Scans at scans
    cases kind : d.scan with
    | none =>
      rw [kind] at scans
      obtain rfl : e.1 = d := scans.1
      refine ⟨kept.other kind taken noted, ?_, fork⟩
      unfold Scans
      rw [kind]
      exact scans.2 r
    | some s =>
      rw [kind] at scans
      obtain ⟨known, p, holds, follows⟩ := scans
      obtain rfl : e.1 = d := follows.1.1
      obtain ⟨kept', p', leads, holds'⟩ := kept.scan kind holds follows.1.2 taken noted
      refine ⟨kept', ?_, fork⟩
      unfold Scans
      rw [kind]
      exact ⟨numbers ▸ known, p', holds', follows.2 r p' leads⟩
  stable {w c d e k w' r forks t} _ scans _ performed other apart := by
    obtain ⟨taken, noted⟩ := Threads.watched_performed performed
    obtain ⟨clock, numbers, -⟩ := perform_clock taken
    have acting : e.1 = d := by
      unfold Scans at scans
      cases kind : d.scan with
      | none =>
        rw [kind] at scans
        exact scans.1
      | some s =>
        rw [kind] at scans
        obtain ⟨-, p, -, follows⟩ := scans
        exact follows.1.1
    apply other.frame clock.ge numbers.ge
    intro s member
    rw [noted]
    exact after_looks w.2 w.1 e.1 e.2 s.1 fun s' member' => apart.1 s' (acting ▸ member') s member
  fork_apart {w c d e k w' r forks} _ _ performed := by
    obtain ⟨taken, -⟩ := Threads.watched_performed performed
    obtain ⟨-, -, started⟩ := perform_clock taken
    refine ⟨fun t _ f forked => ⟨fun s _ s' member => ?_, fun s member => ?_⟩, ?_⟩
    · simp [started f forked] at member
    · simp [started f forked] at member
    · refine List.pairwise_of_forall_mem_list fun f forked g _ => ⟨fun s member => ?_, fun _ _ s member => ?_⟩
      · simp [started f forked] at member
      · simp [started f forked] at member
  arrive {w d w'} kept arrived := by
    obtain ⟨taken, noted⟩ := Threads.watched_arrived arrived
    obtain ⟨clock, heartbeat, more, numbered⟩ := arrive_scans taken
    obtain ⟨world, record⟩ := w'
    obtain rfl : record = w.2 := noted
    refine ⟨⟨heartbeat.trans kept.heartbeat, kept.kills⟩, ?_, fun t scans => ⟨?_, ?_⟩⟩
    · exact start_scans _ d fun s member => (numbered s member).2
    · exact scans.frame clock.ge more fun _ _ => rfl
    · have before (s : Nat × Nat) (member : s ∈ t.desc.scan) : s.1 < w.1.scans := by
        unfold Scans at scans
        rw [show t.desc.scan = some s from member] at scans
        exact scans.1
      constructor
      · intro s member s' member'
        exact (before s member).ne.trans_eq (numbered s' member').1.symm
      · intro s member s' member'
        rw [(numbered s member).1]
        exact (before s' member').ne'
  ambient {w passed w'} kept moved := by
    obtain ⟨taken, noted⟩ := Threads.watched_moved moved
    obtain ⟨world, record⟩ := w'
    obtain rfl : record = w.2 := noted
    obtain rfl : { w.1 with clock := w.1.clock + passed } = world := Option.some.inj taken
    refine ⟨⟨kept.heartbeat, kept.kills⟩, fun t scans => ?_⟩
    exact scans.frame (Nat.le_add_right _ _) (le_refl _) fun _ _ => rfl

/-- A scan moves a running task to TIMEOUT only when it found no heartbeat of the last 30
seconds at its look, or the last heartbeat it could find is older than its threshold. -/
theorem killed_unheard {events : List (Event Desc Choice Nat)} {c : Run}
    (run : watched.machine.exec start events = some c) :
    ∀ kill ∈ c.world.2.kills, ∃ look, kill.look = some look ∧ look.moment ≤ kill.moment ∧
      ∀ beat ∈ look.last, beat.written + heartbeatTtl * second ≤ look.moment ∨
        beat.stamp + kill.limit * second < kill.moment := by
  have initially : Kept start.world := ⟨rfl, by simp [start]⟩
  have holds := scanning.run (scanning.holds_empty initially)
    (Machine.along_true.mono fun _ _ _ _ => watched.meets_true _ _ _) run
  exact holds.world.kills

abbrev Step := Event Desc Choice Nat

/-- The next commands of a thread. -/
def go (pid commands : Nat) : List Step := List.replicate commands (.run pid {})

def seconds (n : Nat) : Step := .ambient (n * second)

/-- A task is submitted, and its handler has made it RUNNING. -/
def taken : List Step :=
  [.arrive (.task (.submit (.api "t1" "How many orders?" "shop" "")))] ++ go 0 2 ++
    [.arrive (.task (.handleTask 0))] ++ go 1 4

/-- The heartbeat thread has started and written once. -/
def beating : List Step := taken ++ [.run 1 { rounds := 2 }] ++ go 2 4

/-- The whole of a scan that moves the task, by the store or by the gateway. -/
def scanned (pid scan : Nat) : List Step := [.arrive (.scanStaleTasks scan heartbeatStale 1)] ++ go pid 6

def scannedByGateway (pid scan : Nat) : List Step := [.arrive (.scanStale scan)] ++ go pid 3

theorem killed_unheard_after :
    ∃ c, watched.machine.exec start (beating ++ [seconds 61] ++ scanned 3 0) = some c ∧
      c.world.2.kills.map Kill.moment = [61 * second] ∧
      ∀ kill ∈ c.world.2.kills, ∃ look, kill.look = some look ∧ look.moment ≤ kill.moment ∧
        ∀ beat ∈ look.last, beat.written + heartbeatTtl * second ≤ look.moment ∨
          beat.stamp + kill.limit * second < kill.moment := by
  have ends : (watched.machine.exec start (beating ++ [seconds 61] ++ scanned 3 0)).any (fun c =>
      c.world.2.kills.map Kill.moment = [61 * second]) = true := by decide +kernel
  obtain ⟨c, run, final⟩ := (Option.any_eq_true _ _).mp ends
  exact ⟨c, run, of_decide_eq_true final, killed_unheard run⟩

/-- A scan moves the running task no more than its threshold after the last heartbeat was
written, or after the task became RUNNING or was published again. -/
def KilledEarly (events : List Step) : Prop :=
  ∃ c kill, watched.machine.exec start events = some c ∧ kill ∈ c.world.2.kills ∧
    (kill.moment ≤ kill.since + kill.limit * second ∨
      ∃ beat ∈ kill.last, kill.moment ≤ beat.written + kill.limit * second)

def Kill.early (kill : Kill) : Bool :=
  kill.moment ≤ kill.since + kill.limit * second ∨
    kill.last.any fun beat => kill.moment ≤ beat.written + kill.limit * second

theorem early_killed {events : List Step} (ends : (watched.machine.exec start events).any
    (fun c => c.world.2.kills.any Kill.early) = true) : KilledEarly events := by
  obtain ⟨c, run, final⟩ := (Option.any_eq_true _ _).mp ends
  obtain ⟨kill, member, early⟩ := List.any_eq_true.mp final
  refine ⟨c, kill, run, member, (of_decide_eq_true early).imp_right fun written => ?_⟩
  obtain ⟨beat, last, before⟩ := (Option.any_eq_true _ _).mp written
  exact ⟨beat, last, of_decide_eq_true before⟩

/-- The handler fails, publishes the task again and stops its heartbeat. -/
def retried : List Step :=
  beating ++ [seconds 4, .run 1 { graph := ⟨[], .error "RuntimeError: lost"⟩ }] ++ go 3 1 ++ go 1 6

/-- The handler succeeds, and much later a feedback request puts the task back to RUNNING. -/
def corrected : List Step :=
  beating ++ [.run 1 { graph := ⟨[], .ok (⟨some "SELECT 1", .null, [], []⟩, ⟨"", "", "", []⟩)⟩ }] ++
    go 3 3 ++ go 1 5 ++ [seconds 100, .arrive (.task (.feedback .api 0))] ++ go 4 5

/-- The second heartbeat is written after the scan's look. -/
def overtaken : List Step :=
  beating ++ [seconds 61, .arrive (.scanStaleTasks 0 heartbeatStale 1)] ++ go 3 3 ++ go 2 4 ++ go 3 3

/-- Right after the task became RUNNING; 31 seconds after the last heartbeat, by either
scan; after a retry was published and after feedback was accepted, with no heartbeat
running; and just after a heartbeat that the scan did not see. -/
theorem killed_early :
    KilledEarly (taken ++ scanned 2 0) ∧ KilledEarly (beating ++ [seconds 31] ++ scanned 3 0) ∧
      KilledEarly (beating ++ [seconds 31] ++ scannedByGateway 3 0) ∧
      KilledEarly (retried ++ [seconds 31] ++ scanned 4 0) ∧
      KilledEarly (corrected ++ scannedByGateway 5 0) ∧ KilledEarly overtaken := by
  refine ⟨?_, ?_, ?_, ?_, ?_, ?_⟩ <;> exact early_killed (by decide +kernel)

end TaskHeartbeat
end Nl2SqlAgent

import Mathlib.Algebra.Order.Group.Nat
import Nl2SqlAgent.Lib.Watch

/-! `RateLimiterService`: the calls for one key with one limit. A call reads the clock
and runs its script some time later, so scripts may run out of the order of their time
stamps. There is one clock, every call has a member of its own, and Redis does not fail. -/
namespace Nl2SqlAgent

open Lib

namespace RateLimiter

/-- The sorted set under the key, by the scores of its members, and when it expires. -/
structure Window where
  scores : List Nat := []
  expires : Nat := 0
  deriving DecidableEq, Repr

/-- What `ZREMRANGEBYSCORE key 0 (now - window)` leaves, and what it removes. -/
def kept (now windowMs : Nat) (scores : List Nat) : List Nat :=
  scores.filter fun x => now < x + windowMs

def removed (now windowMs : Nat) (scores : List Nat) : List Nat :=
  scores.filter fun x => !decide (now < x + windowMs)

/-- `SCRIPT`; `PEXPIRE` counts from the clock and not from the time stamp. -/
def Window.script (w : Window) (clock now windowMs : Nat) (limit : Int) : Window × Bool :=
  if ((kept now windowMs w.scores).length : Int) < limit then
    (⟨now :: kept now windowMs w.scores, clock + windowMs⟩, true)
  else ({ w with scores := kept now windowMs w.scores }, false)

/-- The key when the clock has come to `clock`. -/
def Window.pass (w : Window) (clock : Nat) : Window :=
  if w.expires ≤ clock then { w with scores := [] } else w

inductive Effect where
  | currentTimeMillis
  | execute (now windowMs : Nat) (limit : Int)

def Effect.Answer : Effect → Type
  | .currentTimeMillis => Nat
  | .execute .. => Bool

abbrev Task := Prog Effect Effect.Answer

def ask (e : Effect) : Task e.Answer := Prog.perform e

def check (windowMs : Nat) (limit : Int) : Task Bool := do
  let now ← ask .currentTimeMillis
  ask (.execute now windowMs limit)

def allowUser (qpsLimit : Int) : Task Bool := check 1000 qpsLimit

def allowGlobal (globalQps : Int) : Task Bool := check 1000 globalQps

/-- Which of the two the calls for the key are. -/
inductive Desc where
  | user
  | global
  deriving DecidableEq, Repr

def body (limit : Int) : Desc → Task Unit
  | .user => do
    let _ ← allowUser limit
    return ()
  | .global => do
    let _ ← allowGlobal limit
    return ()

structure World where
  clock : Nat
  window : Window

def perform (w : World) : (e : Effect) → World × e.Answer
  | .currentTimeMillis => (w, w.clock)
  | .execute now windowMs limit =>
    let (window, admitted) := w.window.script w.clock now windowMs limit
    ({ w with window := window }, admitted)

/-- The ambient move is the time that passes, in milliseconds. -/
def system (limit : Int) : Threads Effect Effect.Answer World Desc Unit Nat where
  body := body limit
  perform w _ e := some ((perform w e).1, (perform w e).2, [])
  arrive w _ := some w
  ambient w ms := some ⟨w.clock + ms, w.window.pass (w.clock + ms)⟩

/-- The time stamps of the calls that were admitted or rejected, of the admitted ones whose
members a script has removed, and of those that an expiry has dropped, with its time. -/
structure Record where
  admitted : List Nat := []
  rejected : List Nat := []
  pruned : List Nat := []
  expired : List (Nat × Nat) := []

def Record.after (g : Record) (w : World) : (e : Effect) → e.Answer → Record
  | .currentTimeMillis, _ => g
  | .execute now windowMs _, true =>
    { g with
      admitted := now :: g.admitted
      pruned := removed now windowMs w.window.scores ++ g.pruned }
  | .execute now windowMs _, false =>
    { g with
      rejected := now :: g.rejected
      pruned := removed now windowMs w.window.scores ++ g.pruned }

def Record.passed (g : Record) (w : World) (clock : Nat) : Record :=
  if w.window.expires ≤ clock then
    { g with expired := w.window.scores.map (fun x => (x, clock)) ++ g.expired }
  else g

def notes : Notes Effect Effect.Answer World Desc Nat Record where
  run w g _ e r := g.after w e r
  ambient w g ms := g.passed w (w.clock + ms)

abbrev watched (limit : Int) := (system limit).watched notes

abbrev Run := Config (Desc × Effect) (fun e => e.2.Answer) (World × Record) Desc

def start (clock : Nat) : Run := ⟨(⟨clock, {}⟩, {}), []⟩

/-- When a script with the time stamp `now` runs, no admitted call of the 1000 ms before it
has been removed or dropped, and none in the set is 1000 ms or more after it. -/
def InOrder (w : World × Record) (_ : Desc) (e : Desc × Effect) (_ : e.2.Answer) : Prop :=
  match e.2 with
  | .execute now _ _ =>
    (∀ x ∈ w.2.pruned, x + 1000 ≤ now) ∧ (∀ x ∈ w.2.expired, x.1 + 1000 ≤ now) ∧
      ∀ x ∈ w.1.window.scores, x < now + 1000
  | _ => True

/-- How many of the calls have a time stamp in the 1000 ms from `s` on. -/
def inWindow (s : Nat) (calls : List Nat) : Nat := calls.countP fun x => s ≤ x ∧ x < s + 1000

/-- How many of the calls are within 1000 ms of `t`. -/
def near (t : Nat) (calls : List Nat) : Nat := calls.countP fun x => x < t + 1000 ∧ t < x + 1000

@[simp] theorem inWindow_append (s : Nat) (calls more : List Nat) :
    inWindow s (calls ++ more) = inWindow s calls + inWindow s more := List.countP_append

@[simp] theorem near_append (t : Nat) (calls more : List Nat) :
    near t (calls ++ more) = near t calls + near t more := List.countP_append

/-- Every admitted call is in the set or was taken out of it, what is in it is not older than
the key's life, and the admissions and rejections so far were right. -/
structure Fair (limit : Int) (w : World × Record) : Prop where
  accounted : w.2.admitted.Perm (w.1.window.scores ++ (w.2.pruned ++ w.2.expired.map Prod.fst))
  past : ∀ x ∈ w.1.window.scores, x ≤ w.1.clock ∧ x + 1000 ≤ w.1.window.expires
  bounded : ∀ s, (inWindow s w.2.admitted : Int) ≤ max limit 0
  rejected : ∀ t ∈ w.2.rejected, limit ≤ near t w.2.admitted
  expired : ∀ x ∈ w.2.expired, x.1 + 1000 ≤ x.2

theorem split_scores (now : Nat) (scores : List Nat) :
    scores.Perm (kept now 1000 scores ++ removed now 1000 scores) :=
  (List.filter_append_perm _ scores).symm

theorem inWindow_old {s now : Nat} {calls : List Nat} (ahead : now < s + 1000)
    (old : ∀ x ∈ calls, x + 1000 ≤ now) : inWindow s calls = 0 := by
  apply List.countP_eq_zero.mpr
  intro x member
  have := old x member
  simp only [decide_eq_true_eq]
  omega

theorem removed_old {now x : Nat} {scores : List Nat} (member : x ∈ removed now 1000 scores) :
    x + 1000 ≤ now := by
  have late := (List.mem_filter.mp member).2
  simp only [Bool.not_eq_true', decide_eq_false_iff_not] at late
  omega

/-- The members that are left are what the set holds of the window of an admitted call. -/
theorem inWindow_le {limit : Int} {w : World × Record} (fair : Fair limit w) {s now : Nat}
    (ahead : now < s + 1000) (pruned : ∀ x ∈ w.2.pruned, x + 1000 ≤ now)
    (expired : ∀ x ∈ w.2.expired, x.1 + 1000 ≤ now) :
    inWindow s w.2.admitted ≤ (kept now 1000 w.1.window.scores).length := by
  have dropped : ∀ x ∈ w.2.expired.map Prod.fst, x + 1000 ≤ now := by
    intro x member
    obtain ⟨entry, inExpired, rfl⟩ := List.mem_map.mp member
    exact expired entry inExpired
  calc inWindow s w.2.admitted
      = inWindow s (w.1.window.scores ++ (w.2.pruned ++ w.2.expired.map Prod.fst)) :=
        fair.accounted.countP_eq _
    _ = inWindow s w.1.window.scores := by
        simp only [inWindow_append, inWindow_old ahead pruned, inWindow_old ahead dropped]
        omega
    _ = inWindow s (kept now 1000 w.1.window.scores ++ removed now 1000 w.1.window.scores) :=
        (split_scores now w.1.window.scores).countP_eq _
    _ = inWindow s (kept now 1000 w.1.window.scores) := by
        rw [inWindow_append, inWindow_old ahead fun x member => removed_old member]
        omega
    _ ≤ (kept now 1000 w.1.window.scores).length := List.countP_le_length

/-- What a script does with its window and its notes. -/
theorem execute_cases {w w' : World × Record} {d : Desc} {now : Nat} {limit : Int} {r : Bool}
    (world : w'.1 = (perform w.1 (.execute now 1000 limit)).1)
    (answer : r = (perform w.1 (.execute now 1000 limit)).2)
    (noted : w'.2 = notes.run w.1 w.2 d (.execute now 1000 limit) r) :
    w'.1.clock = w.1.clock ∧ w'.2.pruned = removed now 1000 w.1.window.scores ++ w.2.pruned ∧
    w'.2.expired = w.2.expired ∧
    ((((kept now 1000 w.1.window.scores).length : Int) < limit ∧
      w'.1.window = ⟨now :: kept now 1000 w.1.window.scores, w.1.clock + 1000⟩ ∧
      w'.2.admitted = now :: w.2.admitted ∧ w'.2.rejected = w.2.rejected) ∨
    (limit ≤ ((kept now 1000 w.1.window.scores).length : Int) ∧
      w'.1.window = { w.1.window with scores := kept now 1000 w.1.window.scores } ∧
      w'.2.admitted = w.2.admitted ∧ w'.2.rejected = now :: w.2.rejected)) := by
  simp only [perform, Window.script] at world answer
  split at world
  next room =>
    obtain rfl : r = true := by simpa [room] using answer
    rw [world, noted]
    exact ⟨rfl, rfl, rfl, .inl ⟨room, rfl, rfl, rfl⟩⟩
  next full =>
    obtain rfl : r = false := by simpa [full] using answer
    rw [world, noted]
    exact ⟨rfl, rfl, rfl, .inr ⟨not_lt.mp full, rfl, rfl, rfl⟩⟩

/-- A script that runs in order admits and rejects rightly. -/
theorem Fair.execute {limit : Int} {w w' : World × Record} {d : Desc} {now : Nat} {r : Bool}
    (fair : Fair limit w) (read : now ≤ w.1.clock)
    (inOrder : InOrder w d (d, .execute now 1000 limit) r)
    (world : w'.1 = (perform w.1 (.execute now 1000 limit)).1)
    (answer : r = (perform w.1 (.execute now 1000 limit)).2)
    (noted : w'.2 = notes.run w.1 w.2 d (.execute now 1000 limit) r) : Fair limit w' := by
  obtain ⟨pruned, expired, notAfter⟩ := inOrder
  obtain ⟨clock, nowPruned, nowExpired, outcome⟩ := execute_cases world answer noted
  have still (x : Nat) (member : x ∈ kept now 1000 w.1.window.scores) :
      x ≤ w.1.clock ∧ x + 1000 ≤ w.1.window.expires ∧ now < x + 1000 := by
    obtain ⟨inSet, young⟩ := List.mem_filter.mp member
    exact ⟨(fair.past x inSet).1, (fair.past x inSet).2, of_decide_eq_true young⟩
  have taken : w.2.admitted.Perm (kept now 1000 w.1.window.scores ++
      ((removed now 1000 w.1.window.scores ++ w.2.pruned) ++ w.2.expired.map Prod.fst)) := by
    refine fair.accounted.trans (((split_scores now _).append_right _).trans (List.Perm.of_eq ?_))
    simp only [List.append_assoc]
  rcases outcome with ⟨room, window, admitted, rejected⟩ | ⟨full, window, admitted, rejected⟩
  · refine ⟨?_, ?_, ?_, ?_, ?_⟩
    · rw [admitted, window, nowPruned, nowExpired]
      exact taken.cons now
    · intro x member
      rw [window] at member ⊢
      rw [clock]
      rcases List.mem_cons.mp member with rfl | old
      · exact ⟨read, by simp only; omega⟩
      · have := still x old
        exact ⟨this.1, by simp only; omega⟩
    · intro s
      have before := fair.bounded s
      rw [admitted, inWindow, List.countP_cons, ← inWindow]
      split
      next within =>
        simp only [decide_eq_true_eq] at within
        have most := inWindow_le fair (s := s) within.2 pruned expired
        push_cast
        omega
      next => exact before
    · intro t member
      rw [rejected] at member
      rw [admitted, near, List.countP_cons, ← near]
      have before := fair.rejected t member
      push_cast
      split <;> omega
    · rw [nowExpired]
      exact fair.expired
  · refine ⟨?_, ?_, ?_, ?_, ?_⟩
    · rw [admitted, window, nowPruned, nowExpired]
      exact taken
    · intro x member
      rw [window] at member ⊢
      rw [clock]
      have := still x member
      exact ⟨this.1, this.2.1⟩
    · rw [admitted]
      exact fair.bounded
    · intro t member
      rw [rejected] at member
      rw [admitted]
      rcases List.mem_cons.mp member with rfl | old
      · have close : ∀ x ∈ kept t 1000 w.1.window.scores,
            decide (x < t + 1000 ∧ t < x + 1000) = true := by
          intro x inSet
          have later := notAfter x (List.mem_filter.mp inSet).1
          exact decide_eq_true ⟨later, (still x inSet).2.2⟩
        have all : near t (kept t 1000 w.1.window.scores) = (kept t 1000 w.1.window.scores).length :=
          List.countP_eq_length.mpr close
        have counted : near t w.2.admitted = near t (kept t 1000 w.1.window.scores ++ _) :=
          taken.countP_eq _
        rw [near_append, all] at counted
        omega
      · exact fair.rejected t old
    · rw [nowExpired]
      exact fair.expired

/-- The calls that an expiry drops are out of the window of its time. -/
theorem Fair.pass {limit : Int} {w : World × Record} (fair : Fair limit w) (ms : Nat) :
    Fair limit (⟨w.1.clock + ms, w.1.window.pass (w.1.clock + ms)⟩,
      w.2.passed w.1 (w.1.clock + ms)) := by
  simp only [Window.pass, Record.passed]
  split
  next due =>
    refine ⟨?_, fun x member => (nomatch member), fair.bounded, fair.rejected, ?_⟩
    · apply fair.accounted.trans
      simp only [List.map_append, List.map_map, Function.comp_def, List.map_id', List.nil_append]
      rw [← List.append_assoc, ← List.append_assoc]
      exact List.perm_append_comm.append_right _
    · intro x member
      rcases List.mem_append.mp member with dropped | old
      · obtain ⟨score, inSet, rfl⟩ := List.mem_map.mp dropped
        have := (fair.past score inSet).2
        simp only
        omega
      · exact fair.expired x old
  next =>
    refine ⟨fair.accounted, ?_, fair.bounded, fair.rejected, fair.expired⟩
    intro x member
    have := fair.past x member
    exact ⟨by simp only; omega, this.2⟩

/-- How far a call has come. -/
inductive Point where
  | begun
  | read (now : Nat)
  | finished

def protocol (limit : Int) : Prog.Protocol Effect Effect.Answer Point where
  allows
    | .begun, .currentTimeMillis => True
    | .read now, .execute stamp windowMs bound => stamp = now ∧ windowMs = 1000 ∧ bound = limit
    | _, _ => False
  next
    | .begun, .currentTimeMillis, now, p' => p' = .read now
    | _, _, _, p' => p' = .finished
  final _ := True

theorem body_follows (limit : Int) (d : Desc) : (body limit d).Follows (protocol limit) .begun := by
  have called : (check 1000 limit >>= fun _ => (pure () : Task Unit)).Follows (protocol limit)
      .begun := by
    refine ⟨trivial, fun now p next => ?_⟩
    obtain rfl := next
    exact ⟨⟨rfl, rfl, rfl⟩, fun _ _ _ => trivial⟩
  cases d with
  | user => exact called
  | global => exact called

/-- A time stamp that was read is not ahead of the clock. -/
def Point.Holds (clock : Nat) : Point → Prop
  | .read now => now ≤ clock
  | .begun | .finished => True

theorem Point.Holds.later {p : Point} {clock clock' : Nat} (holds : p.Holds clock)
    (later : clock ≤ clock') : p.Holds clock' := by
  cases p with
  | read now => exact Nat.le_trans holds later
  | begun => trivial
  | finished => trivial

def Underway (limit : Int) (w : World × Record)
    (t : Thread (Desc × Effect) (fun e => e.2.Answer) Desc) : Prop :=
  ∃ p, t.rest.Follows ((protocol limit).tagged t.desc) p ∧ p.Holds w.1.clock

theorem perform_cases {limit : Int} {w w' : World × Record} {e : Desc × Effect} {r : e.2.Answer}
    {forks : List Desc} (performed : (watched limit).perform w () e = some (w', r, forks)) :
    w'.1 = (perform w.1 e.2).1 ∧ r = (perform w.1 e.2).2 ∧ forks = [] ∧
      w'.2 = notes.run w.1 w.2 e.1 e.2 r := by
  obtain ⟨taken, noted⟩ := Threads.watched_performed performed
  simp only [system, Option.some.injEq, Prod.mk.injEq] at taken
  obtain ⟨world, answer, none_forked⟩ := taken
  exact ⟨world.symm, answer.symm, none_forked.symm, noted⟩

theorem perform_clock (w : World) (e : Effect) : (perform w e).1.clock = w.clock := by
  cases e <;> rfl

def outline (limit : Int) : Threads.Outline (watched limit) InOrder where
  inv := Fair limit
  ok := Underway limit
  apart _ _ := True
  own {w _ d e k w' r forks} fair underway inOrder performed := by
    obtain ⟨p, ⟨⟨rfl, allowed⟩, later⟩, holds⟩ := underway
    obtain ⟨world, answer, rfl, noted⟩ := perform_cases performed
    obtain ⟨d, e⟩ := e
    cases p with
    | begun =>
      cases e with
      | currentTimeMillis =>
        obtain rfl : w' = w := Prod.ext world noted
        refine ⟨fair, ⟨.read r, later r _ rfl, ?_⟩, by simp⟩
        exact (congrArg (· ≤ w'.1.clock) answer).mpr le_rfl
      | execute => exact absurd allowed id
    | read now =>
      cases e with
      | currentTimeMillis => exact absurd allowed id
      | execute stamp windowMs bound =>
        obtain ⟨rfl, rfl, rfl⟩ := allowed
        refine ⟨fair.execute holds inOrder world answer noted, ⟨.finished, later r _ rfl, trivial⟩, by simp⟩
    | finished => exact absurd allowed id
  stable {w _ d e k w' r forks t} _ _ _ performed other _ := by
    obtain ⟨world, -, -, -⟩ := perform_cases performed
    obtain ⟨p, follows, holds⟩ := other
    refine ⟨p, follows, ?_⟩
    rw [world, perform_clock]
    exact holds
  fork_apart {w _ d e k w' r forks} _ _ performed := by
    obtain ⟨-, -, rfl, -⟩ := perform_cases performed
    simp
  arrive {w d w'} fair arrived := by
    obtain ⟨taken, noted⟩ := Threads.watched_arrived arrived
    obtain rfl : w' = w := Prod.ext (Option.some.inj taken).symm noted
    have started := Prog.follows_tag d (body_follows limit d)
    exact ⟨fair, ⟨.begun, started, trivial⟩, fun t other => ⟨other, trivial, trivial⟩⟩
  ambient {w ms w'} fair moved := by
    obtain ⟨taken, noted⟩ := Threads.watched_moved moved
    obtain rfl : w' = (⟨w.1.clock + ms, w.1.window.pass (w.1.clock + ms)⟩,
      w.2.passed w.1 (w.1.clock + ms)) := Prod.ext (Option.some.inj taken).symm noted
    refine ⟨fair.pass ms, fun t other => ?_⟩
    obtain ⟨p, follows, holds⟩ := other
    exact ⟨p, follows, holds.later (Nat.le_add_right _ _)⟩

theorem start_fair (limit : Int) (clock : Nat) : Fair limit (start clock).world :=
  ⟨.nil, fun _ member => (nomatch member), fun s => by simp [start, inWindow],
    fun _ member => (nomatch member), fun _ member => (nomatch member)⟩

/-- In a run whose scripts are in order, no 1000 ms hold more admitted calls than the limit,
every rejected call has as many admitted ones within 1000 ms, and an expiry drops only
calls that are out of the window of its time. -/
theorem limiter_exact {limit : Int} {clock : Nat} {events : List (Event Desc Unit Nat)} {c : Run}
    (inOrder : (watched limit).machine.Along ((watched limit).Meets InOrder) (start clock) events)
    (run : (watched limit).machine.exec (start clock) events = some c) :
    (∀ s, (inWindow s c.world.2.admitted : Int) ≤ max limit 0) ∧
      (∀ t ∈ c.world.2.rejected, limit ≤ near t c.world.2.admitted) ∧
      ∀ x ∈ c.world.2.expired, x.1 + 1000 ≤ x.2 := by
  have fair := ((outline limit).run ((outline limit).holds_empty (start_fair limit clock)) inOrder
    run).world
  exact ⟨fair.bounded, fair.rejected, fair.expired⟩

instance (w : World × Record) (d : Desc) : (e : Desc × Effect) → (r : e.2.Answer) →
    Decidable (InOrder w d e r)
  | (_, .execute now _ _), _ =>
    inferInstanceAs (Decidable ((∀ x ∈ w.2.pruned, x + 1000 ≤ now) ∧
      (∀ x ∈ w.2.expired, x.1 + 1000 ≤ now) ∧ ∀ x ∈ w.1.window.scores, x < now + 1000))
  | (_, .currentTimeMillis), _ => isTrue trivial

/-- Two calls at once, and a third when the key has expired. -/
def spaced : List (Event Desc Unit Nat) :=
  [.arrive .user, .arrive .user, .run 0 (), .run 1 (), .run 1 (), .run 0 (), .ambient 1000,
    .arrive .user, .run 2 (), .run 2 ()]

theorem limiter_exact_spaced :
    ∃ c, (watched 1).machine.exec (start 5000) spaced = some c ∧
      c.world.2.admitted = [6000,5000] ∧ c.world.2.rejected = [5000] ∧
      c.world.2.expired = [(5000, 6000)] ∧ inWindow 5000 c.world.2.admitted ≤ 1 ∧
      1 ≤ near 5000 c.world.2.admitted := by
  have ends : ((watched 1).machine.exec (start 5000) spaced).any (fun c =>
      c.world.2.admitted = [6000,5000] ∧ c.world.2.rejected = [5000] ∧
        c.world.2.expired = [(5000, 6000)]) = true := by decide
  obtain ⟨c, run, final⟩ := (Option.any_eq_true _ _).mp ends
  obtain ⟨admitted, rejected, expired⟩ := of_decide_eq_true final
  obtain ⟨most, least, -⟩ := limiter_exact (by decide) run
  have window := most 5000
  have close := least 5000 (by simp [rejected])
  exact ⟨c, run, admitted, rejected, expired, by omega, by omega⟩

/-- A call reads the clock, and another one of the next millisecond runs its script first. -/
def delayed : List (Event Desc Unit Nat) :=
  [.arrive .user, .arrive .user, .run 0 (), .run 1 (), .ambient 500, .run 0 (), .run 1 (),
    .ambient 499, .arrive .user, .run 2 (), .ambient 1, .arrive .user, .run 3 (), .run 3 (),
    .run 2 ()]

theorem delayed_call_over_limit :
    ∃ c, (watched 2).machine.exec (start 5000) delayed = some c ∧
      c.world.2.admitted = [5999,6000,5000,5000] ∧ inWindow 5000 c.world.2.admitted = 3 := by
  have ends : ((watched 2).machine.exec (start 5000) delayed).any (fun c =>
      c.world.2.admitted = [5999,6000,5000,5000]) = true := by decide
  obtain ⟨c, run, final⟩ := (Option.any_eq_true _ _).mp ends
  have admitted := of_decide_eq_true final
  exact ⟨c, run, admitted, by rw [admitted]; decide⟩

end RateLimiter
end Nl2SqlAgent

import Mathlib.Algebra.Order.Group.Nat
import Nl2SqlAgent.Lib.Machine

/-! `RateLimitMiddleware` of the API, for the requests of one client address: `INCR` of its
counter, `EXPIRE` by the request that is counted first, and the decision. A request may stop
for good after either command. Redis is there; times are in milliseconds. -/
namespace Nl2SqlAgent

open Lib

namespace ApiRateLimit

def rateLimitWindow : Nat := 60 * 1000

def rateLimitMax : Nat := 100

/-- The key of the address, and when it expires. -/
structure Counter where
  count : Nat
  positive : 0 < count
  expires : Option Nat
  deriving DecidableEq, Repr

/-- `INCR`, which keeps the expiry of the key. -/
def incr : Option Counter → Counter
  | none => ⟨1, Nat.one_pos, none⟩
  | some c => ⟨c.count + 1, Nat.succ_pos _, c.expires⟩

/-- `EXPIRE`, on a key that is there. -/
def expire (clock : Nat) (counter : Option Counter) : Option Counter :=
  counter.map fun c => { c with expires := some (clock + rateLimitWindow) }

/-- The key when the clock has come to `clock`. -/
def pass (clock : Nat) (counter : Option Counter) : Option Counter :=
  counter.filter fun c => c.expires.all fun e => clock < e

/-- `starting`: a request has been counted first and is to send `EXPIRE`. The times of the
admissions, before the counter began and since, and of the rejections are not kept. -/
structure World where
  clock : Nat
  counter : Option Counter := none
  starting : Bool := false
  before : List Nat := []
  here : List Nat := []
  rejected : List Nat := []
  deriving DecidableEq, Repr

def World.admitted (w : World) : List Nat := w.here ++ w.before

/-- What comes after the last command: 429 or `call_next`, if the request goes on. -/
def World.decided (w : World) (current : Nat) (goesOn : Bool) : World :=
  if goesOn then
    if current > rateLimitMax then { w with rejected := w.clock :: w.rejected }
    else { w with here := w.clock :: w.here }
  else w

inductive Event where
  | incr (goesOn : Bool)
  | expire (goesOn : Bool)
  | pass (ms : Nat)
  deriving DecidableEq, Repr

/-- `dispatch`, one command after the other, and the time that passes. -/
def step (w : World) : Event → Option World
  | .incr goesOn =>
    let counter := incr w.counter
    if counter.count = 1 then
      some { w with
        counter := some counter, starting := goesOn, before := w.here ++ w.before, here := [] }
    else some ({ w with counter := some counter }.decided counter.count goesOn)
  | .expire goesOn =>
    if w.starting then
      some ({ w with counter := expire w.clock w.counter, starting := false }.decided 1 goesOn)
    else none
  | .pass ms => some { w with clock := w.clock + ms, counter := pass (w.clock + ms) w.counter }

def machine : Machine World Event := ⟨step⟩

def start (clock : Nat) : World := { clock }

/-- How many of the requests were admitted in the window from `s` on. -/
def inWindow (s : Nat) (admitted : List Nat) : Nat :=
  admitted.countP fun x => s ≤ x ∧ x < s + rateLimitWindow

/-- How many were admitted less than a window before `t`. -/
def recent (t : Nat) (admitted : List Nat) : Nat := admitted.countP fun x => t < x + rateLimitWindow

/-- No window holds more admissions than the limit, and who was rejected came less than a
window after an admission. -/
structure Fair (w : World) : Prop where
  bounded : ∀ s, inWindow s w.admitted ≤ rateLimitMax
  waited : ∀ t ∈ w.rejected, ∃ x ∈ w.admitted, x ≤ t ∧ t < x + rateLimitWindow

def World.admits (w : World) : Event → Bool
  | .incr goesOn => goesOn && w.counter.any fun c => c.count < rateLimitMax
  | .expire goesOn => goesOn && w.starting
  | .pass _ => false

def World.rejects (w : World) : Event → Bool
  | .incr goesOn => goesOn && w.counter.any fun c => rateLimitMax ≤ c.count
  | _ => false

/-- A request that its counter admits as the `k`-th leaves, with the recent admissions from
before the counter, the limit kept. -/
def Spaced (w : World) (event : Event) (_ : World) : Prop :=
  w.admits event = true → recent w.clock w.before + (w.here.length + 1) ≤ rateLimitMax

/-- Who is rejected finds an expiry, and a request that was admitted since it was set. -/
def Opened (w : World) (event : Event) (_ : World) : Prop :=
  w.rejects event = true →
    ∃ c ∈ w.counter, ∃ e ∈ c.expires, ∃ x ∈ w.here, e ≤ x + rateLimitWindow

instance (w w' : World) (event : Event) : Decidable (Spaced w event w') := by
  unfold Spaced
  infer_instance

instance (w w' : World) (event : Event) : Decidable (Opened w event w') := by
  unfold Opened
  infer_instance

/-- Everything a step can be. -/
inductive Steps (w : World) : Event → World → Prop
  | begins (goesOn : Bool) (absent : w.counter = none) :
    Steps w (.incr goesOn)
      { w with counter := some ⟨1, Nat.one_pos, none⟩, starting := goesOn,
               before := w.here ++ w.before, here := [] }
  | admitted (c : Counter) (counted : w.counter = some c) (below : c.count < rateLimitMax) :
    Steps w (.incr true)
      { w with counter := some (incr (some c)), here := w.clock :: w.here }
  | rejected (c : Counter) (counted : w.counter = some c) (full : rateLimitMax ≤ c.count) :
    Steps w (.incr true)
      { w with counter := some (incr (some c)), rejected := w.clock :: w.rejected }
  | stopped (c : Counter) (counted : w.counter = some c) :
    Steps w (.incr false) { w with counter := some (incr (some c)) }
  | opened (starting : w.starting = true) :
    Steps w (.expire true)
      { w with counter := expire w.clock w.counter, starting := false, here := w.clock :: w.here }
  | left (starting : w.starting = true) :
    Steps w (.expire false) { w with counter := expire w.clock w.counter, starting := false }
  | passed (ms : Nat) :
    Steps w (.pass ms) { w with clock := w.clock + ms, counter := pass (w.clock + ms) w.counter }

@[simp] theorem decided_counter (w : World) (current : Nat) (goesOn : Bool) :
    (w.decided current goesOn).counter = w.counter := by
  simp only [World.decided]
  split
  · split <;> rfl
  · rfl

@[simp] theorem decided_clock (w : World) (current : Nat) (goesOn : Bool) :
    (w.decided current goesOn).clock = w.clock := by
  simp only [World.decided]
  split
  · split <;> rfl
  · rfl

theorem decided_above {w : World} {current : Nat} (above : current > rateLimitMax) :
    w.decided current true = { w with rejected := w.clock :: w.rejected } := if_pos above

theorem decided_within {w : World} {current : Nat} (within : current ≤ rateLimitMax) :
    w.decided current true = { w with here := w.clock :: w.here } := if_neg (Nat.not_lt_of_le within)

theorem step_counted {w : World} {c : Counter} (counted : w.counter = some c) (goesOn : Bool) :
    machine.step w (.incr goesOn) = some
      ({ w with counter := some (incr (some c)) }.decided (incr (some c)).count goesOn) := by
  have later : ¬ (incr (some c)).count = 1 := by
    have positive := c.positive
    simp only [incr]
    omega
  simp only [machine, step, counted, if_neg later]

theorem step_steps {w w' : World} {event : Event} (stepped : machine.step w event = some w') :
    Steps w event w' := by
  cases event with
  | incr goesOn =>
    cases counted : w.counter with
    | none =>
      simp only [machine, step, counted, incr, if_pos] at stepped
      obtain rfl := Option.some.inj stepped
      exact .begins goesOn counted
    | some c =>
      rw [step_counted counted goesOn] at stepped
      obtain rfl := Option.some.inj stepped
      cases goesOn with
      | false => exact .stopped c counted
      | true =>
        by_cases full : rateLimitMax ≤ c.count
        · have above : (incr (some c)).count > rateLimitMax := Nat.lt_succ_of_le full
          rw [decided_above above]
          exact .rejected c counted full
        · have within : (incr (some c)).count ≤ rateLimitMax := Nat.lt_of_not_le full
          rw [decided_within within]
          exact .admitted c counted within
  | expire goesOn =>
    obtain ⟨starting, same⟩ := Option.ite_none_right_eq_some.mp stepped
    obtain rfl := Option.some.inj same
    cases goesOn with
    | true => exact .opened starting
    | false => exact .left starting
  | pass ms =>
    obtain rfl := Option.some.inj stepped
    exact .passed ms

/-- A counter that counts at least the requests admitted since it began. -/
structure Tracked (clock : Nat) (starting : Bool) (here : Nat) (c : Counter) : Prop where
  alive : ∀ e ∈ c.expires, clock < e
  counted : here + starting.toNat ≤ c.count
  few : here + starting.toNat ≤ rateLimitMax
  lasting : starting = true → c.expires = none

/-- A counter begins after the admissions under the last one, and stays until the request
that began it has sent `EXPIRE`. -/
structure Keeps (w : World) : Prop where
  past : ∀ x ∈ w.admitted, x ≤ w.clock
  ordered : ∀ x ∈ w.before, ∀ y ∈ w.here, x ≤ y
  tracked : ∀ c ∈ w.counter, Tracked w.clock w.starting w.here.length c
  started : w.starting = true → w.counter.isSome

theorem start_keeps (clock : Nat) : Keeps (start clock) := by
  constructor <;> simp [start, World.admitted]

section

variable {w w' : World} {event : Event} {clock here : Nat} {starting : Bool} {c : Counter}

theorem Tracked.incr (tracked : Tracked clock starting here c) :
    Tracked clock starting here (incr (some c)) :=
  { tracked with counted := Nat.le_succ_of_le tracked.counted }

theorem Tracked.admits (tracked : Tracked clock starting here c) (below : c.count < rateLimitMax) :
    Tracked clock starting (here + 1) (ApiRateLimit.incr (some c)) := by
  have counted := tracked.counted
  refine ⟨tracked.alive, ?_, ?_, tracked.lasting⟩
  · simp only [ApiRateLimit.incr]
    omega
  · omega

/-- `EXPIRE`, and the admission that may follow. -/
theorem Tracked.expire (tracked : Tracked clock true here c) {more : Nat} (single : more ≤ 1) :
    Tracked clock false (here + more) { c with expires := some (clock + rateLimitWindow) } := by
  have counted := tracked.counted
  have few := tracked.few
  simp only [Bool.toNat_true] at counted few
  refine ⟨?_, ?_, ?_, nofun⟩
  · rintro _ ⟨⟩
    exact Nat.lt_add_of_pos_right (by decide)
  · simp only [Bool.toNat_false]
    omega
  · simp only [Bool.toNat_false]
    omega

theorem Keeps.admitted (keeps : Keeps w) : ∀ x ∈ w.clock :: w.admitted, x ≤ w.clock :=
  List.forall_mem_cons.mpr ⟨Nat.le_refl _, keeps.past⟩

theorem Keeps.after (keeps : Keeps w) : ∀ x ∈ w.before, ∀ y ∈ w.clock :: w.here, x ≤ y :=
  fun x old => List.forall_mem_cons.mpr
    ⟨keeps.past x (List.mem_append_right _ old), keeps.ordered x old⟩

/-- While the first request is to send `EXPIRE`, the counter is there. -/
theorem Keeps.counter (keeps : Keeps w) (starting : w.starting = true) :
    ∃ c, w.counter = some c ∧ Tracked w.clock true w.here.length c := by
  obtain ⟨c, counted⟩ := Option.isSome_iff_exists.mp (keeps.started starting)
  have tracked := keeps.tracked c counted
  rw [starting] at tracked
  exact ⟨c, counted, tracked⟩

theorem step_keeps (keeps : Keeps w) (stepped : Steps w event w') : Keeps w' := by
  cases stepped with
  | begins goesOn absent =>
    refine ⟨keeps.past, by simp, ?_, fun _ => rfl⟩
    rintro _ ⟨⟩
    refine ⟨nofun, ?_, ?_, fun _ => rfl⟩ <;> cases goesOn <;> simp [rateLimitMax]
  | admitted c counted below =>
    refine ⟨keeps.admitted, keeps.after, ?_, fun _ => rfl⟩
    rintro _ ⟨⟩
    exact (keeps.tracked c counted).admits below
  | rejected c counted full =>
    refine ⟨keeps.past, keeps.ordered, ?_, fun _ => rfl⟩
    rintro _ ⟨⟩
    exact (keeps.tracked c counted).incr
  | stopped c counted =>
    refine ⟨keeps.past, keeps.ordered, ?_, fun _ => rfl⟩
    rintro _ ⟨⟩
    exact (keeps.tracked c counted).incr
  | opened starting =>
    obtain ⟨c, counted, tracked⟩ := keeps.counter starting
    refine ⟨keeps.admitted, keeps.after, ?_, nofun⟩
    simp only [expire, counted]
    rintro _ ⟨⟩
    exact tracked.expire (Nat.le_refl 1)
  | left starting =>
    obtain ⟨c, counted, tracked⟩ := keeps.counter starting
    refine ⟨keeps.past, keeps.ordered, ?_, nofun⟩
    simp only [expire, counted]
    rintro _ ⟨⟩
    exact tracked.expire (Nat.zero_le 1)
  | passed ms =>
    have later : w.clock ≤ w.clock + ms := Nat.le_add_right _ _
    refine ⟨fun x member => (keeps.past x member).trans later, keeps.ordered, ?_, ?_⟩
    · intro c kept
      obtain ⟨counted, alive⟩ := Option.filter_eq_some_iff.mp kept
      refine { keeps.tracked c counted with alive := fun e set => ?_ }
      rw [Option.mem_def.mp set] at alive
      exact of_decide_eq_true alive
    · intro starting
      obtain ⟨c, counted, tracked⟩ := keeps.counter starting
      simp [pass, counted, tracked.lasting rfl]

theorem inWindow_append (s : Nat) (admitted more : List Nat) :
    inWindow s (admitted ++ more) = inWindow s admitted + inWindow s more := List.countP_append

theorem recent_append (t : Nat) (admitted more : List Nat) :
    recent t (admitted ++ more) = recent t admitted + recent t more := List.countP_append

theorem inWindow_newest {t : Nat} {admitted : List Nat} (past : ∀ x ∈ admitted, x ≤ t) :
    inWindow (t + 1 - rateLimitWindow) admitted = recent t admitted := by
  apply List.countP_congr
  intro x member
  have before := past x member
  have length : 0 < rateLimitWindow := by decide
  simp only [decide_eq_true_eq]
  omega

theorem inWindow_le_recent {s t : Nat} (admitted : List Nat) (within : t < s + rateLimitWindow) :
    inWindow s admitted ≤ recent t admitted := by
  apply List.countP_mono_left
  intro x _ held
  have inside := of_decide_eq_true held
  apply decide_eq_true
  omega

/-- A new admission keeps the bound if it keeps it in the window that ends with it. -/
theorem bounded_cons_iff {t : Nat} {admitted : List Nat} (past : ∀ x ∈ admitted, x ≤ t)
    (bounded : ∀ s, inWindow s admitted ≤ rateLimitMax) :
    (∀ s, inWindow s (t :: admitted) ≤ rateLimitMax) ↔ recent t admitted + 1 ≤ rateLimitMax := by
  have itself : recent t (t :: admitted) = recent t admitted + 1 :=
    List.countP_cons_of_pos (by simp [rateLimitWindow])
  constructor
  · intro all
    have newest := all (t + 1 - rateLimitWindow)
    rw [inWindow_newest (List.forall_mem_cons.mpr ⟨Nat.le_refl t, past⟩), itself] at newest
    exact newest
  · intro room s
    by_cases inside : s ≤ t ∧ t < s + rateLimitWindow
    · have less := inWindow_le_recent (t :: admitted) inside.2
      omega
    · have same : inWindow s (t :: admitted) = inWindow s admitted :=
        List.countP_cons_of_neg (by simpa using inside)
      rw [same]
      exact bounded s

theorem recent_le (t : Nat) (admitted : List Nat) : recent t admitted ≤ admitted.length :=
  List.countP_le_length

/-- Once an admission under the counter is a window old, none from before it is recent. -/
theorem Keeps.forgotten (keeps : Keeps w) {y : Nat} (member : y ∈ w.here)
    (old : y + rateLimitWindow ≤ w.clock) : recent w.clock w.before = 0 := by
  apply List.countP_eq_zero.mpr
  intro x earlier
  have order := keeps.ordered x earlier y member
  simp only [decide_eq_true_eq]
  omega

/-- The window that ends with an admission keeps to the limit if and only if the counter
leaves room for what it does not count. -/
theorem Keeps.room_iff (keeps : Keeps w) (few : w.here.length + 1 ≤ rateLimitMax) :
    recent w.clock w.admitted + 1 ≤ rateLimitMax ↔
      recent w.clock w.before + (w.here.length + 1) ≤ rateLimitMax := by
  have split : recent w.clock w.admitted = recent w.clock w.here + recent w.clock w.before :=
    recent_append _ _ _
  by_cases old : ∃ y ∈ w.here, y + rateLimitWindow ≤ w.clock
  · obtain ⟨y, member, old⟩ := old
    have none := keeps.forgotten member old
    have here := recent_le w.clock w.here
    omega
  · have all : recent w.clock w.here = w.here.length := by
      refine List.countP_eq_length.mpr fun y member => decide_eq_true ?_
      by_contra late
      exact old ⟨y, member, Nat.le_of_not_lt late⟩
    omega

theorem Keeps.admits_few (keeps : Keeps w) (admits : w.admits event = true) :
    w.here.length + 1 ≤ rateLimitMax := by
  cases event with
  | incr goesOn =>
    obtain ⟨-, some⟩ := Bool.and_eq_true_iff.mp admits
    obtain ⟨c, counted, below⟩ := (Option.any_eq_true _ _).mp some
    have here := (keeps.tracked c counted).counted
    have room := of_decide_eq_true below
    omega
  | expire goesOn =>
    obtain ⟨-, starting⟩ := Bool.and_eq_true_iff.mp admits
    obtain ⟨c, -, tracked⟩ := keeps.counter starting
    exact tracked.few
  | pass ms => contradiction

theorem waited_more {rejected admitted more : List Nat}
    (waited : ∀ t ∈ rejected, ∃ x ∈ admitted, x ≤ t ∧ t < x + rateLimitWindow)
    (grows : admitted ⊆ more) : ∀ t ∈ rejected, ∃ x ∈ more, x ≤ t ∧ t < x + rateLimitWindow := by
  intro t member
  obtain ⟨x, earlier, within⟩ := waited t member
  exact ⟨x, grows earlier, within⟩

/-- What a step adds to the admissions and the rejections. -/
theorem step_logs (stepped : Steps w event w') :
    w'.admitted = (if w.admits event = true then w.clock :: w.admitted else w.admitted) ∧
      w'.rejected = if w.rejects event = true then w.clock :: w.rejected else w.rejected := by
  cases stepped with
  | begins goesOn absent => simp [World.admits, World.rejects, World.admitted, absent]
  | admitted c counted below =>
    have within : ¬ rateLimitMax ≤ c.count := Nat.not_le_of_lt below
    simp [World.admits, World.rejects, World.admitted, counted, below, within]
  | rejected c counted full =>
    have beyond : ¬ c.count < rateLimitMax := Nat.not_lt_of_le full
    simp [World.admits, World.rejects, World.admitted, counted, full, beyond]
  | stopped c counted => simp [World.admits, World.rejects, World.admitted]
  | opened starting => simp [World.admits, World.rejects, World.admitted, starting]
  | left starting => simp [World.admits, World.rejects, World.admitted]
  | passed ms => simp [World.admits, World.rejects, World.admitted]

theorem bounded_iff_spaced (keeps : Keeps w) (fair : Fair w) (stepped : Steps w event w') :
    (∀ s, inWindow s w'.admitted ≤ rateLimitMax) ↔ Spaced w event w' := by
  rw [(step_logs stepped).1]
  by_cases admits : w.admits event = true
  · rw [if_pos admits, bounded_cons_iff keeps.past fair.bounded,
      keeps.room_iff (keeps.admits_few admits)]
    exact ⟨fun room _ => room, fun spaced => spaced admits⟩
  · rw [if_neg admits]
    exact iff_of_true fair.bounded fun other => absurd other admits

theorem waited_of_opened (keeps : Keeps w) (fair : Fair w) (stepped : Steps w event w')
    (opened : Opened w event w') :
    ∀ t ∈ w'.rejected, ∃ x ∈ w'.admitted, x ≤ t ∧ t < x + rateLimitWindow := by
  obtain ⟨admitted, rejected⟩ := step_logs stepped
  have grows : w.admitted ⊆ w'.admitted := by
    rw [admitted]
    split
    · exact List.subset_cons_self _ _
    · exact List.Subset.refl _
  have earlier := waited_more fair.waited grows
  rw [rejected]
  by_cases rejects : w.rejects event = true
  · obtain ⟨c, counted, e, set, x, member, since⟩ := opened rejects
    have alive := (keeps.tracked c counted).alive e set
    have listed : x ∈ w.admitted := List.mem_append_left _ member
    rw [if_pos rejects]
    exact List.forall_mem_cons.mpr
      ⟨⟨x, grows listed, keeps.past x listed, alive.trans_le since⟩, earlier⟩
  · rw [if_neg rejects]
    exact earlier

end

theorem start_fair (clock : Nat) : Fair (start clock) := by
  constructor <;> simp [start, World.admitted, inWindow]

/-- Runs in which windows are spaced and rejections come of counters that expire are fair,
and fair runs are spaced so. -/
theorem rate_limit_fair (clock : Nat) (events : List Event) :
    (machine.Along (fun w event w' => Spaced w event w' ∧ Opened w event w') (start clock) events →
      machine.Along (fun _ _ w' => Fair w') (start clock) events) ∧
    (machine.Along (fun _ _ w' => Fair w') (start clock) events →
      machine.Along Spaced (start clock) events) := by
  have initially : Keeps (start clock) ∧ Fair (start clock) := ⟨start_keeps clock, start_fair clock⟩
  have kept (w : World) (event : Event) (w' : World) (fair : Fair w)
      (stepped : machine.step w event = some w') (spaced : Spaced w event w')
      (opened : Opened w event w') (keeps : Keeps w) : Fair w' :=
    ⟨(bounded_iff_spaced keeps fair (step_steps stepped)).mpr spaced,
      waited_of_opened keeps fair (step_steps stepped) opened⟩
  constructor
  · refine Machine.along_of_invariant (fun w => Keeps w ∧ Fair w) ?_ ?_ initially
    · rintro w event w' ⟨keeps, fair⟩ stepped ⟨spaced, opened⟩
      exact ⟨step_keeps keeps (step_steps stepped), kept w event w' fair stepped spaced opened keeps⟩
    · rintro w event w' ⟨keeps, fair⟩ stepped ⟨spaced, opened⟩
      exact kept w event w' fair stepped spaced opened keeps
  · refine Machine.along_of_invariant (fun w => Keeps w ∧ Fair w) ?_ ?_ initially
    · rintro w event w' ⟨keeps, -⟩ stepped fair
      exact ⟨step_keeps keeps (step_steps stepped), fair⟩
    · rintro w event w' ⟨keeps, fair⟩ stepped fair'
      exact (bounded_iff_spaced keeps fair (step_steps stepped)).mp fair'.bounded

/-- A full window, the request it turns away, and the first of the next window. -/
def fullWindow : List Event :=
  [.incr true, .expire true] ++ List.replicate 99 (.incr true) ++
    [.pass 30000, .incr true, .pass 30000, .incr true, .expire true]

example : machine.Along (fun w event w' => Spaced w event w' ∧ Opened w event w') (start 0)
    fullWindow := by decide +kernel

example : (machine.exec (start 0) fullWindow).map (·.rejected) = some [30000] := by decide +kernel

/-- A counter without expiry that has come to the limit. -/
structure Locked (admitted : List Nat) (w : World) : Prop where
  counter : ∃ c ∈ w.counter, c.expires = none ∧ rateLimitMax ≤ c.count
  admitted : w.admitted = admitted

theorem step_locked {admitted : List Nat} {w w' : World} {event : Event}
    (locked : Locked admitted w) (stepped : Steps w event w')
    (other : ∀ goesOn, event ≠ .expire goesOn) : Locked admitted w' := by
  obtain ⟨⟨c, counted, lasting, full⟩, same⟩ := locked
  cases stepped with
  | begins goesOn absent =>
    rw [absent] at counted
    contradiction
  | admitted c' counted' below =>
    obtain rfl := Option.some.inj (counted'.symm.trans counted)
    exact absurd below (Nat.not_lt_of_le full)
  | rejected c' counted' _ =>
    obtain rfl := Option.some.inj (counted'.symm.trans counted)
    exact ⟨⟨_, rfl, lasting, Nat.le_succ_of_le full⟩, same⟩
  | stopped c' counted' =>
    obtain rfl := Option.some.inj (counted'.symm.trans counted)
    exact ⟨⟨_, rfl, lasting, Nat.le_succ_of_le full⟩, same⟩
  | opened starting => exact absurd rfl (other true)
  | left starting => exact absurd rfl (other false)
  | passed ms =>
    refine ⟨⟨c, ?_, lasting, full⟩, same⟩
    simp [pass, Option.mem_def.mp counted, lasting]

/-- From such a counter on nobody is admitted, however long it takes, unless the request
that began it still sends its `EXPIRE`. -/
theorem locked_out {w w' : World} {events : List Event} (locked : Locked w.admitted w)
    (abandoned : ∀ event ∈ events, ∀ goesOn, event ≠ .expire goesOn)
    (run : machine.exec w events = some w') : w'.admitted = w.admitted :=
  (Machine.invariant_along (Locked w.admitted)
    (fun _ _ _ locked stepped other => step_locked locked (step_steps stepped) other) locked
    (Machine.along_of_events abandoned) run).admitted

theorem incr_lasting {w : World} {c : Counter} (keeps : Keeps w) (counted : w.counter = some c)
    (lasting : c.expires = none) (n : Nat) :
    ∃ w', machine.exec w (List.replicate n (.incr true)) = some w' ∧ Keeps w' ∧ w'.clock = w.clock ∧
      ∃ c', w'.counter = some c' ∧ c'.expires = none ∧ n + c.count ≤ c'.count := by
  induction n generalizing w c with
  | zero => exact ⟨w, rfl, keeps, rfl, c, counted, lasting, (Nat.zero_add _).le⟩
  | succ n ih =>
    have stepped := step_counted counted true
    obtain ⟨w', run, keeps', clock, c', final, lasting', enough⟩ :=
      ih (step_keeps keeps (step_steps stepped)) (decided_counter _ _ _) lasting
    refine ⟨w', Machine.exec_cons_some.mpr ⟨_, stepped, run⟩, keeps', ?_, c', final, lasting', ?_⟩
    · rw [clock, decided_clock]
    · simp only [incr] at enough
      omega

/-- Wherever a request stops between the two commands, the run goes on to a rejection that
is not fair. -/
theorem abandoned_unfair {w : World} {c : Counter} (keeps : Keeps w) (counted : w.counter = some c)
    (lasting : c.expires = none) :
    ∃ w', machine.exec w
      (List.replicate rateLimitMax (.incr true) ++ [.pass rateLimitWindow, .incr true]) = some w' ∧
      ¬ Fair w' := by
  obtain ⟨full, run, keeps', -, c', counted', lasting', enough⟩ :=
    incr_lasting keeps counted lasting rateLimitMax
  have stays : pass (full.clock + rateLimitWindow) full.counter = some c' := by
    simp [pass, counted', lasting']
  have above : (incr (some c')).count > rateLimitMax := by
    simp only [incr]
    omega
  have passed : machine.step full (.pass rateLimitWindow) =
      some { full with clock := full.clock + rateLimitWindow, counter := some c' } := by
    rw [← stays]
    rfl
  refine ⟨_, (Machine.exec_append_some _ _).mpr ⟨full, run, Machine.exec_cons_some.mpr ⟨_, passed,
    Machine.exec_cons_some.mpr ⟨_, step_counted rfl true, rfl⟩⟩⟩, fun fair => ?_⟩
  rw [decided_above above] at fair
  obtain ⟨x, member, -, within⟩ := fair.waited _ List.mem_cons_self
  have past := keeps'.past x member
  simp only at within
  omega

/-- A window of 100, the last 99 at its end, and two requests of the next. -/
def burst : List Event :=
  [.incr true, .expire true, .pass 59999] ++ List.replicate 99 (.incr true) ++
    [.pass 1, .incr true, .expire true, .incr true]

/-- The request that is counted first stops before `EXPIRE`; the last one comes a day later. -/
def lockout : List Event :=
  .incr false :: List.replicate 100 (.incr true) ++ [.pass (24 * 3600 * 1000), .incr true]

theorem limit_unfair :
    (∃ w, machine.exec (start 0) burst = some w ∧ inWindow 59999 w.admitted = 101 ∧ ¬ Fair w) ∧
    ∃ w, machine.exec (start 0) lockout = some w ∧ 24 * 3600 * 1000 ∈ w.rejected ∧
      (∀ x ∈ w.admitted, x = 0) ∧ ¬ Fair w := by
  constructor
  · have ends : (machine.exec (start 0) burst).any (fun w =>
        decide (inWindow 59999 w.admitted = 101)) = true := by decide +kernel
    obtain ⟨w, run, final⟩ := (Option.any_eq_true _ _).mp ends
    have many := of_decide_eq_true final
    refine ⟨w, run, many, fun fair => ?_⟩
    have bounded := fair.bounded 59999
    rw [many] at bounded
    exact absurd bounded (by decide)
  · have ends : (machine.exec (start 0) lockout).any (fun w =>
        decide (24 * 3600 * 1000 ∈ w.rejected ∧ ∀ x ∈ w.admitted, x = 0)) = true := by
      decide +kernel
    obtain ⟨w, run, final⟩ := (Option.any_eq_true _ _).mp ends
    obtain ⟨rejected, early⟩ := of_decide_eq_true final
    refine ⟨w, run, rejected, early, fun fair => ?_⟩
    obtain ⟨x, member, -, within⟩ := fair.waited _ rejected
    rw [early x member] at within
    exact absurd within (by decide)

end ApiRateLimit
end Nl2SqlAgent

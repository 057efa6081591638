import Nl2SqlAgent.Lib.Machine
import Nl2SqlAgent.Lib.PyDict
import Mathlib.Data.List.Nodup

/-! The consumer loop of `worker/main.py` against the offsets of the broker. A record
is known by its partition and offset; `handle_task` and `handle_feedback` are an
outcome of the event that takes the record. Of the client, `poll` moves the position
past what it returns and an argument-less `commit` stores the positions. -/
namespace Nl2SqlAgent

open Lib

namespace WorkerConsumer

inductive Topic where
  | request
  | feedback
  deriving DecidableEq, Repr

structure TopicPartition where
  topic : Topic
  partition : Nat
  deriving DecidableEq, Repr

structure Record where
  place : TopicPartition
  offset : Nat
  deriving DecidableEq, Repr

/-- `raised` lists the records whose handler raised since the consumer was started,
`returned` all records whose handler ever returned; the code keeps neither. -/
structure State where
  published : TopicPartition → Nat
  position : TopicPartition → Nat
  committed : TopicPartition → Nat
  batch : List Record
  raised : List Record
  returned : List Record
  running : Bool
  alive : Bool

/-- How taking one record ends; a `commit` that raises is caught like a handler. -/
inductive Outcome where
  | committed
  | commitRaised
  | handlerRaised
  deriving DecidableEq, Repr

inductive Event where
  | publish (place : TopicPartition)
  | poll (counts : List (TopicPartition × Nat))
  | take (outcome : Outcome)
  | signal
  | close
  | crash
  | restart
  deriving DecidableEq, Repr

def maxRecords : Nat := 10

/-- What one poll may return: at most ten records, each partition's from its position on. -/
structure Available (s : State) (counts : List (TopicPartition × Nat)) : Prop where
  distinct : (counts.map Prod.fst).Nodup
  few : (counts.map Prod.snd).sum ≤ maxRecords
  published : ∀ count ∈ counts, s.position count.1 + count.2 ≤ s.published count.1

instance : Decidable (Available s counts) :=
  decidable_of_iff ((counts.map Prod.fst).Nodup ∧ (counts.map Prod.snd).sum ≤ maxRecords ∧
    ∀ count ∈ counts, s.position count.1 + count.2 ≤ s.published count.1)
    ⟨fun ⟨a, b, c⟩ => ⟨a, b, c⟩, fun ⟨a, b, c⟩ => ⟨a, b, c⟩⟩

def fetched (s : State) (counts : List (TopicPartition × Nat)) : List Record :=
  counts.flatMap fun (place, count) =>
    (List.range count).map fun i => ⟨place, s.position place + i⟩

def advanced (s : State) (counts : List (TopicPartition × Nat)) (place : TopicPartition) : Nat :=
  s.position place + (counts.lookup place).getD 0

def start : State := ⟨fun _ => 0, fun _ => 0, fun _ => 0, [], [], [], true, true⟩

/-- The loop polls when the last batch is used up, and leaves a batch when it is told
to stop; what it leaves is fetched again after a restart, from the committed offsets. -/
def step (s : State) : Event → Option State
  | .publish place => some { s with published := Function.update s.published place (s.published place + 1) }
  | .poll counts =>
    if s.alive ∧ s.running ∧ s.batch = [] ∧ Available s counts then
      some { s with position := advanced s counts, batch := fetched s counts }
    else none
  | .take outcome =>
    if s.alive ∧ s.running then
      match s.batch with
      | [] => none
      | record :: rest =>
        match outcome with
        | .committed =>
          some { s with batch := rest, returned := record :: s.returned, committed := s.position }
        | .commitRaised => some { s with batch := rest, returned := record :: s.returned }
        | .handlerRaised => some { s with batch := rest, raised := record :: s.raised }
    else none
  | .signal => some { s with running := false }
  | .close => if s.alive ∧ s.running = false then some { s with alive := false } else none
  | .crash => if s.alive then some { s with alive := false } else none
  | .restart =>
    if s.alive then none
    else some { s with
      position := s.committed, batch := [], raised := [], running := true, alive := true }

def machine : Machine State Event := ⟨step⟩

/-- The committed offsets pass only records whose handler returned normally. -/
def AtLeastOnce (s : State) : Prop :=
  ∀ r : Record, r.offset < s.committed r.place → r ∈ s.returned

/-- Whenever a record's commit goes through, every other record that the consumer has
fetched is done: none is left in the batch and none of them raised, or it returned
already before a restart. -/
def CommitsLast (s : State) : Event → State → Prop
  | .take .committed, t => ∀ r ∈ s.batch ++ s.raised, r ∈ t.returned
  | _, _ => True

/-- Where the fetched records are. -/
structure Tracked (s : State) : Prop where
  below : ∀ r ∈ s.batch ++ s.raised, r.offset < s.position r.place
  fetched : ∀ r : Record, r.offset < s.position r.place →
    r.offset < s.committed r.place ∨ r ∈ s.returned ∨ r ∈ s.batch ++ s.raised

theorem mem_fetched {s : State} {counts : List (TopicPartition × Nat)} {r : Record} :
    r ∈ fetched s counts ↔ ∃ count, (r.place, count) ∈ counts ∧ s.position r.place ≤ r.offset ∧
      r.offset < s.position r.place + count := by
  simp only [fetched, List.mem_flatMap, List.mem_map, List.mem_range, Prod.exists]
  constructor
  · rintro ⟨place, count, member, i, bound, rfl⟩
    exact ⟨count, member, by simp, by simpa using bound⟩
  · rintro ⟨count, member, low, high⟩
    refine ⟨r.place, count, member, r.offset - s.position r.place, by omega, ?_⟩
    have offset : s.position r.place + (r.offset - s.position r.place) = r.offset := by omega
    rw [offset]

/-- A poll fetches exactly the records between the old and the new positions. -/
theorem below_advanced {s : State} {counts : List (TopicPartition × Nat)}
    (available : Available s counts) (r : Record) :
    r.offset < advanced s counts r.place ↔
      r.offset < s.position r.place ∨ r ∈ fetched s counts := by
  rw [mem_fetched]
  unfold advanced
  constructor
  · intro below
    by_cases old : r.offset < s.position r.place
    · exact .inl old
    · right
      cases found : counts.lookup r.place with
      | none =>
        simp only [found, Option.getD_none] at below
        omega
      | some count =>
        simp only [found, Option.getD_some] at below
        obtain ⟨before, after, rfl, -⟩ := List.lookup_eq_some_iff.mp found
        exact ⟨count, by simp, by omega, below⟩
  · rintro (old | ⟨count, member, low, high⟩)
    · omega
    · have found : counts.lookup r.place = some count := PyDict.lookup_of_mem available.distinct member
      rw [found]
      exact high

theorem start_tracked : Tracked start := ⟨by simp [start], by simp [start]⟩

theorem start_atLeastOnce : AtLeastOnce start := by simp [AtLeastOnce, start]

theorem tracked_step {s t : State} {event : Event} (tracked : Tracked s)
    (stepped : machine.step s event = some t) : Tracked t := by
  change step s event = some t at stepped
  cases event with
  | publish place =>
    obtain rfl := Option.some.inj stepped
    exact ⟨tracked.below, tracked.fetched⟩
  | poll counts =>
    obtain ⟨⟨-, -, empty, available⟩, taken⟩ := Option.ite_none_right_eq_some.mp stepped
    obtain rfl := Option.some.inj taken
    constructor
    · intro r member
      rw [below_advanced available]
      rcases List.mem_append.mp member with new | old
      · exact .inr new
      · exact .inl (tracked.below r (List.mem_append_right _ old))
    · intro r below
      rcases (below_advanced available r).mp below with old | new
      · rcases tracked.fetched r old with committed | returned | member
        · exact .inl committed
        · exact .inr (.inl returned)
        · rw [empty, List.nil_append] at member
          exact .inr (.inr (List.mem_append_right _ member))
      · exact .inr (.inr (List.mem_append_left _ new))
  | take outcome =>
    obtain ⟨-, taken⟩ := Option.ite_none_right_eq_some.mp stepped
    cases batch : s.batch with
    | nil => simp [batch] at taken
    | cons record rest =>
      have below := tracked.below
      have fetched := tracked.fetched
      simp only [batch, List.cons_append, List.mem_cons] at below fetched
      simp only [batch] at taken
      cases outcome with
      | committed =>
        obtain rfl := Option.some.inj taken
        exact ⟨fun r member => below r (.inr member), fun r old => .inl old⟩
      | commitRaised =>
        obtain rfl := Option.some.inj taken
        refine ⟨fun r member => below r (.inr member), ?_⟩
        intro r old
        rcases fetched r old with committed | returned | rfl | member
        · exact .inl committed
        · exact .inr (.inl (List.mem_cons_of_mem _ returned))
        · exact .inr (.inl List.mem_cons_self)
        · exact .inr (.inr member)
      | handlerRaised =>
        obtain rfl := Option.some.inj taken
        constructor
        · intro r member
          rcases List.mem_append.mp member with left | raised
          · exact below r (.inr (List.mem_append_left _ left))
          · rcases List.mem_cons.mp raised with rfl | before
            · exact below _ (.inl rfl)
            · exact below r (.inr (List.mem_append_right _ before))
        · intro r old
          rcases fetched r old with committed | returned | rfl | member
          · exact .inl committed
          · exact .inr (.inl returned)
          · exact .inr (.inr (List.mem_append_right _ List.mem_cons_self))
          · rcases List.mem_append.mp member with left | raised
            · exact .inr (.inr (List.mem_append_left _ left))
            · exact .inr (.inr (List.mem_append_right _ (List.mem_cons_of_mem _ raised)))
  | signal =>
    obtain rfl := Option.some.inj stepped
    exact ⟨tracked.below, tracked.fetched⟩
  | close =>
    obtain ⟨-, taken⟩ := Option.ite_none_right_eq_some.mp stepped
    obtain rfl := Option.some.inj taken
    exact ⟨tracked.below, tracked.fetched⟩
  | crash =>
    obtain ⟨-, taken⟩ := Option.ite_none_right_eq_some.mp stepped
    obtain rfl := Option.some.inj taken
    exact ⟨tracked.below, tracked.fetched⟩
  | restart =>
    obtain ⟨-, taken⟩ := Option.ite_none_left_eq_some.mp stepped
    obtain rfl := Option.some.inj taken
    exact ⟨by simp, fun r below => .inl below⟩

/-- Only a commit can break the delivery guarantee, and it does so exactly when another
fetched record is not done. -/
theorem commitsLast_iff {s t : State} {event : Event} (tracked : Tracked s)
    (delivered : AtLeastOnce s) (stepped : machine.step s event = some t) :
    CommitsLast s event t ↔ AtLeastOnce t := by
  change step s event = some t at stepped
  cases event with
  | publish place =>
    obtain rfl := Option.some.inj stepped
    exact ⟨fun _ => delivered, fun _ => trivial⟩
  | poll counts =>
    obtain ⟨-, taken⟩ := Option.ite_none_right_eq_some.mp stepped
    obtain rfl := Option.some.inj taken
    exact ⟨fun _ => delivered, fun _ => trivial⟩
  | take outcome =>
    obtain ⟨-, taken⟩ := Option.ite_none_right_eq_some.mp stepped
    cases batch : s.batch with
    | nil => simp [batch] at taken
    | cons record rest =>
      simp only [batch] at taken
      cases outcome with
      | committed =>
        obtain rfl := Option.some.inj taken
        constructor
        · intro last r below
          rcases tracked.fetched r below with committed | returned | member
          · exact List.mem_cons_of_mem _ (delivered r committed)
          · exact List.mem_cons_of_mem _ returned
          · exact last r member
        · exact fun kept r member => kept r (tracked.below r member)
      | commitRaised =>
        obtain rfl := Option.some.inj taken
        exact ⟨fun _ r below => List.mem_cons_of_mem _ (delivered r below), fun _ => trivial⟩
      | handlerRaised =>
        obtain rfl := Option.some.inj taken
        exact ⟨fun _ => delivered, fun _ => trivial⟩
  | signal =>
    obtain rfl := Option.some.inj stepped
    exact ⟨fun _ => delivered, fun _ => trivial⟩
  | close =>
    obtain ⟨-, taken⟩ := Option.ite_none_right_eq_some.mp stepped
    obtain rfl := Option.some.inj taken
    exact ⟨fun _ => delivered, fun _ => trivial⟩
  | crash =>
    obtain ⟨-, taken⟩ := Option.ite_none_right_eq_some.mp stepped
    obtain rfl := Option.some.inj taken
    exact ⟨fun _ => delivered, fun _ => trivial⟩
  | restart =>
    obtain ⟨-, taken⟩ := Option.ite_none_left_eq_some.mp stepped
    obtain rfl := Option.some.inj taken
    exact ⟨fun _ => delivered, fun _ => trivial⟩

/-- Along every run the guarantee holds in each state reached exactly when each commit
is made for the last of the fetched records. -/
theorem delivery_iff_commits_last (events : List Event) :
    machine.Along (fun _ _ t => AtLeastOnce t) start events ↔
      machine.Along CommitsLast start events := by
  symm
  apply Machine.along_iff_of_invariant fun s => Tracked s ∧ AtLeastOnce s
  · intro s e t keep stepped last
    exact ⟨tracked_step keep.1 stepped, (commitsLast_iff keep.1 keep.2 stepped).mp last⟩
  · exact fun s e t keep stepped => commitsLast_iff keep.1 keep.2 stepped
  · exact ⟨start_tracked, start_atLeastOnce⟩

def requests : TopicPartition := ⟨.request, 0⟩

/-- Two requests come in one poll, the handler of the second raises after the commit
for the first, and the worker is restarted. -/
def lostRun : List Event :=
  [.publish requests, .publish requests, .poll [(requests, 2)], .take .committed,
    .take .handlerRaised, .crash, .restart]

theorem second_record_lost :
    ∃ s, machine.exec start lostRun = some s ∧ ¬ AtLeastOnce s ∧
      ∀ counts, Available s counts → ⟨requests, 1⟩ ∉ fetched s counts := by
  have ends : (machine.exec start lostRun).any (fun s => s.committed requests = 2 ∧
      s.position requests = 2 ∧ (⟨requests, 1⟩ : Record) ∉ s.returned) = true := by decide
  obtain ⟨s, run, final⟩ := (Option.any_eq_true _ _).mp ends
  obtain ⟨committed, position, unhandled⟩ := of_decide_eq_true final
  refine ⟨s, run, ?_, ?_⟩
  · exact fun delivered => unhandled (delivered ⟨requests, 1⟩ (by simp [committed]))
  · intro counts _ member
    obtain ⟨_, _, low, _⟩ := mem_fetched.mp member
    simp [position] at low

end WorkerConsumer
end Nl2SqlAgent

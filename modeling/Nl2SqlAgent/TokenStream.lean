import Nl2SqlAgent.Lib.Interleave

/-! The token callback of `agent/nodes/generator.py` and the runs of one process that
set, read and clear it: streamed runs (the worker's graph threads, which go on after a
time-out, and `/query/full/stream`) and plain ones (`/query/full`), in any order. The
callback of a streamed run is known by the run. What the model yields is part of a run. -/
namespace Nl2SqlAgent

open Lib

namespace TokenStream

/-- One visit of the generator: the contents that the model yields for the first
candidate, and for the further ones on a retry. A call that raises ends its list. -/
structure Call where
  first : List String
  others : List (List String)
  deriving DecidableEq, Repr

inductive Desc where
  | streamed (run : Nat) (calls : List Call)
  | plain (run : Nat) (calls : List Call)
  deriving DecidableEq, Repr

def Desc.run : Desc → Nat
  | .streamed run _ => run
  | .plain run _ => run

inductive Effect where
  | setCallback (run : Nat) (cb : Option Nat)
  | getCallback (run : Nat)
  | token (run : Nat) (cb : Nat) (text : String)
  deriving DecidableEq, Repr

def Effect.run : Effect → Nat
  | .setCallback run _ => run
  | .getCallback run => run
  | .token run _ _ => run

def Effect.Answer : Effect → Type
  | .getCallback _ => Option Nat
  | _ => Unit

/-- One delivery of a token: the run whose call produced it, the run whose stream got it. -/
structure Delivery where
  producer : Nat
  stream : Nat
  text : String
  deriving DecidableEq, Repr

/-- `cb` is `_stream_ctx`. The code keeps neither which runs have set their callback and
not ended, nor the deliveries. -/
structure World where
  cb : Option Nat
  live : List Nat
  arrived : Nat
  delivered : List Delivery
  deriving DecidableEq, Repr

def World.after (w : World) : Effect → World
  | .setCallback run (some cb) => { w with cb := some cb, live := run :: w.live }
  | .setCallback run none => { w with cb := none, live := w.live.erase run }
  | .getCallback _ => w
  | .token run cb text => { w with delivered := ⟨run, cb, text⟩ :: w.delivered }

def reply (w : World) : (e : Effect) → e.Answer
  | .setCallback _ _ => ()
  | .getCallback _ => w.cb
  | .token _ _ _ => ()

abbrev Task := Prog Effect Effect.Answer

def ask (e : Effect) : Task e.Answer := Prog.perform e

def setTokenCallback (run : Nat) (cb : Option Nat) : Task Unit := ask (.setCallback run cb)

def getTokenCallback (run : Nat) : Task (Option Nat) := ask (.getCallback run)

/-- The loop over the chunks; one without content is not passed on. -/
def streamChunks (run cb : Nat) : List String → Task Unit
  | [] => pure ()
  | text :: rest =>
    if text = "" then streamChunks run cb rest
    else do
      ask (.token run cb text)
      streamChunks run cb rest

/-- `_generate_one`: without a callback the model is invoked and nothing is passed on. -/
def generateOne (run : Nat) (cb : Option Nat) (chunks : List String) : Task Unit :=
  match cb with
  | none => pure ()
  | some cb => streamChunks run cb chunks

def generateOthers (run : Nat) : List (List String) → Task Unit
  | [] => pure ()
  | chunks :: rest => do
    generateOne run none chunks
    generateOthers run rest

/-- `generator_node`: the callback is read once and given to the first candidate only. -/
def generatorNode (run : Nat) (call : Call) : Task Unit := do
  let cb ← getTokenCallback run
  generateOne run cb call.first
  generateOthers run call.others

def generatorNodes (run : Nat) : List Call → Task Unit
  | [] => pure ()
  | call :: rest => do
    generatorNode run call
    generatorNodes run rest

/-- A streamed run clears the callback however its graph ends. -/
def body : Desc → Task Unit
  | .streamed run calls => do
    setTokenCallback run (some run)
    generatorNodes run calls
    setTokenCallback run none
  | .plain run calls => generatorNodes run calls

def system : Threads Effect Effect.Answer World Desc Unit Empty where
  body := body
  perform w _ e := some (w.after e, reply w e, [])
  arrive w d := if d.run = w.arrived then some { w with arrived := w.arrived + 1 } else none
  ambient _ move := nomatch move

def start : Config Effect Effect.Answer World Desc := ⟨⟨none, [], 0, []⟩, []⟩

/-- Every token went to the stream of the run that produced it, and the streaming of each
run that has started it and not ended is on and its own. -/
structure Isolated (w : World) : Prop where
  tokens : ∀ d ∈ w.delivered, d.stream = d.producer
  streams : ∀ run ∈ w.live, w.cb = some run

/-- When a run starts its streaming, or its generator reads the callback, no other run is
streaming. -/
def Alone (w : World) (_ : Desc) (e : Effect) (_ : e.Answer) : Prop :=
  match e with
  | .setCallback run (some _) => ∀ other ∈ w.live, other = run
  | .getCallback run => ∀ other ∈ w.live, other = run
  | _ => True

instance : ∀ w d e r, Decidable (Alone w d e r)
  | w, _, .setCallback run (some _), _ =>
    inferInstanceAs (Decidable (∀ other ∈ w.live, other = run))
  | w, _, .getCallback run, _ => inferInstanceAs (Decidable (∀ other ∈ w.live, other = run))
  | _, _, .setCallback _ none, _ => isTrue trivial
  | _, _, .token _ _ _, _ => isTrue trivial

/-- What a streamed run has left to do while it is streaming, if it is answered its own
callback: its tokens are for its own stream, and it ends by clearing. -/
def Streams (run : Nat) : Task Unit → Prop
  | .ret _ => False
  | .act (.getCallback r) k => r = run ∧ Streams run (k (some run))
  | .act (.token r cb _) k => r = run ∧ cb = run ∧ Streams run (k ())
  | .act (.setCallback r cb) k => r = run ∧ cb = none ∧ k () = .ret ()

/-- What a plain run has left to do, if it finds no callback: it passes no token on. -/
def Silent (run : Nat) : Task Unit → Prop
  | .ret _ => True
  | .act (.getCallback r) k => r = run ∧ Silent run (k none)
  | .act _ _ => False

variable {w w' : World} {d : Desc} {e : Effect} {run : Nat} {p : Task Unit}

theorem streams_chunks (chunks : List String) (rest : Streams run p) :
    Streams run (streamChunks run run chunks >>= fun _ => p) := by
  induction chunks with
  | nil => exact rest
  | cons text chunks ih =>
    by_cases empty : text = ""
    · simp only [streamChunks, empty, if_true]
      exact ih
    · simp only [streamChunks, empty, if_false]
      exact ⟨rfl, rfl, ih⟩

theorem generateOthers_pure (run : Nat) (others : List (List String)) :
    generateOthers run others = pure () := by
  induction others with
  | nil => rfl
  | cons chunks rest ih => exact ih

theorem streams_node (call : Call) (rest : Streams run p) :
    Streams run (generatorNode run call >>= fun _ => p) := by
  refine ⟨rfl, ?_⟩
  change Streams run ((streamChunks run run call.first >>= fun _ => generateOthers run call.others) >>=
    fun _ => p)
  rw [Prog.bind_assoc, generateOthers_pure]
  exact streams_chunks call.first rest

theorem streams_nodes (calls : List Call) (rest : Streams run p) :
    Streams run (generatorNodes run calls >>= fun _ => p) := by
  induction calls with
  | nil => exact rest
  | cons call calls ih =>
    change Streams run ((generatorNode run call >>= fun _ => generatorNodes run calls) >>= fun _ => p)
    rw [Prog.bind_assoc]
    exact streams_node call ih

theorem silent_nodes (calls : List Call) : Silent run (generatorNodes run calls) := by
  induction calls with
  | nil => trivial
  | cons call calls ih =>
    refine ⟨rfl, ?_⟩
    change Silent run (generateOthers run call.others >>= fun _ => generatorNodes run calls)
    rw [generateOthers_pure]
    exact ih

/-- How far a run has come. -/
inductive Stage (w : World) (run : Nat) (p : Task Unit) : Prop where
  | waiting (calls : List Call) (whole : p = body (.streamed run calls)) (off : run ∉ w.live)
  | streaming (on : run ∈ w.live) (rest : Streams run p)
  | ended (whole : p = .ret ()) (off : run ∉ w.live)
  | silent (rest : Silent run p) (off : run ∉ w.live)

theorem Stage.frame (stage : Stage w run p) (same : run ∈ w'.live ↔ run ∈ w.live) :
    Stage w' run p := by
  cases stage with
  | waiting calls whole off => exact .waiting calls whole (mt same.mp off)
  | streaming on rest => exact .streaming (same.mpr on) rest
  | ended whole off => exact .ended whole (mt same.mp off)
  | silent rest off => exact .silent rest (mt same.mp off)

theorem Stage.effect_run {k : e.Answer → Task Unit} (stage : Stage w run (.act e k)) :
    e.run = run := by
  cases stage with
  | waiting calls whole =>
    obtain ⟨rfl, -⟩ := Prog.act.inj whole
    rfl
  | streaming _ rest => cases e <;> exact rest.1
  | ended whole => contradiction
  | silent rest =>
    cases e with
    | getCallback => exact rest.1
    | setCallback => exact absurd rest id
    | token => exact absurd rest id

/-- A run starts and ends no streaming but its own. -/
theorem after_live (w : World) (e : Effect) {other : Nat} (different : other ≠ e.run) :
    other ∈ (w.after e).live ↔ other ∈ w.live := by
  cases e with
  | setCallback run cb =>
    have apart : other ≠ run := different
    cases cb with
    | none => exact List.mem_erase_of_ne apart
    | some cb => simp [World.after, apart]
  | _ => exact Iff.rfl

theorem after_arrived (w : World) (e : Effect) : (w.after e).arrived = w.arrived := by
  cases e with
  | setCallback run cb => cases cb <;> rfl
  | _ => rfl

/-- The runs that are streaming, each once; without one the callback is off. -/
structure Kept (w : World) : Prop where
  isolated : Isolated w
  distinct : w.live.Nodup
  known : ∀ run ∈ w.live, run < w.arrived
  off : w.live = [] → w.cb = none

theorem Kept.alone (kept : Kept w) (on : run ∈ w.live) : w.live = [run] := by
  have same : ∀ other ∈ w.live, other = run := by
    intro other member
    have first := kept.isolated.streams other member
    have second := kept.isolated.streams run on
    exact Option.some.inj (first.symm.trans second)
  cases live : w.live with
  | nil => simp [live] at on
  | cons other rest =>
    have distinct := kept.distinct
    rw [live] at same distinct
    obtain rfl := same other List.mem_cons_self
    cases rest with
    | nil => rfl
    | cons third rest =>
      obtain rfl := same third (by simp)
      simp at distinct

/-- One effect of a run that starts and reads only while no other run is streaming. -/
theorem Stage.step {k : e.Answer → Task Unit} (kept : Kept w) (bound : run < w.arrived)
    (stage : Stage w run (.act e k)) (alone : Alone w d e (reply w e)) :
    Kept (w.after e) ∧ Stage (w.after e) run (k (reply w e)) := by
  obtain ⟨isolated, distinct, known, off⟩ := kept
  cases stage with
  | waiting calls whole out =>
    obtain ⟨rfl, rest⟩ := Prog.act.inj whole
    obtain rfl := eq_of_heq rest
    have none : w.live = [] := by
      rw [List.eq_nil_iff_forall_not_mem]
      intro other member
      exact out (alone other member ▸ member)
    have live : (w.after (.setCallback run (some run))).live = [run] := by simp [World.after, none]
    refine ⟨⟨⟨isolated.tokens, ?_⟩, ?_, ?_, ?_⟩, .streaming ?_ ?_⟩
    · intro other member
      rw [live, List.mem_singleton] at member
      rw [member]
      rfl
    · simp [live]
    · intro other member
      rw [live, List.mem_singleton] at member
      rw [member]
      exact bound
    · simp [live]
    · simp [live]
    · exact streams_nodes calls ⟨rfl, rfl, rfl⟩
  | streaming on rest =>
    have only := Kept.alone ⟨isolated, distinct, known, off⟩ on
    cases e with
    | setCallback r cb =>
      obtain ⟨rfl, rfl, ends⟩ := rest
      have live : (w.after (.setCallback r none)).live = [] := by simp [World.after, only]
      refine ⟨⟨⟨isolated.tokens, ?_⟩, ?_, ?_, fun _ => rfl⟩, .ended ends ?_⟩ <;> simp [live]
    | getCallback r =>
      obtain ⟨rfl, rest⟩ := rest
      have own : reply w (.getCallback r) = some r := isolated.streams r on
      rw [own]
      exact ⟨⟨isolated, distinct, known, off⟩, .streaming on rest⟩
    | token r cb text =>
      obtain ⟨rfl, rfl, rest⟩ := rest
      refine ⟨⟨⟨?_, isolated.streams⟩, distinct, known, off⟩, .streaming on rest⟩
      intro delivery member
      rcases List.mem_cons.mp member with rfl | old
      · rfl
      · exact isolated.tokens delivery old
  | ended whole => contradiction
  | silent rest out =>
    cases e with
    | getCallback r =>
      obtain ⟨rfl, rest⟩ := rest
      have none : w.live = [] := by
        rw [List.eq_nil_iff_forall_not_mem]
        intro other member
        exact out (alone other member ▸ member)
      have quiet : reply w (.getCallback r) = Option.none := off none
      rw [quiet]
      exact ⟨⟨isolated, distinct, known, off⟩, .silent rest out⟩
    | setCallback => exact absurd rest id
    | token => exact absurd rest id

theorem start_stage (d : Desc) (out : d.run ∉ w.live) : Stage w d.run (body d) := by
  cases d with
  | streamed run calls => exact .waiting calls rfl out
  | plain run calls => exact .silent (silent_nodes calls) out

theorem kept_arrive {w w' : World} {d : Desc} (kept : Kept w) (arrived : system.arrive w d = some w') :
    Kept w' ∧ (d.run < w'.arrived ∧ Stage w' d.run (body d)) ∧
      ∀ t : Thread Effect Effect.Answer Desc, t.desc.run < w.arrived ∧ Stage w t.desc.run t.rest →
        (t.desc.run < w'.arrived ∧ Stage w' t.desc.run t.rest) ∧ t.desc.run ≠ d.run ∧ d.run ≠ t.desc.run := by
  obtain ⟨new, same⟩ := Option.ite_none_right_eq_some.mp arrived
  obtain rfl := Option.some.inj same
  obtain ⟨isolated, distinct, known, off⟩ := kept
  refine ⟨⟨⟨isolated.tokens, isolated.streams⟩, distinct, ?_, off⟩, ⟨?_, ?_⟩, ?_⟩
  · intro run member
    have before := known run member
    change run < w.arrived + 1
    omega
  · change d.run < w.arrived + 1
    omega
  · apply start_stage
    intro member
    have before : d.run < w.arrived := known _ member
    omega
  · intro t ok
    have before := ok.1
    refine ⟨⟨?_, ok.2.frame Iff.rfl⟩, ?_, ?_⟩
    · change t.desc.run < w.arrived + 1
      omega
    · omega
    · omega

def isolation : Threads.Outline system Alone where
  inv := Kept
  ok w t := t.desc.run < w.arrived ∧ Stage w t.desc.run t.rest
  apart d d' := d.run ≠ d'.run
  own {w _ d e k _ _ _} kept ok alone performed := by
    obtain ⟨rfl, rfl, rfl⟩ := by simpa [system] using performed
    obtain ⟨after, stage⟩ := ok.2.step kept ok.1 alone
    refine ⟨after, ⟨?_, stage⟩, by simp⟩
    rw [after_arrived]
    exact ok.1
  stable {w _ d e k _ _ _ t} _ ok _ performed other apart := by
    obtain ⟨rfl, rfl, rfl⟩ := by simpa [system] using performed
    have different : t.desc.run ≠ e.run := by
      rw [ok.2.effect_run]
      exact apart.2
    refine ⟨?_, other.2.frame (after_live w e different)⟩
    rw [after_arrived]
    exact other.1
  fork_apart {w _ d e k _ _ _} _ _ performed := by
    obtain ⟨rfl, rfl, rfl⟩ := by simpa [system] using performed
    simp
  arrive := kept_arrive
  ambient {_ x _} _ _ := nomatch x

/-- Along every run in which each run of the process starts and reads only while no other
one is streaming, tokens and streams are kept apart. -/
theorem tokens_isolated (events : List (Event Desc Unit Empty))
    (alone : system.machine.Along (system.Meets Alone) start events) :
    system.machine.Along (fun _ _ c => Isolated c.world) start events :=
  Machine.along_of_invariant isolation.Holds
    (fun _ _ _ holds stepped meets => isolation.step holds stepped meets)
    (fun _ _ _ holds stepped meets => (isolation.step holds stepped meets).world.isolated)
    (isolation.holds_empty ⟨⟨by simp, by simp⟩, by simp, by simp, fun _ => rfl⟩) alone

def oneCall : List Call := [⟨["SELECT 1"], []⟩]

/-- A streamed run, then a plain one. -/
def oneByOne : List (Event Desc Unit Empty) :=
  [.arrive (.streamed 0 oneCall), .run 0 (), .run 0 (), .run 0 (), .run 0 (),
    .arrive (.plain 1 oneCall), .run 1 ()]

theorem tokens_isolated_one_by_one :
    (system.machine.exec start oneByOne).any
      (fun c => c.world.delivered = [⟨0, 0, "SELECT 1"⟩] ∧ c.world.live = []) = true ∧
    system.machine.Along (fun _ _ c => Isolated c.world) start oneByOne :=
  ⟨by decide, tokens_isolated oneByOne (by decide)⟩

/-- The second run starts its streaming before the generator of the first reads the
callback; then the first ends. -/
def overlapping : List (Event Desc Unit Empty) :=
  [.arrive (.streamed 0 oneCall), .arrive (.streamed 1 oneCall), .run 0 (), .run 1 (), .run 0 (),
    .run 0 (), .run 0 ()]

/-- The first run's token goes to the second one's stream, and its end turns that off. -/
theorem token_crosses :
    ∃ c, system.machine.exec start overlapping = some c ∧
      ⟨0, 1, "SELECT 1"⟩ ∈ c.world.delivered ∧ 1 ∈ c.world.live ∧ c.world.cb = none ∧
      ¬ Isolated c.world := by
  have ends : (system.machine.exec start overlapping).any (fun c =>
      ⟨0, 1, "SELECT 1"⟩ ∈ c.world.delivered ∧ 1 ∈ c.world.live ∧ c.world.cb = none) = true := by
    decide
  obtain ⟨c, run, final⟩ := (Option.any_eq_true _ _).mp ends
  obtain ⟨crossed, live, off⟩ := of_decide_eq_true final
  refine ⟨c, run, crossed, live, off, ?_⟩
  intro isolated
  have own := isolated.streams 1 live
  rw [off] at own
  contradiction

end TokenStream
end Nl2SqlAgent

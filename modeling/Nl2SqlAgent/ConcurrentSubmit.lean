import Nl2SqlAgent.IdempotentReplay

/-! Requests of `task_submit` in the API that carry one idempotency key and one question,
in any number and interleaved command by command, within the lifetime of the key: how many
tasks they create. Redis answers every command. -/
namespace Nl2SqlAgent

open Lib

namespace ConcurrentSubmit

open IdempotentReplay (ApiRequest ApiEffect ApiTask ask respond create checked taskSubmit text)

/-- A command, and the request that it belongs to. -/
structure Command where
  request : ApiRequest
  effect : ApiEffect

abbrev Command.Answer (c : Command) : Type := c.effect.Answer

abbrev Body := Prog Command Command.Answer Unit

/-- The clock, and what `broker.publish` reports. -/
structure Choice where
  now : String := ""
  published : Bool := true
  deriving DecidableEq, Repr

def Choice.answering (c : Choice) : IdempotentReplay.Choice :=
  { now := c.now, published := c.published }

/-- Only `redis` and what is published are kept. `missed`: the requests whose lookup found
nothing. -/
structure World where
  redis : GatewaySubmit.World
  requests : List ApiRequest
  missed : List ApiRequest
  published : List String
  answers : List (ApiRequest × String)

def World.created (w : World) : List String := w.redis.states.map Prod.fst

def World.after (w : World) (c : Choice) : Command → World
  | ⟨r, e⟩ =>
    let served := { w with redis := IdempotentReplay.apiAfter w.redis c.answering e }
    match e with
    | .idempotentCheck key =>
      if w.redis.keys.lookup key = none then { served with missed := r :: w.missed } else served
    | .publish taskId => { served with published := taskId :: w.published }
    | .respond taskId => { served with answers := (r, taskId) :: w.answers }
    | _ => served

def inject (r : ApiRequest) (p : ApiTask Unit) : Body := p.embed (Command.mk r) fun _ answer => answer

/-- `parts`: the key and what is kept of the question. Ids are new, and not empty. -/
def system (digest : String → String) (parts : String × String) :
    Threads Command Command.Answer World ApiRequest Choice Empty where
  body r := inject r (taskSubmit digest r)
  perform w c e := some (w.after c e, IdempotentReplay.apiReply w.redis c.answering e.effect, [])
  arrive w r :=
    if r.parts = some parts ∧ r.taskId ≠ "" ∧ r.taskId ∉ w.requests.map ApiRequest.taskId then
      some { w with requests := r :: w.requests }
    else none
  ambient _ move := nomatch move

def start : Config Command Command.Answer World ApiRequest :=
  ⟨⟨⟨[], [], [], [], []⟩, [], [], [], []⟩, []⟩

/-- At most one task is created and published, and its id is answered. -/
def Once (w : World) : Prop :=
  ∃ taskId, w.created.Sublist [taskId] ∧ w.published.Sublist [taskId] ∧
    ∀ answer ∈ w.answers, answer.2 = taskId

/-- One task is created and published, and every request is answered its id. -/
def Settled (w : World) : Prop :=
  w.requests ≠ [] → ∃ taskId, w.created = [taskId] ∧ w.published = [taskId] ∧
    (∀ r ∈ w.requests, (r, taskId) ∈ w.answers) ∧ ∀ answer ∈ w.answers, answer.2 = taskId

/-- The next command is a lookup, which finds nothing. -/
def misses (w : World) : Body → Bool
  | .act ⟨_, .idempotentCheck key⟩ _ => w.redis.keys.lookup key = none
  | _ => false

/-- The next command is `idempotent_set`. -/
def taking : Body → Bool
  | .act ⟨_, .idempotentSet _ _⟩ _ => true
  | _ => false

/-- No request finds nothing while another is between its lookup and its `idempotent_set`. -/
def Unheld (c : Config Command Command.Answer World ApiRequest) :
    Event ApiRequest Choice Empty → Config Command Command.Answer World ApiRequest → Prop
  | .run pid _, _ => (c.pool[pid]?.any fun t => misses c.world t.rest) = true →
      ∀ other ∈ c.pool, taking other.rest = false
  | _, _ => True

instance (c c' : Config Command Command.Answer World ApiRequest)
    (event : Event ApiRequest Choice Empty) : Decidable (Unheld c event c') :=
  match event with
  | .run _ _ => inferInstanceAs (Decidable (_ → ∀ other ∈ c.pool, _))
  | .arrive _ => isTrue trivial
  | .ambient move => nomatch move

section

variable {digest : String → String} {parts : String × String} {w w' : World} {r : ApiRequest}
  {c : Choice}

/-- The key under which all the requests are known. -/
abbrev key (digest : String → String) (parts : String × String) : String := digest (text parts)

def ids (w : World) : List String := w.missed.map ApiRequest.taskId

def World.named (w : World) : List String := w.redis.keys.map Prod.snd

/-- Only those who found nothing take the key and create tasks, each at most one. -/
structure Accounts (digest : String → String) (parts : String × String) (w : World) : Prop where
  requests : ∀ r ∈ w.requests, r.parts = some parts ∧ r.taskId ≠ ""
  distinct : ∀ r ∈ w.requests, ∀ r' ∈ w.requests, r.taskId = r'.taskId → r = r'
  missed : w.missed ⊆ w.requests
  once : (ids w).Nodup
  keys : ∀ entry ∈ w.redis.keys, entry.1 = key digest parts
  named : w.named ⊆ ids w
  created : w.created ⊆ ids w
  createdOnce : w.created.Nodup
  published : w.published ⊆ ids w
  publishedOnce : w.published.Nodup
  answers : ∀ answer ∈ w.answers, answer.2 ∈ ids w

/-- The request has done all that a request does that found nothing. -/
structure Served (w : World) (r : ApiRequest) : Prop where
  named : r.taskId ∈ w.named
  created : r.taskId ∈ w.created
  published : r.taskId ∈ w.published

/-- Where a request stands in `task_submit`. -/
inductive Stage where
  | looking
  | taking
  | creating
  | publishing
  | answering (taskId : String)
  | ended

def Stage.rest (digest : String → String) (parts : String × String) (r : ApiRequest) :
    Stage → ApiTask Unit
  | .looking => taskSubmit digest r
  | .taking => checked digest r parts none
  | .creating => create r
  | .publishing => do
    let _ ← ask (.publish r.taskId)
    respond r.taskId
  | .answering taskId => respond taskId
  | .ended => pure ()

/-- What holds of a request at the stage. -/
def Stage.Fits (w : World) (r : ApiRequest) : Stage → Prop
  | .looking => r ∉ w.missed
  | .taking => r ∈ w.missed ∧ r.taskId ∉ w.created ∧ r.taskId ∉ w.published
  | .creating =>
    r ∈ w.missed ∧ r.taskId ∈ w.named ∧ r.taskId ∉ w.created ∧ r.taskId ∉ w.published
  | .publishing =>
    r ∈ w.missed ∧ r.taskId ∈ w.named ∧ r.taskId ∈ w.created ∧ r.taskId ∉ w.published
  | .answering taskId => taskId ∈ ids w ∧ (r ∈ w.missed → Served w r)
  | .ended => (∃ taskId, (r, taskId) ∈ w.answers) ∧ (r ∈ w.missed → Served w r)

/-- The assertion of a thread. -/
def Underway (digest : String → String) (parts : String × String) (w : World)
    (t : Thread Command Command.Answer ApiRequest) : Prop :=
  t.desc ∈ w.requests ∧ ∃ stage : Stage,
    t.rest = inject t.desc (stage.rest digest parts t.desc) ∧ stage.Fits w t.desc

/-- What a step of the request `r` can change of the world for the others. -/
structure Beside (r : ApiRequest) (w w' : World) : Prop where
  missed : ∀ other, other ≠ r → (other ∈ w'.missed ↔ other ∈ w.missed) := by
    exact fun _ _ => Iff.rfl
  grows : w.missed ⊆ w'.missed := by exact List.Subset.refl _
  named : w.named ⊆ w'.named := by exact List.Subset.refl _
  created : ∀ taskId, taskId ≠ r.taskId → (taskId ∈ w'.created ↔ taskId ∈ w.created) := by
    exact fun _ _ => Iff.rfl
  published : ∀ taskId, taskId ≠ r.taskId →
      (taskId ∈ w'.published ↔ taskId ∈ w.published) := by
    exact fun _ _ => Iff.rfl
  answers : w.answers ⊆ w'.answers := by exact List.Subset.refl _

theorem Served.beside {other : ApiRequest} (served : Served w other) (beside : Beside r w w')
    (differs : other.taskId ≠ r.taskId) : Served w' other where
  named := beside.named served.named
  created := (beside.created _ differs).mpr served.created
  published := (beside.published _ differs).mpr served.published

theorem Stage.Fits.beside {other : ApiRequest} {stage : Stage} (fits : stage.Fits w other)
    (beside : Beside r w w') (differs : other.taskId ≠ r.taskId) : stage.Fits w' other := by
  have missed := beside.missed other fun same => differs (by rw [same])
  have created := beside.created _ differs
  have published := beside.published _ differs
  cases stage with
  | looking => exact fun member => fits (missed.mp member)
  | taking =>
    obtain ⟨member, notCreated, notPublished⟩ := fits
    exact ⟨missed.mpr member, mt created.mp notCreated, mt published.mp notPublished⟩
  | creating =>
    obtain ⟨member, named, notCreated, notPublished⟩ := fits
    exact ⟨missed.mpr member, beside.named named, mt created.mp notCreated,
      mt published.mp notPublished⟩
  | publishing =>
    obtain ⟨member, named, isCreated, notPublished⟩ := fits
    exact ⟨missed.mpr member, beside.named named, created.mpr isCreated,
      mt published.mp notPublished⟩
  | answering taskId =>
    obtain ⟨found, served⟩ := fits
    refine ⟨List.map_subset _ beside.grows found, fun member => ?_⟩
    exact (served (missed.mp member)).beside beside differs
  | ended =>
    obtain ⟨⟨taskId, answered⟩, served⟩ := fits
    refine ⟨⟨taskId, beside.answers answered⟩, fun member => ?_⟩
    exact (served (missed.mp member)).beside beside differs

theorem Accounts.id_ne_empty (accounts : Accounts digest parts w) {taskId : String}
    (found : taskId ∈ ids w) : taskId ≠ "" := by
  obtain ⟨m, member, rfl⟩ := List.mem_map.mp found
  exact (accounts.requests m (accounts.missed member)).2

/-- A lookup that finds something finds the id of one who found nothing. -/
theorem Accounts.found (accounts : Accounts digest parts w) {k taskId : String}
    (found : w.redis.keys.lookup k = some taskId) : taskId ∈ ids w :=
  accounts.named (List.mem_map.mpr ⟨_, mem_of_lookup found, rfl⟩)

/-- The step that the thread of `r` makes, by what it comes to. -/
structure Advances (digest : String → String) (parts : String × String) (w w' : World)
    (r : ApiRequest) (rest : Body) : Prop where
  requests : w'.requests = w.requests := by rfl
  accounts : Accounts digest parts w'
  beside : Beside r w w'
  stage : ∃ stage : Stage, rest = inject r (stage.rest digest parts r) ∧ stage.Fits w' r

theorem advances_missed (accounts : Accounts digest parts w) (member : r ∈ w.requests)
    (notNamed : r.taskId ∉ ids w) :
    Advances digest parts w { w with missed := r :: w.missed } r
      (inject r (Stage.taking.rest digest parts r)) where
  accounts :=
    { accounts with
      missed := List.cons_subset.mpr ⟨member, accounts.missed⟩
      once := List.nodup_cons.mpr ⟨notNamed, accounts.once⟩
      named := List.subset_cons_of_subset _ accounts.named
      created := List.subset_cons_of_subset _ accounts.created
      published := List.subset_cons_of_subset _ accounts.published
      answers := fun answer told => List.mem_cons_of_mem _ (accounts.answers answer told) }
  beside := { missed := fun other differs => by simp [differs], grows := List.subset_cons_self _ _ }
  stage := ⟨.taking, rfl, List.mem_cons_self, fun made => notNamed (accounts.created made),
    fun made => notNamed (accounts.published made)⟩

theorem advances_found (accounts : Accounts digest parts w) {taskId : String} (new : r ∉ w.missed)
    (found : taskId ∈ ids w) :
    Advances digest parts w w r (inject r (checked digest r parts (some taskId))) where
  accounts := accounts
  beside := {}
  stage := by
    have known : Py.truthy (some taskId) = true := by
      simpa [Py.truthy] using accounts.id_ne_empty found
    refine ⟨.answering taskId, ?_, found, fun missed => absurd missed new⟩
    rw [checked, if_pos known]
    rfl

theorem advances_taken (accounts : Accounts digest parts w) (fits : Stage.taking.Fits w r) :
    Advances digest parts w
      { w with redis := { w.redis with keys := (key digest parts, r.taskId) :: w.redis.keys } } r
      (inject r (Stage.creating.rest digest parts r)) where
  accounts :=
    { accounts with
      keys := List.forall_mem_cons.mpr ⟨rfl, accounts.keys⟩
      named := List.cons_subset.mpr ⟨List.mem_map_of_mem fits.1, accounts.named⟩ }
  beside := { named := List.subset_cons_self _ _ }
  stage := ⟨.creating, rfl, fits.1, List.mem_cons_self, fits.2⟩

theorem advances_created (accounts : Accounts digest parts w) (fits : Stage.creating.Fits w r)
    (state : Doc) :
    Advances digest parts w
      { w with redis := { w.redis with states := (r.taskId, state) :: w.redis.states } } r
      (inject r (Stage.publishing.rest digest parts r)) where
  accounts :=
    { accounts with
      created := List.cons_subset.mpr ⟨List.mem_map_of_mem fits.1, accounts.created⟩
      createdOnce := List.nodup_cons.mpr ⟨fits.2.2.1, accounts.createdOnce⟩ }
  beside := { created := fun taskId differs => by simp [World.created, differs] }
  stage := ⟨.publishing, rfl, fits.1, fits.2.1, List.mem_cons_self, fits.2.2.2⟩

theorem advances_published (accounts : Accounts digest parts w) (fits : Stage.publishing.Fits w r) :
    Advances digest parts w { w with published := r.taskId :: w.published } r
      (inject r (Stage.rest digest parts r (.answering r.taskId))) where
  accounts :=
    { accounts with
      published := List.cons_subset.mpr ⟨List.mem_map_of_mem fits.1, accounts.published⟩
      publishedOnce := List.nodup_cons.mpr ⟨fits.2.2.2, accounts.publishedOnce⟩ }
  beside := { published := fun taskId differs => by simp [differs] }
  stage := ⟨.answering r.taskId, rfl, List.mem_map_of_mem fits.1,
    fun _ => ⟨fits.2.1, fits.2.2.1, List.mem_cons_self⟩⟩

theorem advances_answered (accounts : Accounts digest parts w) {taskId : String}
    (fits : (Stage.answering taskId).Fits w r) :
    Advances digest parts w { w with answers := (r, taskId) :: w.answers } r
      (inject r (Stage.rest digest parts r .ended)) where
  accounts := { accounts with answers := List.forall_mem_cons.mpr ⟨fits.1, accounts.answers⟩ }
  beside := { answers := List.subset_cons_self _ _ }
  stage := ⟨.ended, rfl, ⟨taskId, List.mem_cons_self⟩, fun missed =>
    ⟨(fits.2 missed).named, (fits.2 missed).created, (fits.2 missed).published⟩⟩

theorem advances {e : Command} {k : e.Answer → Body} {stage : Stage}
    (accounts : Accounts digest parts w) (member : r ∈ w.requests) (fits : stage.Fits w r)
    (same : Prog.act e k = inject r (stage.rest digest parts r)) :
    Advances digest parts w (w.after c e) r
      (k (IdempotentReplay.apiReply w.redis c.answering e.effect)) := by
  cases stage with
  | looking =>
    have has := (accounts.requests r member).1
    simp only [Stage.rest, taskSubmit, has] at same
    cases same
    have notNamed : r.taskId ∉ ids w := by
      intro listed
      obtain ⟨m, missed, equal⟩ := List.mem_map.mp listed
      rw [accounts.distinct m (accounts.missed missed) r member equal] at missed
      exact fits missed
    have reply : IdempotentReplay.apiReply w.redis c.answering (.idempotentCheck (key digest parts)) =
        .done (w.redis.keys.lookup (key digest parts)) := rfl
    cases looked : w.redis.keys.lookup (key digest parts) with
    | none =>
      have after : w.after c ⟨r, .idempotentCheck (key digest parts)⟩ =
          { w with missed := r :: w.missed } := if_pos looked
      rw [after, reply, looked]
      exact advances_missed accounts member notNamed
    | some taskId =>
      have after : w.after c ⟨r, .idempotentCheck (key digest parts)⟩ = w :=
        if_neg (by simp [looked])
      rw [after, reply, looked]
      exact advances_found accounts fits (accounts.found looked)
  | taking =>
    cases same
    exact advances_taken accounts fits
  | creating =>
    cases same
    exact advances_created accounts fits _
  | publishing =>
    cases same
    exact advances_published accounts fits
  | answering taskId =>
    cases same
    exact advances_answered accounts fits
  | ended => contradiction

end

variable {digest : String → String} {parts : String × String} {w : World}

def accounted (digest : String → String) (parts : String × String) :
    Threads.Outline (system digest parts) fun _ _ _ _ => True where
  inv := Accounts digest parts
  ok := Underway digest parts
  apart r other := other.taskId ≠ r.taskId
  own {w c r e k _ _ _} accounts underway _ performed := by
    obtain ⟨rfl, rfl, rfl⟩ := by simpa [system] using performed
    obtain ⟨member, stage, same, fits⟩ := underway
    have step : Advances digest parts w (w.after c e) r _ := advances accounts member fits same
    refine ⟨step.accounts, ⟨?_, step.stage⟩, by simp⟩
    rw [step.requests]
    exact member
  stable {w c r e k _ _ _ t} accounts underway _ performed other apart := by
    obtain ⟨rfl, rfl, rfl⟩ := by simpa [system] using performed
    obtain ⟨member, stage, same, fits⟩ := underway
    have step : Advances digest parts w (w.after c e) r _ := advances accounts member fits same
    obtain ⟨member', stage', same', fits'⟩ := other
    refine ⟨?_, stage', same', fits'.beside step.beside apart.1⟩
    rw [step.requests]
    exact member'
  fork_apart {w c r e k _ _ _} _ _ performed := by
    obtain ⟨rfl, rfl, rfl⟩ := by simpa [system] using performed
    simp
  arrive {w r w'} accounts arrived := by
    obtain ⟨⟨has, filled, fresh⟩, same⟩ := Option.ite_none_right_eq_some.mp arrived
    obtain rfl := Option.some.inj same
    have unused (other : ApiRequest) (member : other ∈ w.requests) : other.taskId ≠ r.taskId :=
      fun equal => fresh (List.mem_map.mpr ⟨other, member, equal⟩)
    have notMissed : r ∉ w.missed := fun missed => unused r (accounts.missed missed) rfl
    refine ⟨{ accounts with requests := ?_, distinct := ?_, missed := ?_ },
      ⟨List.mem_cons_self, .looking, rfl, notMissed⟩, ?_⟩
    · exact List.forall_mem_cons.mpr ⟨⟨has, filled⟩, accounts.requests⟩
    · intro r' member' r'' member'' equal
      rcases List.mem_cons.mp member' with rfl | old' <;>
        rcases List.mem_cons.mp member'' with rfl | old''
      · rfl
      · exact absurd equal.symm (unused r'' old'')
      · exact absurd equal (unused r' old')
      · exact accounts.distinct r' old' r'' old'' equal
    · exact List.subset_cons_of_subset _ accounts.missed
    · rintro t ⟨member, stage, stands, fits⟩
      have apart := unused t.desc member
      exact ⟨⟨List.mem_cons_of_mem _ member, stage, stands, fits.beside {} apart⟩, apart.symm,
        apart⟩
  ambient {w move w'} _ _ := nomatch move

theorem accounted_start : (accounted digest parts).Holds start := by
  apply (accounted digest parts).holds_empty
  constructor <;> simp [ids, World.named, World.created]

/-- The configurations that runs come to. -/
structure Reached (digest : String → String) (parts : String × String)
    (c : Config Command Command.Answer World ApiRequest) : Prop where
  outline : (accounted digest parts).Holds c
  present : c.world.requests ⊆ c.pool.map Thread.desc

variable {c c' : Config Command Command.Answer World ApiRequest}
  {event : Event ApiRequest Choice Empty} {events : List (Event ApiRequest Choice Empty)}
  {t : Thread Command Command.Answer ApiRequest}

theorem requests_after (w : World) (choice : Choice) (e : Command) :
    (w.after choice e).requests = w.requests := by
  obtain ⟨r, e⟩ := e
  cases e with
  | idempotentCheck key =>
    simp only [World.after]
    split <;> rfl
  | _ => rfl

theorem missed_after (w : World) (choice : Choice) (e : Command) (k : e.Answer → Body) :
    (w.after choice e).missed =
      if misses w (.act e k) = true then e.request :: w.missed else w.missed := by
  obtain ⟨r, e⟩ := e
  cases e with
  | idempotentCheck key =>
    simp only [World.after, misses, decide_eq_true_eq]
    split <;> rfl
  | _ => rfl

/-- What a step is: a command of some request, or a request more. -/
inductive Moves (digest : String → String) (parts : String × String)
    (c : Config Command Command.Answer World ApiRequest) :
    Event ApiRequest Choice Empty → Config Command Command.Answer World ApiRequest → Prop
  | runs {pid : Nat} {choice : Choice} {d : ApiRequest} {e : Command} {k : e.Answer → Body}
    {pool : List (Thread Command Command.Answer ApiRequest)}
    (fetched : c.pool[pid]? = some ⟨d, .act e k⟩) :
    Moves digest parts c (.run pid choice) ⟨c.world.after choice e, pool⟩
  | arrives {r : ApiRequest} :
    Moves digest parts c (.arrive r) ⟨{ c.world with requests := r :: c.world.requests },
      c.pool ++ [(system digest parts).start r]⟩

theorem step_moves (stepped : (system digest parts).machine.step c event = some c') :
    Moves digest parts c event c' := by
  rcases Threads.step_cases stepped with
    ⟨pid, choice, d, e, k, w, answer, forks, rfl, fetched, performed, rfl⟩ |
    ⟨d, w, rfl, arrived, rfl⟩ | ⟨x, w, rfl, moved, rfl⟩
  · obtain ⟨rfl, rfl, rfl⟩ := by simpa [system] using performed
    exact .runs fetched
  · obtain ⟨-, same⟩ := Option.ite_none_right_eq_some.mp arrived
    obtain rfl := Option.some.inj same
    exact .arrives
  · nomatch x

theorem reached_start : Reached digest parts start := ⟨accounted_start, List.nil_subset _⟩

theorem reached_step (reached : Reached digest parts c)
    (stepped : (system digest parts).machine.step c event = some c') : Reached digest parts c' := by
  refine ⟨(accounted digest parts).step reached.outline stepped
    ((system digest parts).meets_true c c' event), fun r member => ?_⟩
  have kept {d : ApiRequest} (old : d ∈ c.world.requests) : d ∈ c'.pool.map Thread.desc :=
    Threads.Outline.desc_kept stepped (reached.present old)
  cases step_moves stepped with
  | runs fetched =>
    apply kept
    rw [← requests_after c.world]
    exact member
  | arrives =>
    rcases List.mem_cons.mp member with rfl | old
    · simp [Threads.start]
    · exact kept old

theorem Reached.underway (reached : Reached digest parts c) (member : t ∈ c.pool) :
    Underway digest parts c.world t := reached.outline.threads t member

theorem Reached.taking_missed (reached : Reached digest parts c) (member : t ∈ c.pool)
    (takes : taking t.rest = true) : t.desc ∈ c.world.missed := by
  obtain ⟨requested, stage, same, fits⟩ := reached.underway member
  rw [same] at takes
  cases stage with
  | looking =>
    have has := (reached.outline.world.requests t.desc requested).1
    simp only [Stage.rest, taskSubmit, has] at takes
    contradiction
  | taking => exact fits.1
  | _ => contradiction

/-- One that found nothing takes the key next, or has taken it. -/
theorem Reached.missed_named (reached : Reached digest parts c) (member : t ∈ c.pool)
    (missed : t.desc ∈ c.world.missed) (past : taking t.rest = false) :
    t.desc.taskId ∈ c.world.named := by
  obtain ⟨requested, stage, same, fits⟩ := reached.underway member
  rw [same] at past
  cases stage with
  | looking => exact absurd missed fits
  | taking => contradiction
  | creating => exact fits.2.1
  | publishing => exact fits.2.1
  | answering taskId => exact (fits.2 missed).named
  | ended => exact (fits.2 missed).named

/-- A lookup finds nothing only while nobody has taken the key. -/
theorem Reached.misses_nothing (reached : Reached digest parts c) (member : t ∈ c.pool)
    (finds : misses c.world t.rest = true) : c.world.named = [] := by
  obtain ⟨requested, stage, same, fits⟩ := reached.underway member
  rw [same] at finds
  cases stage with
  | looking =>
    have has := (reached.outline.world.requests t.desc requested).1
    simp only [Stage.rest, taskSubmit, has] at finds
    have absent := List.lookup_eq_none_iff.mp (of_decide_eq_true finds)
    refine List.map_eq_nil_iff.mpr (List.eq_nil_iff_forall_not_mem.mpr fun entry listed => ?_)
    have other := absent entry listed
    simp [reached.outline.world.keys entry listed] at other
  | _ => contradiction

/-- Whether a second request finds nothing is decided by who stands before the key. -/
theorem unheld_iff_missed (reached : Reached digest parts c) (few : c.world.missed.length ≤ 1)
    (stepped : (system digest parts).machine.step c event = some c') :
    Unheld c event c' ↔ c'.world.missed.length ≤ 1 := by
  cases step_moves stepped with
  | arrives => exact iff_of_true trivial few
  | @runs pid choice d e k pool fetched =>
    have member := List.mem_of_getElem? fetched
    rw [missed_after c.world choice e k]
    simp only [Unheld, fetched, Option.any_some]
    by_cases finds : misses c.world (.act e k) = true
    · rw [if_pos finds]
      have nobody := reached.misses_nothing member finds
      constructor
      · intro unheld
        have none : c.world.missed = [] := by
          apply List.eq_nil_iff_forall_not_mem.mpr
          intro r missed
          obtain ⟨t, inPool, rfl⟩ := List.mem_map.mp
            (reached.present (reached.outline.world.missed missed))
          have named := reached.missed_named inPool missed (unheld finds t inPool)
          rw [nobody] at named
          contradiction
        simp [none]
      · intro short _ other inPool
        have none : c.world.missed = [] := by simpa using short
        apply Bool.eq_false_iff.mpr
        intro takes
        have missed := reached.taking_missed inPool takes
        rw [none] at missed
        contradiction
    · rw [if_neg finds]
      exact iff_of_true (fun other => absurd other finds) few

theorem missed_grows (stepped : (system digest parts).machine.step c event = some c') :
    c.world.missed.length ≤ c'.world.missed.length := by
  cases step_moves stepped with
  | arrives => exact Nat.le_refl _
  | @runs pid choice d e k pool fetched =>
    rw [missed_after c.world choice e k]
    split <;> simp

/-- Along the runs in question, one request at most finds nothing. -/
theorem along_iff_missed (run : (system digest parts).machine.exec start events = some c) :
    (system digest parts).machine.Along Unheld start events ↔ c.world.missed.length ≤ 1 := by
  refine (Machine.along_iff_of_invariant
    (fun c => Reached digest parts c ∧ c.world.missed.length ≤ 1) ?_ ?_
    ⟨reached_start, Nat.zero_le 1⟩).trans
    (Machine.along_iff_final (fun c => c.world.missed.length ≤ 1) ?_ (Nat.zero_le 1) run)
  · rintro c event c' ⟨reached, few⟩ stepped unheld
    exact ⟨reached_step reached stepped, (unheld_iff_missed reached few stepped).mp unheld⟩
  · rintro c event c' ⟨reached, few⟩ stepped
    exact unheld_iff_missed reached few stepped
  · intro c event c' stepped few
    exact (missed_grows stepped).trans few

theorem reached_run (run : (system digest parts).machine.exec start events = some c) :
    Reached digest parts c :=
  Machine.invariant (Reached digest parts) (fun _ _ _ reached stepped => reached_step reached stepped)
    reached_start run

theorem sublist_singleton {one : String} {made : List String} (only : made ⊆ [one])
    (once : made.Nodup) : made.Sublist [one] := by
  cases made with
  | nil => exact List.nil_sublist _
  | cons first rest =>
    obtain rfl := List.mem_singleton.mp (only List.mem_cons_self)
    have alone : rest = [] := by
      apply List.eq_nil_iff_forall_not_mem.mpr
      intro other listed
      obtain rfl := List.mem_singleton.mp (only (List.mem_cons_of_mem _ listed))
      exact (List.nodup_cons.mp once).1 listed
    rw [alone]

/-- If one request at most found nothing, no task is created but its own. -/
theorem once_of_few (accounts : Accounts digest parts w) (few : w.missed.length ≤ 1) : Once w := by
  obtain ⟨taskId, only⟩ : ∃ taskId, ids w ⊆ [taskId] := by
    rcases listed : w.missed with _ | ⟨m, _ | ⟨m', rest⟩⟩
    · exact ⟨"", by simp [ids, listed]⟩
    · exact ⟨m.taskId, by simp [ids, listed]⟩
    · simp [listed] at few
  refine ⟨taskId, sublist_singleton (List.Subset.trans accounts.created only) accounts.createdOnce,
    sublist_singleton (List.Subset.trans accounts.published only) accounts.publishedOnce, ?_⟩
  intro answer told
  exact List.mem_singleton.mp (only (accounts.answers answer told))

/-- Nothing is left to do for any request. -/
def Finished (c : Config Command Command.Answer World ApiRequest) : Prop :=
  ∀ t ∈ c.pool, t.rest.ended = true

theorem Reached.finished (reached : Reached digest parts c) (finished : Finished c)
    {r : ApiRequest} (requested : r ∈ c.world.requests) :
    (∃ taskId, (r, taskId) ∈ c.world.answers) ∧ (r ∈ c.world.missed → Served c.world r) := by
  obtain ⟨t, member, rfl⟩ := List.mem_map.mp (reached.present requested)
  obtain ⟨-, stage, same, fits⟩ := reached.underway member
  have ended := finished t member
  rw [same] at ended
  cases stage with
  | looking =>
    have has := (reached.outline.world.requests t.desc requested).1
    simp only [Stage.rest, taskSubmit, has] at ended
    contradiction
  | ended => exact fits
  | _ => contradiction

/-- When all the requests are done, the tasks are those of the requests that found nothing. -/
theorem settled_iff_missed (reached : Reached digest parts c) (finished : Finished c) :
    Settled c.world ↔ c.world.missed.length ≤ 1 := by
  have accounts : Accounts digest parts c.world := reached.outline.world
  have created : ids c.world ⊆ c.world.created := by
    intro taskId named
    obtain ⟨m, missed, rfl⟩ := List.mem_map.mp named
    exact ((reached.finished finished (accounts.missed missed)).2 missed).created
  have published : ids c.world ⊆ c.world.published := by
    intro taskId named
    obtain ⟨m, missed, rfl⟩ := List.mem_map.mp named
    exact ((reached.finished finished (accounts.missed missed)).2 missed).published
  constructor
  · intro settled
    by_cases none : c.world.requests = []
    · have missed := accounts.missed
      rw [none] at missed
      simp [List.subset_nil.mp missed]
    · obtain ⟨taskId, one, -⟩ := settled none
      rw [one] at created
      simpa [ids] using (sublist_singleton created accounts.once).length_le
  · intro few some
    obtain ⟨taskId, oneCreated, onePublished, told⟩ := once_of_few accounts few
    obtain ⟨r, requested⟩ := List.exists_mem_of_ne_nil _ some
    obtain ⟨⟨other, answered⟩, -⟩ := reached.finished finished requested
    obtain rfl : other = taskId := told _ answered
    have named := accounts.answers _ answered
    refine ⟨other, ?_, ?_, fun r' requested' => ?_, told⟩
    · exact oneCreated.eq_of_length_le (List.length_pos_of_mem (created named))
    · exact onePublished.eq_of_length_le (List.length_pos_of_mem (published named))
    · obtain ⟨⟨other', answered'⟩, -⟩ := reached.finished finished requested'
      obtain rfl : other' = other := told _ answered'
      exact answered'

/-- In every state of such a run there is one task at most. At the end of a run there is
one, answered to all, if and only if the run is such. -/
theorem submit_once_iff (run : (system digest parts).machine.exec start events = some c) :
    ((system digest parts).machine.Along Unheld start events → Once c.world) ∧
    (Finished c → ((system digest parts).machine.Along Unheld start events ↔ Settled c.world)) := by
  have reached := reached_run run
  constructor
  · intro unheld
    exact once_of_few reached.outline.world ((along_iff_missed run).mp unheld)
  · intro finished
    exact (along_iff_missed run).trans (settled_iff_missed reached finished).symm

def first : ApiRequest := ⟨"t1", "How many customers are there?", some "shop", none, some "k"⟩

def second : ApiRequest := ⟨"t2", "How many customers are there?", some "shop", none, some "k"⟩

def partsOfBoth : String × String := ("k", "How many customers are there?")

/-- Both requests look up the key before either takes it. -/
def together : List (Event ApiRequest Choice Empty) :=
  [.arrive first, .arrive second, .run 0 {}, .run 1 {}, .run 0 {}, .run 1 {}, .run 0 {}, .run 1 {},
    .run 0 {}, .run 1 {}, .run 0 {}, .run 1 {}]

/-- The second request looks up the key while the first is on its way to its answer. -/
def apart : List (Event ApiRequest Choice Empty) :=
  [.arrive first, .arrive second, .run 0 {}, .run 0 {}, .run 1 {}, .run 1 {}, .run 0 {}, .run 0 {},
    .run 0 {}]

instance (c : Config Command Command.Answer World ApiRequest) : Decidable (Finished c) :=
  inferInstanceAs (Decidable (∀ t ∈ c.pool, _))

theorem submit_once_apart :
    ∃ c, (system id partsOfBoth).machine.exec start apart = some c ∧ Once c.world ∧
      Settled c.world ∧ c.world.created = ["t1"] := by
  have ends : ((system id partsOfBoth).machine.exec start apart).any (fun c =>
      decide (Finished c ∧ c.world.created = ["t1"])) = true := by decide +kernel
  obtain ⟨c, run, final⟩ := (Option.any_eq_true _ _).mp ends
  obtain ⟨finished, created⟩ := of_decide_eq_true final
  have unheld : (system id partsOfBoth).machine.Along Unheld start apart := by decide +kernel
  obtain ⟨once, settled⟩ := submit_once_iff run
  exact ⟨c, run, once unheld, (settled finished).mp unheld, created⟩

/-- Two tasks for one key. -/
theorem submit_twice :
    ∃ c, (system id partsOfBoth).machine.exec start together = some c ∧
      c.world.created = ["t2", "t1"] ∧ c.world.published = ["t2", "t1"] ∧
      c.world.answers = [(second, "t2"), (first, "t1")] ∧ ¬ Once c.world := by
  have ends : ((system id partsOfBoth).machine.exec start together).any (fun c =>
      decide (c.world.created = ["t2", "t1"] ∧ c.world.published = ["t2", "t1"] ∧
        c.world.answers = [(second, "t2"), (first, "t1")])) = true := by decide +kernel
  obtain ⟨c, run, final⟩ := (Option.any_eq_true _ _).mp ends
  obtain ⟨created, published, answers⟩ := of_decide_eq_true final
  refine ⟨c, run, created, published, answers, ?_⟩
  rintro ⟨taskId, sublist, -⟩
  rw [created] at sublist
  have short := sublist.length_le
  simp at short

end ConcurrentSubmit
end Nl2SqlAgent

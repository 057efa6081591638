import Nl2SqlAgent.ResultCache

/-! Where the results in the cache come from: every one is that of an engine run that
ended as a success, for the question and the database that it is found under. -/
namespace Nl2SqlAgent

open Lib

namespace ResultCache

open TaskLifecycle (Submission Stamp Task TaskEvent Entry cacheKey recorded)

variable {timing : Timing} {env : Env} {w w' : World}

/-- The document returns the statement and the result; a missing result is written back
as an empty object. -/
def Gives (d : Doc) (sql : String) (result : Json) : Prop :=
  d.lookup "sql" = some (.str sql) ∧ ∃ stored, d.lookup "exec_result" = some stored ∧
    (result = stored ∨ (stored = .null ∧ result = .obj []))

/-- Behind every success and every cache entry there is a run with their result. -/
structure Traced (env : Env) (w : World) : Prop where
  sound : TaskLifecycle.WorldSound env w.base
  runs : ∀ run ∈ w.runs, TaskStore.status run.doc = "SUCCESS" ∧ (w.base.tasks run.task).isSome
  success : ∀ id t, w.base.tasks id = some t → TaskStore.status t.doc = "SUCCESS" →
    ∃ run ∈ w.runs, w.results id = some run ∧
      ∀ sql result, Gives t.doc sql result → Gives run.doc sql result
  cached : ∀ key entry, w.base.qcache key = some entry →
    ∃ run ∈ w.runs, ∃ id, w.entries key = some (run, id) ∧ (w.base.tasks id).isSome ∧
      Gives run.doc entry.sql entry.execResult

/-- What the recorder writes back is what the success holds, under its question and
database. -/
theorem recorded_gives {d : Doc} {url : Option String} {key : String} {entry : Entry}
    (holds : TaskStore.status d = "SUCCESS" → TaskLifecycle.Holds env url d)
    (stored : recorded d = some (key, entry)) :
    TaskStore.status d = "SUCCESS" ∧ Gives d entry.sql entry.execResult ∧
      ∀ question dbId, d.lookup "question" = some (.str question) →
        d.lookup "db_id" = some (.str dbId) → key = cacheKey (some question) (some dbId) := by
  simp only [recorded, Option.bind_eq_bind, Option.bind_eq_some_iff, Option.guard_eq_some',
    Option.pure_def, Option.some.injEq, Prod.mk.injEq] at stored
  obtain ⟨s, decoded, sql, some_sql, usage, -, timings, -, -, ⟨success, -⟩, rfl, rfl⟩ := stored
  have status := TaskLifecycle.decoded_status decoded success
  obtain ⟨sql', result, origin, sql_found, result_found, -⟩ := holds status
  have fields := JavaTaskState.decode_decoded decoded
  have same_sql := fields.sql.same TaskStore.text sql_found JavaTaskState.readText_inverse
  have same_result := fields.execResult.same id result_found fun read => (Option.some.inj read).symm
  rw [some_sql] at same_sql
  obtain rfl : sql = sql' := Json.str.inj same_sql
  obtain rfl : s.execResult = result := same_result
  refine ⟨status, ⟨sql_found, s.execResult, result_found, ?_⟩, ?_⟩
  · split
    next null => exact .inr ⟨null, rfl⟩
    next => exact .inl rfl
  · intro question dbId question_found dbId_found
    have same_question := fields.question.same TaskStore.text question_found
      JavaTaskState.readText_inverse
    have same_dbId := fields.dbId.same TaskStore.text dbId_found JavaTaskState.readText_inverse
    rw [TaskLifecycle.text_inj (b := some question) same_question,
      TaskLifecycle.text_inj (b := some dbId) same_dbId]

theorem set_cases {id other : String} {t u : Task} {base : TaskLifecycle.World}
    (found : (base.set id t).tasks other = some u) :
    (other = id ∧ u = t) ∨ (other ≠ id ∧ base.tasks other = some u) := by
  by_cases same : other = id
  · subst same
    simp only [TaskLifecycle.World.set, Function.update_self, Option.some.injEq] at found
    exact .inl ⟨rfl, found.symm⟩
  · simp only [TaskLifecycle.World.set, Function.update_of_ne same] at found
    exact .inr ⟨same, found⟩

theorem set_isSome {id other : String} {t : Task} {base : TaskLifecycle.World}
    (present : (base.tasks other).isSome) : ((base.set id t).tasks other).isSome := by
  by_cases same : other = id
  · subst same
    simp [TaskLifecycle.World.set]
  · simpa only [TaskLifecycle.World.set, Function.update_of_ne same] using present

/-- A task that is answered from the cache holds the entry's result. -/
theorem submitted_hit {base : TaskLifecycle.World} {id : String} {s : Submission} {stamp : Stamp}
    {entry : Entry} (cached : base.qcache (cacheKey (some s.question) s.dbId) = some entry) :
    (TaskLifecycle.submitted base id s stamp .gateway).doc =
      JavaTaskState.encode (JavaTaskState.createFromCache id s.question (s.dbId.getD "") stamp.now
        (some entry.sql) entry.execResult (some entry.tokenUsage) (some entry.nodeTimings)) := by
  simp only [TaskLifecycle.submitted, cached]

theorem hit_gives {id now : String} {s : Submission} {entry : Entry} {sql : String} {result : Json}
    {d : Doc} (gives : Gives (JavaTaskState.encode (JavaTaskState.createFromCache id s.question
      (s.dbId.getD "") now (some entry.sql) entry.execResult (some entry.tokenUsage)
      (some entry.nodeTimings))) sql result) (earlier : Gives d entry.sql entry.execResult) :
    Gives d sql result := by
  obtain ⟨found, stored, kept, same⟩ := gives
  have held (key : String) (value : Json) (member : (key, value) ∈ [("sql", Json.str entry.sql),
      ("exec_result", entry.execResult)]) :
      (JavaTaskState.encode (JavaTaskState.createFromCache id s.question (s.dbId.getD "") now
        (some entry.sql) entry.execResult (some entry.tokenUsage) (some entry.nodeTimings))).lookup
        key = some value := by
    apply JavaTaskState.encode_lookup
    simp only [List.mem_cons, List.not_mem_nil, or_false, Prod.mk.injEq] at member
    rcases member with ⟨rfl, rfl⟩ | ⟨rfl, rfl⟩ <;>
      simp [JavaTaskState.baseFields, JavaTaskState.createFromCache, TaskStore.text]
  rw [held "sql" (.str entry.sql) (by simp)] at found
  rw [held "exec_result" entry.execResult (by simp)] at kept
  obtain rfl : entry.sql = sql := Json.str.inj (Option.some.inj found)
  obtain rfl : entry.execResult = stored := Option.some.inj kept
  obtain ⟨statement, stored, kept, origin⟩ := earlier
  refine ⟨statement, stored, kept, ?_⟩
  rcases same with rfl | ⟨null, rfl⟩
  · exact origin
  · rcases origin with same | ⟨-, empty⟩
    · exact .inr ⟨same.symm.trans null, rfl⟩
    · rw [null] at empty
      contradiction

/-- A task that was not answered from the cache is not done yet. -/
theorem submitted_fresh {w : World} {endpoint : TaskThreads.Endpoint} {s : Submission} (id : String)
    (stamp : Stamp) (missed : hits w endpoint s = false) :
    TaskStore.status (TaskLifecycle.submitted w.base id s stamp endpoint).doc = "PENDING" := by
  cases endpoint with
  | api =>
    rw [TaskStore.status, show
      (TaskLifecycle.submitted w.base id s stamp .api).doc.lookup "status" =
      some (.str "PENDING") from Doc.lookup_update_mem _ _ _ _ (by simp) (by simp)]
  | gateway =>
    cases cached : w.base.qcache (cacheKey (some s.question) s.dbId) with
    | some entry => simp [hits, cached] at missed
    | none =>
      have made : (TaskLifecycle.submitted w.base id s stamp .gateway).doc =
          JavaTaskState.encode (JavaTaskState.create id s.question (s.dbId.getD "")
            (s.databaseUrl.getD "") stamp.now) := by
        simp only [TaskLifecycle.submitted, cached]
      have pending : (JavaTaskState.encode (JavaTaskState.create id s.question (s.dbId.getD "")
          (s.databaseUrl.getD "") stamp.now)).lookup "status" = some (.str "PENDING") := by
        apply JavaTaskState.encode_lookup
        simp [JavaTaskState.baseFields, JavaTaskState.create, TaskStore.text]
      rw [made, TaskStore.status, pending]

theorem Traced.tick (traced : Traced env w) {ms : Nat} (ticked : tick timing w ms = some w') :
    Traced env w' := by
  obtain ⟨-, same⟩ := Option.ite_none_right_eq_some.mp ticked
  obtain rfl := Option.some.inj same
  have older (key : String) (entry : Entry)
      (cached : (if w.expires key ≤ w.now + ms then none else w.base.qcache key) = some entry) :
      w.base.qcache key = some entry := (Option.ite_none_left_eq_some.mp cached).2
  exact ⟨⟨traced.sound.tasks,
    fun key entry cached => traced.sound.cache key entry (older key entry cached)⟩,
    traced.runs, traced.success,
      fun key entry cached => traced.cached key entry (older key entry cached)⟩

theorem Traced.submit (traced : Traced env w) {endpoint : TaskThreads.Endpoint} {id : String}
    {s : Submission} {stamp : Stamp} (submitted : submit w endpoint id s stamp = some w') :
    Traced env w' := by
  obtain ⟨fresh, same⟩ := Option.ite_none_right_eq_some.mp submitted
  obtain rfl := Option.some.inj same
  obtain ⟨url, fine⟩ := traced.sound.submitted id s stamp endpoint
  refine ⟨traced.sound.set id fine, ?_, ?_, ?_⟩
  · intro run member
    exact ⟨(traced.runs run member).1, set_isSome (traced.runs run member).2⟩
  · intro other t found success
    rcases set_cases found with ⟨rfl, rfl⟩ | ⟨distinct, old⟩
    · by_cases hit : hits w endpoint s = true
      · obtain ⟨rfl, present⟩ : endpoint = .gateway ∧
            (w.base.qcache (cacheKey (some s.question) s.dbId)).isSome := of_decide_eq_true hit
        obtain ⟨entry, cached⟩ := Option.isSome_iff_exists.mp present
        obtain ⟨run, member, writer, kept, -, gives⟩ := traced.cached _ entry cached
        refine ⟨run, member, ?_, ?_⟩
        · simp only [hit, kept, if_true, Function.update_self, Option.map_some]
        · intro sql result shown
          rw [submitted_hit cached] at shown
          exact hit_gives shown gives
      · have pending := submitted_fresh other stamp (Bool.eq_false_iff.mpr hit)
        rw [pending] at success
        exact absurd success (by decide)
    · obtain ⟨run, member, kept, gives⟩ := traced.success other t old success
      refine ⟨run, member, ?_, gives⟩
      simp only
      split
      · rw [Function.update_of_ne distinct, kept]
      · exact kept
  · intro key entry cached
    obtain ⟨run, member, writer, kept, present, gives⟩ := traced.cached key entry cached
    exact ⟨run, member, writer, kept, set_isSome present, gives⟩

theorem Traced.task (traced : Traced env w) {id : String} {event : TaskEvent} {stamp : Stamp}
    (moved : task env w id event stamp = some w') : Traced env w' := by
  simp only [ResultCache.task, Option.bind_eq_bind, Option.bind_eq_some_iff, Option.some.injEq]
    at moved
  obtain ⟨t, found, t', stepped, rfl⟩ := moved
  obtain ⟨url, fine⟩ := traced.sound.tasks id t found
  have newer (run : Run) (member : run ∈ w.runs) :
      run ∈ if succeeds t' event then ⟨id, t'.doc, w.now⟩ :: w.runs else w.runs := by
    split
    · exact List.mem_cons_of_mem _ member
    · exact member
  refine ⟨traced.sound.set id (fine.step stepped), ?_, ?_, ?_⟩
  · intro run member
    have old (member : run ∈ w.runs) : TaskStore.status run.doc = "SUCCESS" ∧
        ((w.base.set id t').tasks run.task).isSome :=
      ⟨(traced.runs run member).1, set_isSome (traced.runs run member).2⟩
    simp only at member
    split at member
    next succeeded =>
      rcases List.mem_cons.mp member with rfl | earlier
      · refine ⟨?_, by simp [TaskLifecycle.World.set]⟩
        cases event with
        | succeed => exact of_decide_eq_true succeeded
        | _ => contradiction
      · exact old earlier
    next => exact old member
  · intro other u present success
    rcases set_cases present with ⟨rfl, rfl⟩ | ⟨distinct, old⟩
    · by_cases succeeded : succeeds u event = true
      · refine ⟨⟨other, u.doc, w.now⟩, ?_, ?_, fun sql result gives => gives⟩
        · simp only [succeeded, if_true, List.mem_cons_self]
        · simp only [succeeded, if_true, Function.update_self]
      · rcases success_step fine stepped success with rfl | ⟨same, -⟩
        · exact absurd (decide_eq_true success) succeeded
        · rw [same] at success
          obtain ⟨run, member, kept, gives⟩ := traced.success other t found success
          refine ⟨run, newer run member, ?_,
            fun sql result shown => gives sql result (same ▸ shown)⟩
          simp only [succeeded]
          exact kept
    · obtain ⟨run, member, kept, gives⟩ := traced.success other u old success
      refine ⟨run, newer run member, ?_, gives⟩
      simp only
      split
      · rw [Function.update_of_ne distinct, kept]
      · exact kept
  · intro key entry cached
    obtain ⟨run, member, writer, kept, present, gives⟩ := traced.cached key entry cached
    exact ⟨run, newer run member, writer, kept, set_isSome present, gives⟩

theorem Traced.unmark (traced : Traced env w) (id : String) : Traced env (w.unmark id) :=
  ⟨traced.sound, traced.runs, traced.success, traced.cached⟩

theorem flush_cases {id : String} {life : Nat} (flushed : flush timing w id life = some w') :
    id ∈ w.dirty.map Prod.fst ∧ jitters timing life = true ∧ (w' = w.unmark id ∨
      ∃ t key entry, w.base.tasks id = some t ∧ recorded t.doc = some (key, entry) ∧
        w' = (w.unmark id).put id key entry life) := by
  obtain ⟨⟨marked, jittered⟩, flushed⟩ := Option.ite_none_right_eq_some.mp flushed
  refine ⟨marked, jittered, ?_⟩
  split at flushed
  next key entry found =>
    obtain ⟨t, present, stored⟩ := Option.bind_eq_some_iff.mp found
    exact .inr ⟨t, key, entry, present, stored, (Option.some.inj flushed).symm⟩
  next => exact .inl (Option.some.inj flushed).symm

theorem Traced.flush (traced : Traced env w) {id : String} {life : Nat}
    (flushed : flush timing w id life = some w') : Traced env w' := by
  obtain ⟨-, -, rfl | ⟨t, key, entry, found, stored, rfl⟩⟩ := flush_cases flushed
  · exact traced.unmark id
  · obtain ⟨url, fine⟩ := traced.sound.tasks id t found
    obtain ⟨status, gives, -⟩ := recorded_gives fine.stage.holds stored
    obtain ⟨run, member, kept, earlier⟩ := traced.success id t found status
    refine ⟨⟨traced.sound.tasks, ?_⟩, traced.runs, traced.success, ?_⟩
    · intro other kept cached
      by_cases same : other = key
      · subst same
        simp only [World.put, World.unmark, Function.update_self, Option.some.injEq] at cached
        exact cached ▸ TaskLifecycle.recorded_earned fine.stage.holds stored
      · simp only [World.put, World.unmark, Function.update_of_ne same] at cached
        exact traced.sound.cache other kept cached
    · intro other kept' cached
      by_cases same : other = key
      · subst same
        simp only [World.put, World.unmark, Function.update_self, Option.some.injEq] at cached
        refine ⟨run, member, id, ?_, ?_, cached ▸ earlier _ _ gives⟩
        · simp only [World.put, World.unmark, Function.update_self, kept, Option.map_some]
        · simp [World.put, World.unmark, found]
      · simp only [World.put, World.unmark, Function.update_of_ne same] at cached
        obtain ⟨run, member, writer, kept, present, gives⟩ := traced.cached other kept' cached
        refine ⟨run, member, writer, ?_, present, gives⟩
        simp only [World.put, World.unmark, Function.update_of_ne same, kept]

theorem Traced.step (traced : Traced env w) {event : Event}
    (stepped : step timing env w event = some w') : Traced env w' := by
  cases event with
  | tick ms => exact traced.tick stepped
  | submit endpoint id s stamp => exact traced.submit stepped
  | task id event stamp => exact traced.task stepped
  | flush id life => exact traced.flush stepped
  | forget id =>
    obtain rfl := Option.some.inj stepped
    exact traced.unmark id

theorem start_traced : Traced env start :=
  ⟨TaskLifecycle.start_sound, fun _ member => (nomatch member), fun _ _ found => (nomatch found),
    fun _ _ cached => (nomatch cached)⟩

/-- `question.length()`. -/
def units (question : String) : Nat :=
  (question.toList.map fun c => if c.val < 0x10000 then 1 else 2).sum

/-- No question is longer than what a task keeps of it. -/
def Short (_ : World) (event : Event) (_ : World) : Prop :=
  match event with
  | .submit _ _ s _ => units s.question ≤ 200
  | _ => True

/-- What a new task holds of a short question. -/
theorem submitted_fields {base : TaskLifecycle.World} {id : String} {s : Submission} {stamp : Stamp}
    (endpoint : TaskThreads.Endpoint) (short : units s.question ≤ 200) :
    (TaskLifecycle.submitted base id s stamp endpoint).doc.lookup "question" =
        some (.str s.question) ∧
      (TaskLifecycle.submitted base id s stamp endpoint).doc.lookup "db_id" =
        some (.str (s.dbId.getD "")) := by
  have stored : JavaTaskState.storedQuestion s.question = s.question := by
    rw [JavaTaskState.storedQuestion, JavaTaskState.utf16Prefix_short short, String.ofList_toList]
  cases endpoint with
  | api =>
    have kept : Py.take 200 s.question = s.question := by
      have long := JavaTaskState.length_le_width s.question.toList
      rw [Py.take, List.take_of_length_le (long.trans short), String.ofList_toList]
    have written (key : String) (value : Json) (member : (key, value) ∈ [("question",
        Json.str (Py.take 200 s.question)), ("db_id", .str (s.dbId.getD ""))]) :
        (TaskLifecycle.submitted base id s stamp .api).doc.lookup key = some value := by
      apply Doc.lookup_update_mem _ _ _ _ (by simp)
      simp only [List.mem_cons, List.not_mem_nil, or_false, Prod.mk.injEq] at member
      rcases member with ⟨rfl, rfl⟩ | ⟨rfl, rfl⟩ <;> simp
    exact ⟨written _ _ (by simp [kept]), written _ _ (by simp)⟩
  | gateway =>
    cases cached : base.qcache (cacheKey (some s.question) s.dbId) with
    | some entry =>
      rw [submitted_hit cached]
      constructor <;> apply JavaTaskState.encode_lookup <;>
        simp [JavaTaskState.baseFields, JavaTaskState.createFromCache, TaskStore.text, stored]
    | none =>
      simp only [TaskLifecycle.submitted, cached]
      constructor <;> apply JavaTaskState.encode_lookup <;>
        simp [JavaTaskState.baseFields, JavaTaskState.create, TaskStore.text, stored]

/-- What a submit is looked up under. -/
def keyOf (s : Submission) : String := cacheKey (some s.question) s.dbId

/-- The run was for what the task is looked up under. -/
structure Alike (tasks : String → Option Task) (submissions : String → Option Submission)
    (id : String) (run : Run) : Prop where
  present : (tasks id).isSome
  ran : (tasks run.task).isSome
  same : (submissions run.task).map keyOf = (submissions id).map keyOf

/-- Tasks carry what was submitted; results and entries stem from runs for the same key. -/
structure Keyed (w : World) : Prop where
  named : ∀ id t, w.base.tasks id = some t → ∃ s, w.submissions id = some s ∧
    t.doc.lookup "question" = some (.str s.question) ∧
    t.doc.lookup "db_id" = some (.str (s.dbId.getD ""))
  results : ∀ id run, w.results id = some run →
    Alike w.base.tasks w.submissions id run
  entries : ∀ key run id, w.entries key = some (run, id) → (w.base.tasks run.task).isSome ∧
    (w.base.tasks id).isSome ∧ (w.submissions run.task).map keyOf = some key ∧
    (w.submissions id).map keyOf = some key

theorem other_of_fresh {w : World} {id other : String} (fresh : (w.base.tasks id).isNone)
    (present : (w.base.tasks other).isSome) : other ≠ id := by
  rintro rfl
  rw [Option.isNone_iff_eq_none.mp fresh] at present
  contradiction

theorem Keyed.submit (keyed : Keyed w) {endpoint : TaskThreads.Endpoint} {id : String}
    {s : Submission} {stamp : Stamp} (short : units s.question ≤ 200)
    (submitted : submit w endpoint id s stamp = some w') : Keyed w' := by
  obtain ⟨fresh, same⟩ := Option.ite_none_right_eq_some.mp submitted
  obtain rfl := Option.some.inj same
  have others (other : String) (present : (w.base.tasks other).isSome) :
      Function.update w.submissions id (some s) other = w.submissions other :=
    Function.update_of_ne (other_of_fresh fresh present) _ _
  refine ⟨?_, ?_, ?_⟩
  · intro other t found
    rcases set_cases found with ⟨rfl, rfl⟩ | ⟨distinct, old⟩
    · exact ⟨s, by simp, submitted_fields endpoint short⟩
    · obtain ⟨s₀, named⟩ := keyed.named other t old
      exact ⟨s₀, by simpa only [Function.update_of_ne distinct] using named⟩
  · intro other run behind
    have alike (behind : w.results other = some run) :
        Alike w.base.tasks (Function.update w.submissions id (some s)) other run := by
      obtain ⟨present, ran, same⟩ := keyed.results other run behind
      exact ⟨present, ran, by rw [others _ ran, others _ present, same]⟩
    simp only at behind
    split at behind
    next hit =>
      by_cases mine : other = id
      · subst mine
        rw [Function.update_self] at behind
        obtain ⟨⟨_, writer⟩, kept, rfl⟩ := Option.map_eq_some_iff.mp behind
        obtain ⟨ran, -, agree, -⟩ := keyed.entries _ _ _ kept
        refine ⟨by simp [TaskLifecycle.World.set], set_isSome ran, ?_⟩
        simp only [others _ ran, agree, Function.update_self]
        rfl
      · rw [Function.update_of_ne mine] at behind
        obtain ⟨present, ran, same⟩ := alike behind
        exact ⟨set_isSome present, set_isSome ran, same⟩
    next =>
      obtain ⟨present, ran, same⟩ := alike behind
      exact ⟨set_isSome present, set_isSome ran, same⟩
  · intro key run writer kept
    obtain ⟨ran, present, agree, agree'⟩ := keyed.entries key run writer kept
    refine ⟨set_isSome ran, set_isSome present, ?_, ?_⟩
    · simp only [others _ ran, agree]
    · simp only [others _ present, agree']

theorem Keyed.task (keyed : Keyed w) (traced : Traced env w) {id : String} {event : TaskEvent}
    {stamp : Stamp} (moved : task env w id event stamp = some w') : Keyed w' := by
  simp only [ResultCache.task, Option.bind_eq_bind, Option.bind_eq_some_iff, Option.some.injEq]
    at moved
  obtain ⟨t, found, t', stepped, rfl⟩ := moved
  obtain ⟨url, fine⟩ := traced.sound.tasks id t found
  refine ⟨?_, ?_, ?_⟩
  · intro other u present
    rcases set_cases present with ⟨rfl, rfl⟩ | ⟨-, old⟩
    · obtain ⟨s, submitted, question, dbId⟩ := keyed.named other t found
      have carried := (step_writes stepped).carried fine.known.written
      exact ⟨s, submitted, carried _ (by simp) _ question, carried _ (by simp) _ dbId⟩
    · exact keyed.named other u old
  · intro other run behind
    simp only at behind
    split at behind
    · by_cases mine : other = id
      · subst mine
        rw [Function.update_self] at behind
        obtain rfl := Option.some.inj behind
        exact ⟨by simp [TaskLifecycle.World.set], by simp [TaskLifecycle.World.set], rfl⟩
      · rw [Function.update_of_ne mine] at behind
        obtain ⟨present, ran, same⟩ := keyed.results other run behind
        exact ⟨set_isSome present, set_isSome ran, same⟩
    · obtain ⟨present, ran, same⟩ := keyed.results other run behind
      exact ⟨set_isSome present, set_isSome ran, same⟩
  · intro key run writer kept
    obtain ⟨ran, present, agree⟩ := keyed.entries key run writer kept
    exact ⟨set_isSome ran, set_isSome present, agree⟩

theorem Keyed.flush (keyed : Keyed w) (traced : Traced env w) {id : String} {life : Nat}
    (flushed : flush timing w id life = some w') : Keyed w' := by
  obtain ⟨-, -, rfl | ⟨t, key, entry, found, stored, rfl⟩⟩ := flush_cases flushed
  · exact ⟨keyed.named, keyed.results, keyed.entries⟩
  · refine ⟨keyed.named, keyed.results, ?_⟩
    intro other run writer kept
    by_cases same : other = key
    · subst same
      simp only [World.put, World.unmark, Function.update_self] at kept
      obtain ⟨_, behind, pair⟩ := Option.map_eq_some_iff.mp kept
      obtain ⟨rfl, rfl⟩ := Prod.mk.inj pair
      obtain ⟨present, ran, agree⟩ := keyed.results _ _ behind
      obtain ⟨url, fine⟩ := traced.sound.tasks _ t found
      obtain ⟨-, -, under⟩ := recorded_gives fine.stage.holds stored
      obtain ⟨s, submitted, question, dbId⟩ := keyed.named _ t found
      have own : (w.submissions id).map keyOf = some other := by
        rw [submitted, Option.map_some, under _ _ question dbId]
        rfl
      exact ⟨ran, present, agree.trans own, own⟩
    · simp only [World.put, World.unmark, Function.update_of_ne same] at kept
      exact keyed.entries other run writer kept

theorem Keyed.step (keyed : Keyed w) (traced : Traced env w) {event : Event}
    (stepped : step timing env w event = some w') (short : Short w event w') : Keyed w' := by
  cases event with
  | tick ms =>
    obtain ⟨-, same⟩ := Option.ite_none_right_eq_some.mp stepped
    obtain rfl := Option.some.inj same
    exact ⟨keyed.named, keyed.results, keyed.entries⟩
  | submit endpoint id s stamp => exact keyed.submit short stepped
  | task id event stamp => exact keyed.task traced stepped
  | flush id life => exact keyed.flush traced stepped
  | forget id =>
    obtain rfl := Option.some.inj stepped
    exact ⟨keyed.named, keyed.results, keyed.entries⟩

theorem start_keyed : Keyed start :=
  ⟨fun _ _ found => (nomatch found), fun _ _ behind => (nomatch behind),
    fun _ _ _ kept => (nomatch kept)⟩

theorem keyOf_inj {s s' : Submission} (same : keyOf s = keyOf s') (plain : '|' ∉ s.question.toList)
    (plain' : '|' ∉ s'.question.toList) :
    s.question = s'.question ∧ s.dbId.getD "" = s'.dbId.getD "" := by
  have chars : s.question.toList ++ '|' :: (s.dbId.getD "").toList =
      s'.question.toList ++ '|' :: (s'.dbId.getD "").toList := by
    simpa [keyOf, cacheKey] using congrArg String.toList same
  obtain ⟨questions, dbs⟩ := Py.separated_inj chars plain plain'
  exact ⟨String.toList_inj.mp questions, String.toList_inj.mp dbs⟩

theorem run_traced_keyed {events : List Event}
    (short : (machine timing env).Along Short start events)
    (run : (machine timing env).exec start events = some w) : Traced env w ∧ Keyed w :=
  Machine.invariant_along (fun w => Traced env w ∧ Keyed w)
    (fun _ _ _ holds stepped short => ⟨holds.1.step stepped, holds.2.step holds.1 stepped short⟩)
    ⟨start_traced, start_keyed⟩ short run

/-- The successful run behind an entry, and what its task was submitted for. -/
theorem entry_origin (traced : Traced env w) (keyed : Keyed w) {key : String} {entry : Entry}
    (cached : w.base.qcache key = some entry) :
    ∃ r ∈ w.runs, ∃ s₀, w.submissions r.task = some s₀ ∧ TaskStore.status r.doc = "SUCCESS" ∧
      Gives r.doc entry.sql entry.execResult ∧ keyOf s₀ = key := by
  obtain ⟨r, member, writer, kept, -, gives⟩ := traced.cached _ entry cached
  obtain ⟨-, -, under, -⟩ := keyed.entries _ r writer kept
  obtain ⟨s₀, submitted, same⟩ := Option.map_eq_some_iff.mp under
  exact ⟨r, member, s₀, submitted, (traced.runs r member).1, gives, same⟩

/-- Where all questions are short, a submit that the cache can answer gets the result of
a run for the same question and database, and every entry is found by a submit like the
one whose task it was written back from. -/
theorem cache_provenance {events : List Event}
    (short : (machine timing env).Along Short start events)
    (run : (machine timing env).exec start events = some w) :
    (∀ s entry, w.base.qcache (keyOf s) = some entry →
      ∃ r ∈ w.runs, ∃ s₀, w.submissions r.task = some s₀ ∧ TaskStore.status r.doc = "SUCCESS" ∧
        Gives r.doc entry.sql entry.execResult ∧ keyOf s₀ = keyOf s ∧
        ('|' ∉ s₀.question.toList → '|' ∉ s.question.toList →
          s₀.question = s.question ∧ s₀.dbId.getD "" = s.dbId.getD "")) ∧
    ∀ key entry, w.base.qcache key = some entry → ∃ r id s, w.entries key = some (r, id) ∧
      w.submissions id = some s ∧ ∀ id' stamp,
        (TaskLifecycle.submitted w.base id' s stamp .gateway).doc =
          JavaTaskState.encode (JavaTaskState.createFromCache id' s.question (s.dbId.getD "")
            stamp.now (some entry.sql) entry.execResult (some entry.tokenUsage)
            (some entry.nodeTimings)) := by
  obtain ⟨traced, keyed⟩ := run_traced_keyed short run
  constructor
  · intro s entry cached
    obtain ⟨r, member, s₀, submitted, success, gives, same⟩ := entry_origin traced keyed cached
    exact ⟨r, member, s₀, submitted, success, gives, same, keyOf_inj same⟩
  · intro key entry cached
    obtain ⟨r, -, writer, kept, -, -⟩ := traced.cached key entry cached
    obtain ⟨-, -, -, under⟩ := keyed.entries key r writer kept
    obtain ⟨s, submitted, rfl⟩ := Option.map_eq_some_iff.mp under
    exact ⟨r, writer, s, kept, submitted, fun id' stamp => submitted_hit cached⟩

/-- The configured lifetime; a flush starts two seconds after the last, which takes two
at most. -/
def configured : Timing := ⟨1800, 4000⟩

def asked : Submission := { question := "How many orders?", dbId := some "shop" }

/-- A submit, its handling and the flush after it. -/
def handled (s : Submission) : List Event :=
  [.submit .gateway "t1" s {}, .task "t1" (.take 0 { question := "" }) {}] ++
    (AgentGraph.offlineVisits.map fun v => .task "t1" (.visit v) {}) ++
    [.task "t1" .finish {}, .task "t1" .succeed {}, .flush "t1" 1800000]

def answered : List Event := handled asked

theorem answered_cached :
    ∃ w, (machine configured .plain).exec start answered = some w ∧
      (∃ entry, w.base.qcache (keyOf asked) = some entry) ∧ w.runs.map Run.task = ["t1"] ∧
      w.submissions "t1" = some asked := by
  have ends : ((machine configured .plain).exec start answered).any (fun w =>
      (w.base.qcache (keyOf asked)).isSome ∧ w.runs.map Run.task = ["t1"] ∧
        w.submissions "t1" = some asked) = true := by decide +kernel
  obtain ⟨w, run, final⟩ := (Option.any_eq_true _ _).mp ends
  obtain ⟨cached, runs, submitted⟩ := of_decide_eq_true final
  exact ⟨w, run, Option.isSome_iff_exists.mp cached, runs, submitted⟩

instance (w : World) (event : Event) (w' : World) : Decidable (Short w event w') :=
  match event with
  | .submit _ _ s _ => inferInstanceAs (Decidable (units s.question ≤ 200))
  | .tick _ | .task .. | .flush .. | .forget _ => isTrue trivial

theorem cache_provenance_answered :
    ∃ w entry, (machine configured .plain).exec start answered = some w ∧
      w.base.qcache (keyOf asked) = some entry ∧
      ∃ r ∈ w.runs, TaskStore.status r.doc = "SUCCESS" ∧
        Gives r.doc entry.sql entry.execResult := by
  obtain ⟨w, run, ⟨entry, cached⟩, -⟩ := answered_cached
  obtain ⟨r, member, s₀, -, success, gives, -⟩ :=
    (cache_provenance (by decide +kernel) run).1 asked entry cached
  exact ⟨w, entry, run, cached, r, member, success, gives⟩

/-- The same question for another database with the same id. -/
def elsewhere : Submission := { asked with databaseUrl := some "sqlite:///archive.db" }

/-- One task has run, for what was submitted. -/
theorem only_submission {s : Submission} (runs : w.runs.map Run.task = ["t1"])
    (submitted : w.submissions "t1" = some s) :
    ∀ r ∈ w.runs, ∀ s₀, w.submissions r.task = some s₀ → s₀ = s := by
  intro r member s₀ behind
  have listed := List.mem_map_of_mem (f := Run.task) member
  rw [runs, List.mem_singleton] at listed
  rw [listed, submitted] at behind
  exact (Option.some.inj behind).symm

/-- A question of 201 characters, and its first 200. -/
def lengthy : Submission := { asked with question := String.ofList (List.replicate 201 'n') }

def shortened : Submission := { asked with question := String.ofList (List.replicate 200 'n') }

/-- A submit is answered with the result for another database; and the result for a long
question is not found under it, but answers another question. -/
theorem cache_misanswers :
    (∃ w entry, (machine configured .plain).exec start answered = some w ∧
      w.base.qcache (keyOf elsewhere) = some entry ∧
      ∀ r ∈ w.runs, ∀ s₀, w.submissions r.task = some s₀ →
        s₀.databaseUrl ≠ elsewhere.databaseUrl) ∧
    ∃ w entry, (machine configured .plain).exec start (handled lengthy) = some w ∧
      w.base.qcache (keyOf lengthy) = none ∧ w.base.qcache (keyOf shortened) = some entry ∧
      ∀ r ∈ w.runs, ∀ s₀, w.submissions r.task = some s₀ → s₀.question ≠ shortened.question := by
  constructor
  · obtain ⟨w, run, ⟨entry, cached⟩, runs, submitted⟩ := answered_cached
    refine ⟨w, entry, run, cached, fun r member s₀ behind => ?_⟩
    obtain rfl := only_submission runs submitted r member s₀ behind
    decide
  · have ends : ((machine configured .plain).exec start (handled lengthy)).any (fun w =>
        (w.base.qcache (keyOf lengthy)).isNone ∧ (w.base.qcache (keyOf shortened)).isSome ∧
          w.runs.map Run.task = ["t1"] ∧ w.submissions "t1" = some lengthy) = true := by
      decide +kernel
    obtain ⟨w, run, final⟩ := (Option.any_eq_true _ _).mp ends
    obtain ⟨missed, found, runs, submitted⟩ := of_decide_eq_true final
    obtain ⟨entry, cached⟩ := Option.isSome_iff_exists.mp found
    refine ⟨w, entry, run, Option.isNone_iff_eq_none.mp missed, cached,
      fun r member s₀ behind => ?_⟩
    obtain rfl := only_submission runs submitted r member s₀ behind
    decide +kernel

end ResultCache
end Nl2SqlAgent

import Nl2SqlAgent.Lib.Sorting
import Nl2SqlAgent.SchemaContext

/-! Column pruning and the compact DDL (`retrieval/column_prune.py`) for every question and any
limits: which columns are kept of a table, and which foreign keys the DDL declares. -/
namespace Nl2SqlAgent

open Lib

namespace ColumnPruning

open FkGraph SchemaContext

/-- `[一-鿿]`. -/
def isHan (c : Char) : Bool := 0x4E00 ≤ c.val && c.val ≤ 0x9FFF

/-- The bigrams of a run of Chinese characters, and the characters. -/
def hanTokens (seg : String) : List String :=
  (seg.toList.zip seg.toList.tail).map (fun pair => String.ofList [pair.1, pair.2]) ++
    seg.toList.map fun c => String.ofList [c]

def tokenize (case : Py.Case) (text : String) : Finset String :=
  (Py.runs Py.isWordChar (case.lower text) ++ (Py.runs isHan text).flatMap hanTokens).toFinset

def scoreColumn (case : Py.Case) (colName tableName : String) (questionTokens : Finset String) : ℕ :=
  (questionTokens ∩ tokenize case (tableName ++ " " ++ colName)).card

abbrev names (table : Table) : List String := table.columns.map Column.name

/-- `pk_cols | fk_cols`. -/
def mandatory (table : Table) : Finset String :=
  (table.pkCols ++ table.fks.flatMap ForeignKey.constrainedColumns).toFinset

/-- The columns that `prune_columns` keeps of a table. -/
def keep (maxColsPerTable maxColsThreshold : ℤ) (score : String → ℕ) (table : Table) : List String :=
  if (table.columns.length : ℤ) ≤ maxColsThreshold then names table
  else
    let scored := (table.columns.filter fun c => c.name ∉ mandatory table).map fun c =>
      (score c.name, c.name)
    let budget := (max 0 (maxColsPerTable - (mandatory table).card)).toNat
    (mandatory table).sort ++ ((scored.mergeSort fun a b => b.1 ≤ a.1).take budget).map Prod.snd

def pruneColumns (rt : Runtime) (info : Info) (question : String) (tableNames : List String)
    (maxColsPerTable : ℤ := 10) (maxColsThreshold : ℤ := 10) : PyDict String (List String) :=
  let qt := tokenize rt.case question
  PyDict.update [] (tableNames.map fun t =>
    (t, ((info.lookup (rt.lower t)).map (keep maxColsPerTable maxColsThreshold fun name =>
      scoreColumn rt.case name t qt)).getD []))

/-- A schema as a database has it: no table has two columns of one name. -/
structure Reflected where
  info : Info
  distinct : ∀ item ∈ info, (names item.2).Nodup

theorem pruneColumns_default (rt : Runtime) (info : Info) (question : String) (tableNames : List String) :
    SchemaContext.pruneColumns rt info
      (fun name t => scoreColumn rt.case name t (tokenize rt.case question)) tableNames =
    pruneColumns rt info question tableNames := by
  have same (t : String) (table : Table) :
      keptColumns (fun name t => scoreColumn rt.case name t (tokenize rt.case question)) t table =
      keep 10 10 (fun name => scoreColumn rt.case name t (tokenize rt.case question)) table := by
    have threshold : (table.columns.length : ℤ) ≤ 10 ↔ table.columns.length ≤ 10 := by omega
    have budget : (max 0 (10 - ((mandatory table).card : ℤ))).toNat = 10 - (mandatory table).card := by
      omega
    simp only [keptColumns, keep, threshold, budget]
    rfl
  simp only [SchemaContext.pruneColumns, pruneColumns, funext fun t => funext (same t)]

section Kept

variable {perTable threshold : ℤ} {score : String → ℕ} {table : Table} {kept : List String}

/-- The columns that compete for the budget. -/
def others (table : Table) : List String := (names table).filter (· ∉ mandatory table)

/-- What is kept of a table, by its size, the limits and the scores of the columns. -/
structure Keeps (perTable threshold : ℤ) (score : String → ℕ) (table : Table) (kept : List String) :
    Prop where
  small : (table.columns.length : ℤ) ≤ threshold → kept = names table
  keys : threshold < table.columns.length →
    ∀ name, name ∈ table.pkCols ∨ (∃ fk ∈ table.fks, name ∈ fk.constrainedColumns) → name ∈ kept
  once : kept.Nodup
  known : kept ⊆ names table
  size : threshold < table.columns.length → (kept.length : ℤ) =
    (mandatory table).card + min (max 0 (perTable - (mandatory table).card)) (others table).length
  best : threshold < table.columns.length →
    ∀ name ∈ kept, name ∉ mandatory table → ∀ dropped ∈ names table, dropped ∉ kept →
      score dropped ≤ score name ∧
        (score dropped = score name → (names table).idxOf name < (names table).idxOf dropped)
  ordered : threshold < table.columns.length →
    (kept.filter (· ∉ mandatory table)).Pairwise fun a b =>
      score b ≤ score a ∧ (score b = score a → (names table).idxOf a < (names table).idxOf b)

theorem mandatory_known (table : Table) {name : String} (member : name ∈ mandatory table) :
    name ∈ names table := by
  rcases List.mem_append.mp (List.mem_toFinset.mp member) with pk | fk
  · exact table.pk_known pk
  · obtain ⟨fk, listed, own⟩ := List.mem_flatMap.mp fk
    exact table.fk_known fk listed own

/-- The order of the scores from the highest. -/
def byScore : Ranking (ℕ × String) := .ofKeyDown Prod.fst

def scored (score : String → ℕ) (table : Table) : List (ℕ × String) :=
  (others table).map fun name => (score name, name)

def budget (perTable : ℤ) (table : Table) : ℕ := (max 0 (perTable - (mandatory table).card)).toNat

/-- The columns of the budget. -/
def chosen (perTable : ℤ) (score : String → ℕ) (table : Table) : List String :=
  ((byScore.sort (scored score table)).take (budget perTable table)).map Prod.snd

theorem keep_large (large : threshold < table.columns.length) :
    keep perTable threshold score table = (mandatory table).sort ++ chosen perTable score table := by
  have candidates : (table.columns.filter fun c => c.name ∉ mandatory table).map (fun c =>
      (score c.name, c.name)) = scored score table := by
    rw [scored, others, names, List.filter_map, List.map_map]
    rfl
  simp only [keep, if_neg large.not_ge, candidates]
  rfl

theorem mem_others {name : String} : name ∈ others table ↔ name ∈ names table ∧ name ∉ mandatory table := by
  simp [others]

theorem mem_sorted {p : ℕ × String} (member : p ∈ byScore.sort (scored score table)) :
    p.1 = score p.2 ∧ p.2 ∈ others table := by
  obtain ⟨name, own, rfl⟩ := List.mem_map.mp ((byScore.sort_perm _).mem_iff.mp member)
  exact ⟨rfl, own⟩

theorem mem_chosen {name : String} (member : name ∈ chosen perTable score table) :
    name ∈ others table := by
  obtain ⟨p, taken, rfl⟩ := List.mem_map.mp member
  exact (mem_sorted (List.mem_of_mem_take taken)).2

theorem chosen_length (perTable : ℤ) (score : String → ℕ) (table : Table) :
    (chosen perTable score table).length = min (budget perTable table) (others table).length := by
  rw [chosen, List.length_map, List.length_take, (byScore.sort_perm _).length_eq, scored,
    List.length_map]

theorem chosen_mandatory : ∀ name ∈ chosen perTable score table, name ∉ mandatory table :=
  fun _ member => (mem_others.mp (mem_chosen member)).2

variable (distinct : (names table).Nodup)
include distinct

theorem scored_pairwise : (scored score table).Pairwise fun a b =>
    (names table).idxOf a.2 < (names table).idxOf b.2 := by
  have whole : (names table).Pairwise fun a b => (names table).idxOf a < (names table).idxOf b := by
    apply List.pairwise_iff_getElem.mpr
    intro i j low low' before
    rwa [distinct.idxOf_getElem i low, distinct.idxOf_getElem j low']
  rw [scored, List.pairwise_map]
  exact whole.filter _

theorem chosen_nodup : (chosen perTable score table).Nodup := by
  have perm : ((byScore.sort (scored score table)).map Prod.snd).Perm (others table) := by
    refine ((byScore.sort_perm _).map Prod.snd).trans (.of_eq ?_)
    rw [scored, List.map_map]
    exact List.map_id _
  rw [chosen, List.map_take]
  exact (perm.nodup_iff.mpr (distinct.filter _)).sublist (List.take_sublist _ _)

/-- By the scores from the highest, and where these are equal in the order of the schema. -/
theorem chosen_pairwise : (chosen perTable score table).Pairwise fun a b =>
    score b ≤ score a ∧ (score b = score a → (names table).idxOf a < (names table).idxOf b) := by
  rw [chosen, List.pairwise_map]
  have ordered : (scored score table).Pairwise _ := scored_pairwise distinct
  have pairs := (byScore.sort_stable ordered).sublist (List.take_sublist (budget perTable table) _)
  refine pairs.imp_of_mem fun {a b} aMember bMember before => ?_
  rw [← (mem_sorted (List.mem_of_mem_take aMember)).1, ← (mem_sorted (List.mem_of_mem_take bMember)).1]
  exact ⟨of_decide_eq_true before.1, fun equal => before.2 (decide_eq_true equal.ge)⟩

theorem chosen_best {name dropped : String} (member : name ∈ chosen perTable score table)
    (other : dropped ∈ others table) (absent : dropped ∉ chosen perTable score table) :
    score dropped ≤ score name ∧
      (score dropped = score name → (names table).idxOf name < (names table).idxOf dropped) := by
  obtain ⟨best, taken, rfl⟩ := List.mem_map.mp member
  have later : (score dropped, dropped) ∈
      (byScore.sort (scored score table)).drop (budget perTable table) := by
    have all := (byScore.sort_perm (scored score table)).mem_iff.mpr (List.mem_map_of_mem other)
    rw [← List.take_append_drop (budget perTable table) (byScore.sort _)] at all
    exact (List.mem_append.mp all).resolve_left fun chosen => absent (List.mem_map_of_mem chosen)
  obtain ⟨below, tie⟩ := Ranking.take_sort (scored_pairwise distinct) _ best taken _ later
  rw [← (mem_sorted (List.mem_of_mem_take taken)).1]
  exact ⟨of_decide_eq_true below, fun equal => tie (decide_eq_true equal.ge)⟩

theorem keep_keeps (perTable threshold : ℤ) (score : String → ℕ) :
    Keeps perTable threshold score table (keep perTable threshold score table) := by
  by_cases small : (table.columns.length : ℤ) ≤ threshold
  · have whole : keep perTable threshold score table = names table := if_pos small
    rw [whole]
    exact ⟨fun _ => rfl, fun large => absurd large small.not_gt, distinct, List.Subset.refl _,
      fun large => absurd large small.not_gt, fun large => absurd large small.not_gt,
      fun large => absurd large small.not_gt⟩
  · have large := not_le.mp small
    rw [keep_large large]
    refine ⟨fun few => absurd few small, fun _ name key => ?_, ?_, ?_, fun _ => ?_, fun _ => ?_,
      fun _ => ?_⟩
    · refine List.mem_append_left _ ((Finset.mem_sort _).mpr (List.mem_toFinset.mpr ?_))
      rcases key with pk | ⟨fk, listed, own⟩
      · exact List.mem_append_left _ pk
      · exact List.mem_append_right _ (List.mem_flatMap.mpr ⟨fk, listed, own⟩)
    · refine List.nodup_append'.mpr ⟨Finset.sort_nodup _ _, chosen_nodup distinct, ?_⟩
      exact fun name key member => chosen_mandatory name member ((Finset.mem_sort _).mp key)
    · intro name member
      rcases List.mem_append.mp member with key | other
      · exact mandatory_known table ((Finset.mem_sort _).mp key)
      · exact (mem_others.mp (mem_chosen other)).1
    · rw [List.length_append, Finset.length_sort, chosen_length, budget]
      omega
    · intro name member optional dropped inside absent
      simp only [List.mem_append, Finset.mem_sort, not_or] at member absent
      exact chosen_best distinct (member.resolve_left optional) (mem_others.mpr ⟨inside, absent.1⟩)
        absent.2
    · have keys : (mandatory table).sort.filter (· ∉ mandatory table) = [] :=
        List.filter_eq_nil_iff.mpr fun name member => by simpa using (Finset.mem_sort _).mp member
      have rest : (chosen perTable score table).filter (· ∉ mandatory table) =
          chosen perTable score table :=
        List.filter_eq_self.mpr fun name member => decide_eq_true (chosen_mandatory name member)
      rw [List.filter_append, keys, rest, List.nil_append]
      exact chosen_pairwise distinct

end Kept

/-- Of every known table that is asked for the columns are kept that should be. -/
theorem prune_columns_keeps (rt : Runtime) (schema : Reflected) (question : String)
    (tableNames : List String) (perTable threshold : ℤ) {t : String} {table : Table}
    (listed : t ∈ tableNames) (known : schema.info.lookup (rt.lower t) = some table) :
    ∃ kept, (pruneColumns rt schema.info question tableNames perTable threshold).lookup t = some kept ∧
      Keeps perTable threshold (fun name => scoreColumn rt.case name t (tokenize rt.case question))
        table kept := by
  refine ⟨_, PyDict.lookup_update_map _ listed, ?_⟩
  rw [known]
  exact keep_keeps (schema.distinct _ (mem_of_lookup known)) ..

/-- The shop's tables. -/
def shopSchema : Reflected where
  info := schemaInfo .ascii [customers, orders]
  distinct := by decide +kernel

theorem prune_columns_keeps_shop :
    ∃ kept, (pruneColumns .ascii shopSchema.info "Which customer?" ["Orders"] 1 1).lookup "Orders" =
      some kept ∧
      Keeps 1 1 (fun name => scoreColumn .ascii name "Orders" (tokenize .ascii "Which customer?"))
        orders kept :=
  prune_columns_keeps .ascii shopSchema "Which customer?" ["Orders"] 1 1 (by decide)
    (by decide +kernel)

section Closure

/-- What the DDL says of one table. -/
structure Block where
  name : String
  table : Table
  columns : List Column
  fks : List ForeignKey
  deriving DecidableEq

abbrev Block.columnNames (b : Block) : List String := b.columns.map Column.name

/-- One turn of the loop of `build_compact_ddl`; a name that is no column raises. -/
def block (t : String) (table : Table) (kept : List String) : Option Block :=
  (kept.mapM fun name => table.columns.reverse.find? fun c => c.name = name).map fun columns =>
    ⟨t, table, columns, table.fks.filter fun fk => fk.constrainedColumns.all (· ∈ kept)⟩

def Block.lines (b : Block) : List String :=
  createTable b.name (b.columns.map (columnMember b.table) ++ b.fks.map fkMember)

/-- What `build_compact_ddl` writes down, before it is text. -/
def blocks (rt : Runtime) (info : Info) (tableNames : List String)
    (pruned : PyDict String (List String)) : Option (List Block) :=
  (found rt info tableNames).mapM fun item =>
    block item.1 item.2 ((pruned.lookup item.1).getD (names item.2))

theorem mapM_map {α β γ : Type} (f : α → Option β) (g : β → γ) (l : List α) :
    (l.mapM fun a => (f a).map g) = (l.mapM f).map (List.map g) := by
  induction l with
  | nil => rfl
  | cons a rest ih =>
    simp only [List.mapM_cons, ih, Option.pure_def, Option.bind_eq_bind]
    cases f a with
    | none => rfl
    | some b => cases rest.mapM f <;> rfl

theorem compactTable_eq (t : String) (table : Table) (kept : List String) :
    compactTable t table kept = (block t table kept).map Block.lines := by
  simp only [compactTable, block, mapM_map]
  cases kept.mapM fun name => table.columns.reverse.find? fun c => c.name = name <;> rfl

theorem buildCompactDdl_eq (rt : Runtime) (info : Info) (tableNames : List String)
    (pruned : PyDict String (List String)) (databaseUrl : Option String) :
    (buildCompactDdl rt info tableNames pruned databaseUrl).map Context.text =
      (blocks rt info tableNames pruned).map fun bs =>
        Py.join "\n" (("-- SQL Dialect: " ++ getDialect databaseUrl) :: bs.flatMap Block.lines) := by
  simp only [buildCompactDdl, blocks, compactTable_eq, mapM_map]
  cases (found rt info tableNames).mapM fun item =>
    block item.1 item.2 ((pruned.lookup item.1).getD (names item.2)) <;> rfl

variable {rt : Runtime} {info : Info} {t : String} {table : Table} {kept : List String} {b : Block}
  {bs : List Block} {perTable threshold : ℤ} {score : String → ℕ}

/-- Identifiers are compared in lower case. -/
def SameName (rt : Runtime) (a b : String) : Prop := rt.lower a = rt.lower b

/-- The clause names columns of its own table, and columns of a table, that are all in the DDL. -/
def Resolved (rt : Runtime) (bs : List Block) (b : Block) (fk : ForeignKey) : Prop :=
  fk.constrainedColumns ⊆ b.columnNames ∧
    ∃ target ∈ bs, SameName rt target.name fk.referredTable ∧
      ∀ c ∈ fk.referredColumns, ∃ c' ∈ target.columnNames, SameName rt c' c

/-- The DDL has the kept columns of each known table. -/
def Emits (known : List (String × Table)) (pruned : PyDict String (List String)) (bs : List Block) :
    Prop :=
  List.Forall₂ (fun item b => b.name = item.1 ∧ b.table = item.2 ∧
    pruned.lookup item.1 = some b.columnNames ∧ b.columns ⊆ item.2.columns) known bs

theorem block_spec (made : block t table kept = some b) : b.name = t ∧ b.table = table ∧
    b.columnNames = kept ∧ b.columns ⊆ table.columns ∧
      b.fks = table.fks.filter fun fk => fk.constrainedColumns.all (· ∈ kept) := by
  obtain ⟨columns, looked, rfl⟩ := Option.map_eq_some_iff.mp made
  have each := mapM_eq_some_iff.mp looked
  refine ⟨rfl, rfl, ?_, fun c member => ?_, rfl⟩
  · have same : List.Forall₂ (· = ·) kept (columns.map Column.name) := by
      rw [List.forall₂_map_right_iff]
      apply each.imp
      intro name c found
      have here := List.find?_some found
      exact (of_decide_eq_true here).symm
    exact (List.forall₂_eq_eq_eq ▸ same).symm
  · obtain ⟨name, -, found⟩ := forall₂_mem_right each member
    exact List.mem_reverse.mp (List.mem_of_find?_eq_some found)

theorem block_isSome (known : kept ⊆ names table) : (block t table kept).isSome = true := by
  rw [block, Option.isSome_map]
  apply mapM_isSome
  intro name member
  obtain ⟨c, column, rfl⟩ := List.mem_map.mp (known member)
  rw [List.find?_isSome]
  exact ⟨c, List.mem_reverse.mpr column, decide_eq_true rfl⟩

theorem keep_constrained {fk : ForeignKey} (own : fk ∈ table.fks) :
    fk.constrainedColumns ⊆ keep perTable threshold score table := by
  intro name member
  by_cases small : (table.columns.length : ℤ) ≤ threshold
  · rw [keep, if_pos small]
    exact table.fk_known fk own member
  · rw [keep_large (not_le.mp small)]
    refine List.mem_append_left _ ((Finset.mem_sort _).mpr (List.mem_toFinset.mpr ?_))
    exact List.mem_append_right _ (List.mem_flatMap.mpr ⟨fk, own, member⟩)

theorem keep_known : keep perTable threshold score table ⊆ names table := by
  intro name member
  by_cases small : (table.columns.length : ℤ) ≤ threshold
  · rwa [keep, if_pos small] at member
  · rw [keep_large (not_le.mp small)] at member
    rcases List.mem_append.mp member with key | other
    · exact mandatory_known table ((Finset.mem_sort _).mp key)
    · exact (mem_others.mp (mem_chosen other)).1

theorem pruned_lookup (perTable threshold : ℤ) (question : String) {tableNames : List String}
    {item : String × Table} (member : item ∈ found rt info tableNames) :
    (pruneColumns rt info question tableNames perTable threshold).lookup item.1 =
      some (keep perTable threshold
        (fun name => scoreColumn rt.case name item.1 (tokenize rt.case question)) item.2) := by
  have known : info.lookup (rt.lower item.1) = some item.2 := found_lookup member
  obtain ⟨name, listed, same⟩ := List.mem_filterMap.mp member
  obtain ⟨table, -, rfl⟩ := Option.map_eq_some_iff.mp same
  apply (PyDict.lookup_update_map _ listed).trans
  rw [known]
  rfl

/-- With the pruned columns nothing raises: every known table gets its kept columns and all of
its foreign keys. -/
theorem blocks_emit (rt : Runtime) (info : Info) (question : String) (tableNames : List String)
    (perTable threshold : ℤ) :
    ∃ bs, blocks rt info tableNames
        (pruneColumns rt info question tableNames perTable threshold) = some bs ∧
      Emits (found rt info tableNames)
        (pruneColumns rt info question tableNames perTable threshold) bs ∧
      ∀ b ∈ bs, b.fks = b.table.fks ∧ ∀ fk ∈ b.fks, fk.constrainedColumns ⊆ b.columnNames := by
  have looked (item : String × Table) (member : item ∈ found rt info tableNames) :=
    pruned_lookup perTable threshold question member
  generalize pruneColumns rt info question tableNames perTable threshold = pruned at looked ⊢
  have each : ∀ item ∈ found rt info tableNames,
      (block item.1 item.2 ((pruned.lookup item.1).getD (names item.2))).isSome = true := by
    intro item member
    rw [looked item member, Option.getD_some]
    exact block_isSome keep_known
  obtain ⟨bs, made⟩ := Option.isSome_iff_exists.mp (mapM_isSome each)
  have related : List.Forall₂ (fun item b => (b.name = item.1 ∧ b.table = item.2 ∧
      pruned.lookup item.1 = some b.columnNames ∧ b.columns ⊆ item.2.columns) ∧
      b.fks = b.table.fks ∧ ∀ fk ∈ b.fks, fk.constrainedColumns ⊆ b.columnNames)
      (found rt info tableNames) bs := by
    refine ((List.forall₂_and_left _ _).mpr ⟨looked, mapM_eq_some_iff.mp made⟩).imp ?_
    rintro item b ⟨kept, built⟩
    rw [kept, Option.getD_some] at built
    obtain ⟨name, own, columns, inside, clauses⟩ := block_spec built
    have all : item.2.fks.filter (fun fk => fk.constrainedColumns.all (· ∈ b.columnNames)) = item.2.fks := by
      refine List.filter_eq_self.mpr fun fk member => List.all_eq_true.mpr fun c constrained => ?_
      rw [columns]
      exact decide_eq_true (keep_constrained member constrained)
    rw [← columns, all] at clauses
    refine ⟨⟨name, own, by rw [kept, columns], inside⟩, by rw [clauses, own], fun fk member => ?_⟩
    rw [columns]
    exact keep_constrained (clauses ▸ member)
  refine ⟨bs, made, related.imp fun _ _ both => both.1, fun b member => ?_⟩
  obtain ⟨item, -, -, both⟩ := forall₂_mem_right related member
  exact both

/-- The known tables that are asked for are different ones, and a foreign key of one refers to
columns that are kept of another. -/
structure ClosedList (rt : Runtime) (known : List (String × Table))
    (pruned : PyDict String (List String)) : Prop where
  distinct : (known.map fun item => rt.lower item.1).Nodup
  targets : ∀ item ∈ known, ∀ fk ∈ item.2.fks, ∃ target ∈ known,
    SameName rt target.1 fk.referredTable ∧
      ∀ c ∈ fk.referredColumns, ∃ kept, pruned.lookup target.1 = some kept ∧
        ∃ c' ∈ kept, SameName rt c' c

/-- The DDL says of each known table once what is kept of it, and its clauses are resolved in it. -/
structure ClosedDdl (rt : Runtime) (known : List (String × Table))
    (pruned : PyDict String (List String)) (bs : List Block) : Prop where
  emits : Emits known pruned bs
  once : (bs.map fun b => rt.lower b.name).Nodup
  resolved : ∀ b ∈ bs, ∀ fk ∈ b.fks, Resolved rt bs b fk

theorem emits_names {known : List (String × Table)} {pruned : PyDict String (List String)}
    (emits : Emits known pruned bs) :
    bs.map (fun b => rt.lower b.name) = known.map fun item => rt.lower item.1 := by
  rw [← List.forall₂_eq_eq_eq, List.forall₂_map_left_iff, List.forall₂_map_right_iff]
  exact (emits.imp fun _ _ same => congrArg rt.lower same.1).flip

/-- The compact DDL is always written, with the kept columns of each known table; it is closed
exactly for the lists in which no table stands twice and every foreign key has its target. -/
theorem compact_ddl_closed_iff (rt : Runtime) (info : Info) (question : String)
    (tableNames : List String) (perTable threshold : ℤ) :
    let known := found rt info tableNames
    let pruned := pruneColumns rt info question tableNames perTable threshold
    (∃ bs, blocks rt info tableNames pruned = some bs ∧ Emits known pruned bs) ∧
      ((∃ bs, blocks rt info tableNames pruned = some bs ∧ ClosedDdl rt known pruned bs) ↔
        ClosedList rt known pruned) := by
  intro known pruned
  obtain ⟨bs, made, emits, clauses⟩ := blocks_emit rt info question tableNames perTable threshold
  refine ⟨⟨bs, made, emits⟩, ?_, ?_⟩
  · rintro ⟨bs', made', -, once, resolved⟩
    obtain rfl := Option.some.inj (made.symm.trans made')
    refine ⟨emits_names emits ▸ once, fun item member fk own => ?_⟩
    obtain ⟨b, inside, -, table, -, -⟩ := forall₂_mem_left emits member
    have emitted : fk ∈ b.fks := by rwa [(clauses b inside).1, table]
    obtain ⟨-, target, targetMember, same, columns⟩ := resolved b inside fk emitted
    obtain ⟨item', member', name, -, kept, -⟩ := forall₂_mem_right emits targetMember
    exact ⟨item', member', name ▸ same, fun c referred => ⟨_, kept, columns c referred⟩⟩
  · rintro ⟨distinct, targets⟩
    refine ⟨bs, made, emits, (emits_names emits).symm ▸ distinct, fun b inside fk emitted => ?_⟩
    refine ⟨(clauses b inside).2 fk emitted, ?_⟩
    obtain ⟨item, member, -, table, -, -⟩ := forall₂_mem_right emits inside
    have own : fk ∈ item.2.fks := by rwa [← table, ← (clauses b inside).1]
    obtain ⟨item', member', same, columns⟩ := targets item member fk own
    obtain ⟨target, targetMember, name, -, kept, -⟩ := forall₂_mem_left emits member'
    refine ⟨target, targetMember, name.symm ▸ same, fun c referred => ?_⟩
    obtain ⟨kept', looked, present⟩ := columns c referred
    obtain rfl := Option.some.inj (kept.symm.trans looked)
    exact present

/-- `orders` refers to a table that was not asked for. -/
theorem orders_dangle :
    ¬ ∃ bs, blocks .ascii shopSchema.info ["Orders"]
        (pruneColumns .ascii shopSchema.info "Which customer?" ["Orders"]) = some bs ∧
      ClosedDdl .ascii (found .ascii shopSchema.info ["Orders"])
        (pruneColumns .ascii shopSchema.info "Which customer?" ["Orders"]) bs := by
  rintro ⟨bs, made, closed⟩
  have written : blocks .ascii shopSchema.info ["Orders"]
      (pruneColumns .ascii shopSchema.info "Which customer?" ["Orders"]) =
        some [⟨"Orders", orders, orders.columns, orders.fks⟩] := by decide +kernel
  obtain rfl := Option.some.inj (written.symm.trans made)
  obtain ⟨-, target, member, same, -⟩ := closed.resolved _ (List.mem_singleton_self _)
    ⟨["customer_id"], "Customers", ["id"]⟩ (List.mem_singleton_self _)
  obtain rfl := List.mem_singleton.mp member
  exact absurd same (by unfold SameName; decide +kernel)

end Closure

end ColumnPruning
end Nl2SqlAgent

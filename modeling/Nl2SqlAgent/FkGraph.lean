import Mathlib.Data.Finset.Sort
import Mathlib.Data.String.Basic
import Nl2SqlAgent.Lib.PyDict
import Nl2SqlAgent.Lib.PyText

/-! The foreign-key graph over the cached schema of a database (`retrieval/fk_expand.py`,
`retrieval/schema.py`): what its edges are, and that the graph kept for the last database
asked for is that database's. One call after another. -/
namespace Nl2SqlAgent

open Lib

namespace FkGraph

-- what sorting a set of names looks up
instance instIsTransNames : IsTrans String (· ≤ ·) := inferInstance

instance instAntisymmNames : Std.Antisymm fun a b : String => a ≤ b := inferInstance

/-- `str.lower`, which changes nothing the second time, and `list` of a set, whose order is
not fixed. -/
structure Runtime where
  case : Py.Case
  lower_lower : ∀ s, case.lower (case.lower s) = case.lower s
  listed : Finset String → List String
  listed_nodup : ∀ names, (listed names).Nodup
  mem_listed : ∀ names name, name ∈ listed names ↔ name ∈ names

abbrev Runtime.lower (rt : Runtime) (s : String) : String := rt.case.lower s

structure Column where
  name : String
  type : String
  nullable : Bool
  deriving DecidableEq, Repr

structure ForeignKey where
  constrainedColumns : List String
  referredTable : String
  referredColumns : List String
  deriving DecidableEq, Repr

/-- What is reflected of a table; its keys are made of its columns. -/
structure Table where
  actualName : String
  columns : List Column
  pkCols : List String
  fks : List ForeignKey
  pk_known : pkCols ⊆ columns.map Column.name
  fk_known : ∀ fk ∈ fks, fk.constrainedColumns ⊆ columns.map Column.name
  deriving DecidableEq

/-- `_get_cached_schema_info`: the tables of a database under their names in lower case. -/
abbrev Info := PyDict String Table

def schemaInfo (rt : Runtime) (tables : List Table) : Info :=
  PyDict.update [] (tables.map fun t => (rt.lower t.actualName, t))

def Info.names (info : Info) : List String := info.map Prod.fst

structure Links where
  references : Finset String := ∅
  referencedBy : Finset String := ∅
  deriving DecidableEq

abbrev Graph := PyDict String Links

/-- `graph[name]` of the `defaultdict`. -/
def linksOf (graph : Graph) (name : String) : Links := (graph.lookup name).getD {}

def reference (graph : Graph) (source target : String) : Graph :=
  let links := linksOf graph source
  graph.set source { links with references := insert target links.references }

def referTo (graph : Graph) (source target : String) : Graph :=
  let links := linksOf graph target
  graph.set target { links with referencedBy := insert source links.referencedBy }

/-- The foreign keys of one table; those to tables that are not there are skipped. -/
def addTable (rt : Runtime) (info : Info) (graph : Graph) (item : String × Table) : Graph :=
  item.2.fks.foldl (fun graph fk =>
    let target := rt.lower fk.referredTable
    if target ∈ info.names then referTo (reference graph item.1 target) item.1 target else graph) graph

def graphOf (rt : Runtime) (info : Info) : Graph := info.foldl (addTable rt info) []

/-- `_graph_cache` and `_graph_db_url`. -/
structure Cache where
  graph : Graph
  url : String

/-- The databases, by their URLs, and `Config.DATABASE_URL`. -/
structure Databases where
  tables : String → List Table
  default : String

def Databases.info (dbs : Databases) (rt : Runtime) (url : String) : Info :=
  schemaInfo rt (dbs.tables url)

/-- `database_url or Config.DATABASE_URL`. -/
def Databases.url (dbs : Databases) (databaseUrl : Option String) : String :=
  if Py.truthy databaseUrl then databaseUrl.getD "" else dbs.default

/-- `_build_graph`: the graph, and what is cached then. -/
def buildGraph (rt : Runtime) (dbs : Databases) (cache : Option Cache) (databaseUrl : Option String) :
    Cache :=
  let db := dbs.url databaseUrl
  match cache with
  | some c => if c.url = db then c else ⟨graphOf rt (dbs.info rt db), db⟩
  | none => ⟨graphOf rt (dbs.info rt db), db⟩

/-- One turn of the loop of `expand_tables`. -/
def expand (rt : Runtime) (graph : Graph) (expanded : Finset String) (t : String) : Finset String :=
  match graph.lookup (rt.lower t) with
  | some links => expanded ∪ links.references ∪ links.referencedBy
  | none => expanded

/-- `expand_tables`, on the graph that `_build_graph` returns. -/
def expandTables (rt : Runtime) (graph : Graph) (selected : List String) : List String :=
  rt.listed (selected.foldl (expand rt graph) selected.toFinset)

/-- The table `a` has a foreign key to the table `b`, and both are in the schema. -/
def Refers (rt : Runtime) (info : Info) (a b : String) : Prop :=
  ∃ t, (a, t) ∈ info ∧ ∃ fk ∈ t.fks, rt.lower fk.referredTable = b ∧ b ∈ info.names

/-- What is one edge away from the set, in either direction. -/
def hop {α : Type} (refers : α → α → Prop) (from_ : Set α) : Set α :=
  {b | ∃ a ∈ from_, refers a b ∨ refers b a}

section

variable {rt : Runtime} {info : Info} {graph : Graph} {k x source target : String}

/-- What the graph has beside the table, in either direction. -/
def adjacent (graph : Graph) (k : String) : Finset String :=
  (linksOf graph k).references ∪ (linksOf graph k).referencedBy

theorem linksOf_set (links : Links) :
    linksOf (graph.set source links) k = if k = source then links else linksOf graph k := by
  rw [linksOf, PyDict.lookup_set]
  split <;> rfl

/-- A new neighbour of one table is a new neighbour of no other. -/
theorem adjacent_set {links : Links}
    (more : links.references ∪ links.referencedBy = insert target (adjacent graph source)) :
    x ∈ adjacent (graph.set source links) k ↔
      x ∈ adjacent graph k ∨ (k = source ∧ x = target) := by
  rw [adjacent, linksOf_set]
  by_cases here : k = source
  · rw [if_pos here, more, Finset.mem_insert, here]
    simp only [true_and, or_comm]
  · rw [if_neg here]
    simp [here, adjacent]

theorem adjacent_reference :
    x ∈ adjacent (reference graph source target) k ↔
      x ∈ adjacent graph k ∨ (k = source ∧ x = target) :=
  adjacent_set (Finset.insert_union ..)

theorem adjacent_referTo :
    x ∈ adjacent (referTo graph source target) k ↔
      x ∈ adjacent graph k ∨ (k = target ∧ x = source) :=
  adjacent_set (Finset.union_insert ..)

/-- The edge of a foreign key, seen from either end. -/
def Joins (rt : Runtime) (info : Info) (source k x : String) (fk : ForeignKey) : Prop :=
  rt.lower fk.referredTable ∈ info.names ∧
    (k = source ∧ x = rt.lower fk.referredTable ∨ k = rt.lower fk.referredTable ∧ x = source)

theorem adjacent_addTable (item : String × Table) :
    x ∈ adjacent (addTable rt info graph item) k ↔
      x ∈ adjacent graph k ∨ ∃ fk ∈ item.2.fks, Joins rt info item.1 k x fk := by
  obtain ⟨source, t⟩ := item
  unfold addTable
  generalize t.fks = fks
  induction fks generalizing graph with
  | nil => simp
  | cons fk rest ih =>
    rw [List.foldl_cons, ih, List.exists_mem_cons_iff, ← or_assoc]
    apply or_congr_left
    by_cases known : rt.lower fk.referredTable ∈ info.names
    · simp only [known, if_true, adjacent_referTo, adjacent_reference, Joins, true_and, or_assoc]
    · simp only [known, if_false, Joins, false_and, or_false]

theorem adjacent_fold (items : Info) :
    x ∈ adjacent (items.foldl (addTable rt info) graph) k ↔
      x ∈ adjacent graph k ∨ ∃ item ∈ items, ∃ fk ∈ item.2.fks, Joins rt info item.1 k x fk := by
  induction items generalizing graph with
  | nil => simp
  | cons item rest ih =>
    rw [List.foldl_cons, ih, adjacent_addTable, List.exists_mem_cons_iff, or_assoc]

theorem adjacent_graphOf :
    x ∈ adjacent (graphOf rt info) k ↔ Refers rt info k x ∨ Refers rt info x k := by
  rw [graphOf, adjacent_fold]
  constructor
  · rintro (nothing | ⟨⟨source, t⟩, member, fk, listed, known, ⟨rfl, rfl⟩ | ⟨rfl, rfl⟩⟩)
    · simp [adjacent, linksOf] at nothing
    · exact .inl ⟨t, member, fk, listed, rfl, known⟩
    · exact .inr ⟨t, member, fk, listed, rfl, known⟩
  · rintro (⟨t, member, fk, listed, rfl, known⟩ | ⟨t, member, fk, listed, rfl, known⟩)
    · exact .inr ⟨_, member, fk, listed, known, .inl ⟨rfl, rfl⟩⟩
    · exact .inr ⟨_, member, fk, listed, known, .inr ⟨rfl, rfl⟩⟩

theorem mem_expanded {selected : List String} {names : Finset String} :
    x ∈ selected.foldl (expand rt graph) names ↔
      x ∈ names ∨ ∃ t ∈ selected, x ∈ adjacent graph (rt.lower t) := by
  induction selected generalizing names with
  | nil => simp
  | cons t rest ih =>
    rw [List.foldl_cons, ih, List.exists_mem_cons_iff, ← or_assoc]
    apply or_congr_left
    unfold expand
    cases found : graph.lookup (rt.lower t) with
    | none => simp [adjacent, linksOf, found]
    | some links => simp [adjacent, linksOf, found]

/-- `expand_tables` adds what is one edge from a selected table. -/
theorem mem_expandTables {selected : List String} :
    x ∈ expandTables rt (graphOf rt info) selected ↔
      x ∈ selected ∨ x ∈ hop (Refers rt info) {k | ∃ t ∈ selected, rt.lower t = k} := by
  rw [expandTables, rt.mem_listed, mem_expanded, List.mem_toFinset]
  apply or_congr_right
  simp only [adjacent_graphOf, hop, Set.mem_ofPred_eq]
  constructor
  · rintro ⟨t, member, joined⟩
    exact ⟨_, ⟨t, member, rfl⟩, joined⟩
  · rintro ⟨_, ⟨t, member, rfl⟩, joined⟩
    exact ⟨t, member, joined⟩

theorem schemaInfo_keyed {tables : List Table} {item : String × Table}
    (member : item ∈ schemaInfo rt tables) : item.1 = rt.lower item.2.actualName := by
  rcases PyDict.mem_update member with listed | nothing
  · obtain ⟨t, -, rfl⟩ := List.mem_map.mp listed
    rfl
  · contradiction

theorem lower_key {tables : List Table} (known : k ∈ (schemaInfo rt tables).names) :
    rt.lower k = k := by
  obtain ⟨item, member, rfl⟩ := List.mem_map.mp known
  rw [schemaInfo_keyed member]
  exact rt.lower_lower _

theorem hop_known {from_ : Set String} (near : x ∈ hop (Refers rt info) from_) :
    x ∈ info.names := by
  obtain ⟨a, -, ⟨t, -, fk, -, -, known⟩ | ⟨t, member, -⟩⟩ := near
  · exact known
  · exact List.mem_map_of_mem (f := Prod.fst) member

end

section

variable {rt : Runtime} {dbs : Databases} {cache : Option Cache}

/-- The graph that is cached is that of its database. -/
def Cached (rt : Runtime) (dbs : Databases) (cache : Option Cache) : Prop :=
  ∀ c ∈ cache, c.graph = graphOf rt (dbs.info rt c.url)

/-- `_build_graph` returns the graph of the database, whatever is cached. -/
theorem buildGraph_graph (cached : Cached rt dbs cache) (databaseUrl : Option String) :
    (buildGraph rt dbs cache databaseUrl).graph = graphOf rt (dbs.info rt (dbs.url databaseUrl)) := by
  simp only [buildGraph]
  split
  next c =>
    split
    next same => rw [cached c rfl, same]
    next => rfl
  next => rfl

theorem buildGraph_url (databaseUrl : Option String) :
    (buildGraph rt dbs cache databaseUrl).url = dbs.url databaseUrl := by
  simp only [buildGraph]
  split
  · split
    next same => exact same
    next => rfl
  · rfl

theorem buildGraph_cached (cached : Cached rt dbs cache) (databaseUrl : Option String) :
    Cached rt dbs (some (buildGraph rt dbs cache databaseUrl)) := by
  rintro _ ⟨⟩
  rw [buildGraph_graph cached, buildGraph_url]

end

theorem toLower_toLower (c : Char) : c.toLower.toLower = c.toLower := by
  unfold Char.toLower
  split
  next upper =>
    rw [dif_neg]
    rintro ⟨-, below⟩
    have high := UInt32.le_iff_toNat_le.mp below
    have low := UInt32.le_iff_toNat_le.mp upper.1
    have within := UInt32.le_iff_toNat_le.mp upper.2
    simp only [UInt32.toNat_add, Char.reduceVal, UInt32.reduceSub, UInt32.reduceToNat]
      at high low within
    omega
  next => rfl

/-- Names of ASCII characters, and sets in the order of their names. -/
def Runtime.ascii : Runtime where
  case := Py.Case.ascii
  lower_lower s := by
    simp only [Py.Case.lower, Py.Case.ascii, String.toList_ofList, List.map_map]
    exact congrArg String.ofList (List.map_congr_left fun c _ => toLower_toLower c)
  listed names := names.sort
  listed_nodup names := names.sort_nodup _
  mem_listed _ _ := Finset.mem_sort _

end FkGraph
end Nl2SqlAgent

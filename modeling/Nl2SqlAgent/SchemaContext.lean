import Nl2SqlAgent.FkGraph
import Nl2SqlAgent.Lib.Json
import Nl2SqlAgent.SchemaExpansion

/-! The schema context of `schema_retriever_node`, with and without column pruning
(`retrieval/fk_expand.py`, `retrieval/column_prune.py`): which tables it gives DDL. -/
namespace Nl2SqlAgent

open Lib

namespace SchemaContext

open FkGraph

/-- What is read of a chunk: its metadata, if that is a dictionary, and `table_name` in it. -/
structure Chunk where
  metadata : Option (Option String)
  deriving DecidableEq, Repr

/-- One turn of the loop of `_parse_matched_tables`. -/
def addMatched (tables : List String) (c : Chunk) : List String :=
  match c.metadata with
  | some tableName =>
    let tn := tableName.getD ""
    if tn ≠ "" ∧ tn ∉ tables then tables ++ [tn] else tables
  | none => tables

def parseMatchedTables (ragChunks : List Chunk) : List String := ragChunks.foldl addMatched []

def getDialect (databaseUrl : Option String) : String :=
  Guard.getDialectFromUrl (databaseUrl.getD "")

def columnMember (t : Table) (c : Column) : String :=
  "  " ++ Py.join " " ([c.name, c.type] ++ (if c.nullable then [] else ["NOT NULL"]) ++
    (if c.name ∈ t.pkCols then ["PRIMARY KEY"] else []))

def fkMember (fk : ForeignKey) : String :=
  "  FOREIGN KEY (" ++ Py.join ", " fk.constrainedColumns ++ ") REFERENCES " ++ fk.referredTable ++
    "(" ++ Py.join ", " fk.referredColumns ++ ")"

/-- The lines of one table. -/
def createTable (name : String) (members : List String) : List String :=
  ["CREATE TABLE " ++ name ++ " (", Py.join ",\n" members, ");"]

/-- The tables of the schema among the names, with the names. -/
def found (rt : Runtime) (info : Info) (tableNames : List String) : List (String × Table) :=
  tableNames.filterMap fun t => (info.lookup (rt.lower t)).map fun table => (t, table)

/-- What the node makes of the schema; the tables that the text gives DDL are not kept. -/
structure Context where
  text : String
  tables : List Table := []

/-- `build_ddl_for_tables`; `samples` are the sample rows of a table. -/
def buildDdlForTables (rt : Runtime) (dbs : Databases) (samples : String → String)
    (tableNames : List String) (databaseUrl : Option String) : Context :=
  if tableNames = [] ∨ ¬ Py.truthy databaseUrl then ⟨"", []⟩
  else
    let tables := (found rt (dbs.info rt (databaseUrl.getD "")) tableNames).map Prod.snd
    ⟨Py.join "\n" (("-- SQL Dialect: " ++ getDialect databaseUrl ++ "\n") :: tables.flatMap fun t =>
      createTable t.actualName (t.columns.map (columnMember t) ++ t.fks.map fkMember) ++
        [samples t.actualName ++ "\n"]), tables⟩

/-- The expanded tables that are not among the matched ones, as they are spelled. -/
def missing (rt : Runtime) (graph : Graph) (matched : List String) : List String :=
  (expandTables rt graph matched).filter fun t => t ∉ matched

def expandSchemaText (rt : Runtime) (dbs : Databases) (samples : String → String) (cache : Option Cache)
    (schemaText : String) (ragChunks : List Chunk) (databaseUrl : Option String) :
    Context × Option Cache :=
  let matched := parseMatchedTables ragChunks
  if matched = [] then ({ text := schemaText }, cache)
  else
    let cached := buildGraph rt dbs cache databaseUrl
    let missing := missing rt cached.graph matched
    if missing = [] then ({ text := schemaText }, some cached)
    else
      let extraDdl := buildDdlForTables rt dbs samples missing databaseUrl
      (⟨schemaText ++ "\n\n-- FK-expanded tables (1-hop JOIN paths)\n" ++ extraDdl.text,
        extraDdl.tables⟩, some cached)

/-- The columns that `prune_columns` keeps of a table; `score` is `_score_column` with the
tokens of the question. -/
def keptColumns (score : String → String → Nat) (t : String) (table : Table) : List String :=
  let mandatory := (table.pkCols ++ table.fks.flatMap ForeignKey.constrainedColumns).toFinset
  if table.columns.length ≤ 10 then table.columns.map Column.name
  else
    let scored := (table.columns.filter fun c => c.name ∉ mandatory).map fun c =>
      (score c.name t, c.name)
    mandatory.sort ++
      ((scored.mergeSort fun a b => b.1 ≤ a.1).take (10 - mandatory.card)).map Prod.snd

def pruneColumns (rt : Runtime) (info : Info) (score : String → String → Nat)
    (tableNames : List String) : PyDict String (List String) :=
  PyDict.update [] (tableNames.map fun t =>
    (t, ((info.lookup (rt.lower t)).map (keptColumns score t)).getD []))

/-- The block of one table; a name that is no column raises. -/
def compactTable (t : String) (table : Table) (kept : List String) : Option (List String) := do
  let members ← kept.mapM fun name =>
    (table.columns.reverse.find? fun c => c.name = name).map (columnMember table)
  let fks := table.fks.filter fun fk => fk.constrainedColumns.all (· ∈ kept)
  return createTable t (members ++ fks.map fkMember)

def buildCompactDdl (rt : Runtime) (info : Info) (tableNames : List String)
    (pruned : PyDict String (List String)) (databaseUrl : Option String) : Option Context := do
  let tables := found rt info tableNames
  let blocks ← tables.mapM fun (t, table) =>
    compactTable t table ((pruned.lookup t).getD (table.columns.map Column.name))
  return ⟨Py.join "\n" (("-- SQL Dialect: " ++ getDialect databaseUrl) :: blocks.flatten),
    tables.map Prod.snd⟩

def buildTableCatalog (rt : Runtime) (dbs : Databases) (databaseUrl : Option String) : String :=
  SchemaExpansion.buildExpandedCatalog databaseUrl
    ((dbs.info rt (databaseUrl.getD "")).map fun item =>
      ⟨item.2.actualName, item.2.columns.map Column.name⟩)

/-- What the node reads; `schemaText` is that of the chunks, or else the summary. -/
structure Request where
  databaseUrl : Option String
  ragColumnPrune : Bool
  complexity : String
  ragFkExpand : Bool
  skipSchema : Bool
  schemaText : String
  ragChunks : List Chunk
  score : String → String → Nat

def Request.useColumnPrune (r : Request) : Bool := r.ragColumnPrune && r.complexity ≠ "simple"

/-- The schema that `prune_columns` and `build_compact_ddl` read. -/
def Request.schema (rt : Runtime) (dbs : Databases) (r : Request) : Info :=
  if Py.truthy r.databaseUrl then dbs.info rt (r.databaseUrl.getD "") else []

/-- The tables of the pruned schema; `expand_tables` is called without the URL. -/
def tableSet (rt : Runtime) (dbs : Databases) (cache : Option Cache) (r : Request) :
    List String × Option Cache :=
  let matched := parseMatchedTables r.ragChunks
  if r.ragFkExpand ∧ matched ≠ [] then
    let cached := buildGraph rt dbs cache none
    (expandTables rt cached.graph matched, some cached)
  else (matched, cache)

/-- From `skip_schema` on. -/
def schemaContext (rt : Runtime) (dbs : Databases) (samples : String → String) (cache : Option Cache)
    (r : Request) : Option Context × Option Cache :=
  if r.skipSchema then (some { text := r.schemaText }, cache)
  else if r.useColumnPrune then
    let (tables, cache) := tableSet rt dbs cache r
    if tables = [] then (some { text := r.schemaText }, cache)
    else
      let info := r.schema rt dbs
      let pruned := pruneColumns rt info r.score tables
      (buildCompactDdl rt info tables pruned r.databaseUrl, cache)
  else
    let expanded := if r.ragFkExpand then
        expandSchemaText rt dbs samples cache r.schemaText r.ragChunks r.databaseUrl
      else ({ text := r.schemaText }, cache)
    let text := expanded.1.text ++ "\n\n" ++ buildTableCatalog rt dbs r.databaseUrl
    (some { expanded.1 with text := text }, expanded.2)

/-- The tables that the chunks name, in lower case. -/
def Request.named (rt : Runtime) (r : Request) : Set String :=
  {k | ∃ t ∈ parseMatchedTables r.ragChunks, rt.lower t = k}

/-- Their neighbours in the graph of a database. -/
def Request.neighbours (rt : Runtime) (dbs : Databases) (r : Request) (url : String) : Set String :=
  hop (Refers rt (dbs.info rt url)) (r.named rt)

/-- The tables that are to be given DDL: without pruning the neighbours that are not named,
with pruning the named tables that there are, and the neighbours. -/
def Request.intended (rt : Runtime) (dbs : Databases) (r : Request) : Set String :=
  let url := dbs.url r.databaseUrl
  if r.useColumnPrune then
    {k | k ∈ r.named rt ∧ k ∈ (dbs.info rt url).names} ∪ r.neighbours rt dbs url
  else r.neighbours rt dbs url \ r.named rt

/-- The tables are those of the set, each once. -/
structure Lists (rt : Runtime) (tables : List Table) (intended : Set String) : Prop where
  once : (tables.map fun t => rt.lower t.actualName).Nodup
  exactly : ∀ k, k ∈ tables.map (fun t => rt.lower t.actualName) ↔ k ∈ intended

/-- The context of the request gives DDL to the tables that are to have it. -/
def Exact (rt : Runtime) (dbs : Databases) (samples : String → String) (cache : Option Cache)
    (r : Request) : Prop :=
  ∃ context, (schemaContext rt dbs samples cache r).1 = some context ∧
    Lists rt context.tables (r.intended rt dbs)

/-- With pruning: no table of the database is spelled in two ways, and outside the named
tables the default database has the neighbours that the database has. -/
structure Agrees (rt : Runtime) (dbs : Databases) (r : Request) : Prop where
  spelled : ∀ t ∈ parseMatchedTables r.ragChunks,
    rt.lower t ∈ (dbs.info rt (dbs.url r.databaseUrl)).names →
      (∀ t' ∈ parseMatchedTables r.ragChunks, rt.lower t' = rt.lower t → t' = t) ∧
      (rt.lower t ∈ r.neighbours rt dbs dbs.default → rt.lower t = t)
  neighbours : ∀ k, k ∉ r.named rt →
    (k ∈ (dbs.info rt (dbs.url r.databaseUrl)).names ∧ k ∈ r.neighbours rt dbs dbs.default ↔
      k ∈ r.neighbours rt dbs (dbs.url r.databaseUrl))

/-- Without pruning: a named table that is a neighbour is also named in lower case. Without
a URL there is to be nothing that needs DDL. -/
def Fits (rt : Runtime) (dbs : Databases) (r : Request) : Prop :=
  if Py.truthy r.databaseUrl then
    if r.useColumnPrune then Agrees rt dbs r
    else ∀ k ∈ r.neighbours rt dbs (dbs.url r.databaseUrl), k ∈ r.named rt →
      k ∈ parseMatchedTables r.ragChunks
  else r.intended rt dbs = ∅

section

variable {rt : Runtime} {dbs : Databases} {info : Info} {r : Request} {k : String}

theorem kept_known (score : String → String → Nat) (t : String) (table : Table) :
    keptColumns score t table ⊆ table.columns.map Column.name := by
  intro name kept
  simp only [keptColumns] at kept
  split at kept
  · exact kept
  · rcases List.mem_append.mp kept with mandatory | scored
    · rcases List.mem_append.mp (List.mem_toFinset.mp ((Finset.mem_sort _).mp mandatory)) with pk | fk
      · exact table.pk_known pk
      · obtain ⟨fk, listed, member⟩ := List.mem_flatMap.mp fk
        exact table.fk_known fk listed member
    · obtain ⟨scored, member, rfl⟩ := List.mem_map.mp scored
      obtain ⟨c, column, rfl⟩ := List.mem_map.mp (List.mem_mergeSort.mp (List.mem_of_mem_take member))
      exact List.mem_map_of_mem (List.mem_filter.mp column).1

theorem found_lookup {names : List String} {t : String} {table : Table}
    (member : (t, table) ∈ found rt info names) : info.lookup (rt.lower t) = some table := by
  obtain ⟨name, -, same⟩ := List.mem_filterMap.mp member
  obtain ⟨table', looked, equal⟩ := Option.map_eq_some_iff.mp same
  cases equal
  exact looked

theorem pruned_known (score : String → String → Nat) {names : List String} {t : String}
    {table : Table} (member : (t, table) ∈ found rt info names) :
    ((pruneColumns rt info score names).lookup t).getD (table.columns.map Column.name) ⊆
      table.columns.map Column.name := by
  cases looked : (pruneColumns rt info score names).lookup t with
  | none => exact List.Subset.refl _
  | some kept =>
    rcases PyDict.mem_update (mem_of_lookup looked) with listed | nothing
    · obtain ⟨name, -, same⟩ := List.mem_map.mp listed
      obtain ⟨rfl, rfl⟩ := Prod.mk.inj same
      rw [found_lookup member]
      exact kept_known score name table
    · contradiction

theorem compactTable_isSome {t : String} {table : Table} {kept : List String}
    (known : kept ⊆ table.columns.map Column.name) : (compactTable t table kept).isSome = true := by
  have members : (kept.mapM fun name => (table.columns.reverse.find? fun c => c.name = name).map
      (columnMember table)).isSome = true := by
    apply mapM_isSome
    intro name member
    obtain ⟨c, column, rfl⟩ := List.mem_map.mp (known member)
    rw [Option.isSome_map, List.find?_isSome]
    exact ⟨c, List.mem_reverse.mpr column, decide_eq_true rfl⟩
  obtain ⟨lines, mapped⟩ := Option.isSome_iff_exists.mp members
  simp [compactTable, mapped]

/-- With the pruned columns the DDL is written, of the tables that are there. -/
theorem buildCompactDdl_tables (score : String → String → Nat) (names : List String)
    (databaseUrl : Option String) :
    ∃ text, buildCompactDdl rt info names (pruneColumns rt info score names) databaseUrl =
      some ⟨text, (found rt info names).map Prod.snd⟩ := by
  have each : ((found rt info names).mapM fun (t, table) => compactTable t table
      (((pruneColumns rt info score names).lookup t).getD (table.columns.map Column.name))).isSome =
        true :=
    mapM_isSome fun _ member => compactTable_isSome (pruned_known score member)
  obtain ⟨blocks, mapped⟩ := Option.isSome_iff_exists.mp each
  simp only [buildCompactDdl, mapped]
  exact ⟨_, rfl⟩

theorem lookup_isSome_iff : (info.lookup k).isSome = true ↔ k ∈ info.names := by
  rw [List.lookup_isSome_iff]
  constructor
  · rintro ⟨item, member, same⟩
    exact List.mem_map.mpr ⟨item, member, (beq_iff_eq.mp same).symm⟩
  · intro known
    obtain ⟨item, member, same⟩ := List.mem_map.mp known
    exact ⟨item, member, beq_iff_eq.mpr same.symm⟩

theorem found_names {tables : List Table} (names : List String) :
    ((found rt (schemaInfo rt tables) names).map Prod.snd).map (fun t => rt.lower t.actualName) =
      (names.filter fun t => rt.lower t ∈ (schemaInfo rt tables).names).map rt.lower := by
  induction names with
  | nil => rfl
  | cons t rest ih =>
    simp only [found] at ih ⊢
    cases looked : (schemaInfo rt tables).lookup (rt.lower t) with
    | none =>
      have absent : ¬ rt.lower t ∈ (schemaInfo rt tables).names := by
        rw [← lookup_isSome_iff, looked]
        exact Bool.false_ne_true
      rw [List.filterMap_cons_none (by rw [looked]; rfl),
        List.filter_cons_of_neg (by simpa using absent)]
      exact ih
    | some table =>
      have known : rt.lower t ∈ (schemaInfo rt tables).names := by
        rw [← lookup_isSome_iff, looked]
        rfl
      have keyed := schemaInfo_keyed (mem_of_lookup looked)
      rw [List.filterMap_cons_some (by rw [looked]; rfl),
        List.filter_cons_of_pos (by simpa using known)]
      simp only [List.map_cons, ih]
      exact congrArg (· :: _) keyed.symm

/-- Which tables a list of names gives, if each name stands in it once. -/
theorem lists_found_iff {tables : List Table} {names : List String} (distinct : names.Nodup)
    {intended : Set String} :
    Lists rt ((found rt (schemaInfo rt tables) names).map Prod.snd) intended ↔
      (∀ x ∈ names, rt.lower x ∈ (schemaInfo rt tables).names →
        ∀ y ∈ names, rt.lower x = rt.lower y → x = y) ∧
      ∀ k, (k ∈ (schemaInfo rt tables).names ∧ ∃ x ∈ names, rt.lower x = k) ↔ k ∈ intended := by
  have listed (k : String) :
      k ∈ (names.filter fun t => rt.lower t ∈ (schemaInfo rt tables).names).map rt.lower ↔
        k ∈ (schemaInfo rt tables).names ∧ ∃ x ∈ names, rt.lower x = k := by
    simp only [List.mem_map, List.mem_filter, decide_eq_true_eq]
    constructor
    · rintro ⟨x, ⟨member, known⟩, rfl⟩
      exact ⟨known, x, member, rfl⟩
    · rintro ⟨known, x, member, rfl⟩
      exact ⟨x, ⟨member, known⟩, rfl⟩
  have once : ((names.filter fun t => rt.lower t ∈ (schemaInfo rt tables).names).map rt.lower).Nodup ↔
      ∀ x ∈ names, rt.lower x ∈ (schemaInfo rt tables).names →
        ∀ y ∈ names, rt.lower x = rt.lower y → x = y := by
    rw [List.nodup_map_iff_inj_on (distinct.filter _)]
    simp only [List.mem_filter, decide_eq_true_eq]
    constructor
    · intro inj x member known y member' same
      exact inj x ⟨member, known⟩ y ⟨member', same ▸ known⟩ same
    · rintro inj x ⟨member, known⟩ y ⟨member', -⟩ same
      exact inj x member known y member' same
  constructor
  · rintro ⟨nodup, exactly⟩
    rw [found_names] at nodup exactly
    exact ⟨once.mp nodup, fun k => (listed k).symm.trans (exactly k)⟩
  · rintro ⟨inj, exactly⟩
    constructor
    · rw [found_names]
      exact once.mpr inj
    · intro k
      rw [found_names]
      exact (listed k).trans (exactly k)

theorem lists_nil_iff {intended : Set String} : Lists rt [] intended ↔ intended = ∅ := by
  constructor
  · rintro ⟨-, exactly⟩
    exact Set.eq_empty_iff_forall_notMem.mpr fun k member => List.not_mem_nil ((exactly k).mpr member)
  · rintro rfl
    exact ⟨List.nodup_nil, fun k => by simp⟩

theorem expandTables_nil : expandTables rt (graphOf rt info) [] = [] := by
  apply List.eq_nil_iff_forall_not_mem.mpr
  intro x member
  rcases mem_expandTables.mp member with selected | ⟨_, ⟨t, selected, -⟩, -⟩ <;> contradiction

theorem mem_missing {matched : List String} :
    k ∈ missing rt (graphOf rt info) matched ↔
      k ∈ hop (Refers rt info) {k | ∃ t ∈ matched, rt.lower t = k} ∧ k ∉ matched := by
  rw [missing, List.mem_filter, mem_expandTables, decide_eq_true_eq]
  tauto

theorem found_empty (names : List String) : found rt [] names = [] := by
  induction names with
  | nil => rfl
  | cons t rest ih => exact ih

variable {samples : String → String} {cache : Option Cache}

theorem expandSchemaText_tables (cached : Cached rt dbs cache) (schemaText : String)
    (ragChunks : List Chunk) (databaseUrl : Option String) :
    (expandSchemaText rt dbs samples cache schemaText ragChunks databaseUrl).1.tables =
      if Py.truthy databaseUrl then
        (found rt (dbs.info rt (databaseUrl.getD "")) (missing rt
          (graphOf rt (dbs.info rt (dbs.url databaseUrl))) (parseMatchedTables ragChunks))).map Prod.snd
      else [] := by
  have none : found rt (dbs.info rt (databaseUrl.getD "")) [] = [] := rfl
  simp only [expandSchemaText, buildGraph_graph cached, buildDdlForTables]
  by_cases nothing : parseMatchedTables ragChunks = []
  · simp [nothing, missing, expandTables_nil, none]
  · rw [if_neg nothing]
    split
    next absent => simp [absent, none]
    next present => by_cases url : Py.truthy databaseUrl = true <;> simp [url, present]

theorem tableSet_names (cached : Cached rt dbs cache) (expands : r.ragFkExpand = true) :
    (tableSet rt dbs cache r).1 =
      expandTables rt (graphOf rt (dbs.info rt dbs.default)) (parseMatchedTables r.ragChunks) := by
  have default : dbs.url none = dbs.default := rfl
  simp only [tableSet]
  by_cases nothing : parseMatchedTables r.ragChunks = []
  · simp [nothing, expandTables_nil]
  · simp [expands, nothing, buildGraph_graph cached, default]

theorem tableSet_cached (cached : Cached rt dbs cache) : Cached rt dbs (tableSet rt dbs cache r).2 := by
  simp only [tableSet]
  split
  · exact buildGraph_cached cached none
  · exact cached

theorem pruned_tables (samples : String → String) (cached : Cached rt dbs cache)
    (included : r.skipSchema = false) (expands : r.ragFkExpand = true)
    (pruned : r.useColumnPrune = true) :
    ∃ text, (schemaContext rt dbs samples cache r).1 =
      some ⟨text, (found rt (r.schema rt dbs) (expandTables rt
        (graphOf rt (dbs.info rt dbs.default)) (parseMatchedTables r.ragChunks))).map Prod.snd⟩ := by
  rw [← tableSet_names cached expands]
  simp only [schemaContext, included, pruned, Bool.false_eq_true, if_false, if_true]
  split
  next empty => exact ⟨r.schemaText, by rw [empty]; rfl⟩
  next => exact buildCompactDdl_tables r.score _ r.databaseUrl

theorem expandTables_nodup {graph : Graph} {names : List String} :
    (expandTables rt graph names).Nodup := rt.listed_nodup _

theorem near_lower {url : String} (near : k ∈ r.neighbours rt dbs url) : rt.lower k = k :=
  lower_key (hop_known near)

/-- Without pruning, all is well if a named table that is a neighbour is named in lower case. -/
theorem appended_iff (url : String) :
    Lists rt ((found rt (dbs.info rt url)
        (missing rt (graphOf rt (dbs.info rt url)) (parseMatchedTables r.ragChunks))).map Prod.snd)
      (r.neighbours rt dbs url \ r.named rt) ↔
    ∀ k ∈ r.neighbours rt dbs url, k ∈ r.named rt → k ∈ parseMatchedTables r.ragChunks := by
  have listed {x : String} :
      x ∈ missing rt (graphOf rt (dbs.info rt url)) (parseMatchedTables r.ragChunks) ↔
        x ∈ r.neighbours rt dbs url ∧ x ∉ parseMatchedTables r.ragChunks := mem_missing
  have distinct : (missing rt (graphOf rt (dbs.info rt url)) (parseMatchedTables r.ragChunks)).Nodup :=
    expandTables_nodup.filter _
  refine (lists_found_iff distinct).trans ⟨?_, fun respelled => ⟨?_, fun k => ⟨?_, ?_⟩⟩⟩
  · rintro ⟨-, exactly⟩ k near named
    by_contra unmatched
    have member := listed.mpr ⟨near, unmatched⟩
    exact ((exactly k).mp ⟨hop_known near, k, member, near_lower near⟩).2 named
  · intro x member _ y member' same
    rw [near_lower (listed.mp member).1, near_lower (listed.mp member').1] at same
    exact same
  · rintro ⟨-, x, member, rfl⟩
    obtain ⟨near, unmatched⟩ := listed.mp member
    rw [near_lower near]
    exact ⟨near, fun named => unmatched (respelled x near named)⟩
  · rintro ⟨near, unnamed⟩
    have lower := near_lower near
    have member := listed.mpr ⟨near, fun matched => unnamed ⟨k, matched, lower⟩⟩
    exact ⟨hop_known near, k, member, lower⟩

/-- With pruning, the spelling and the neighbours in the default database decide. -/
theorem compact_iff :
    Lists rt ((found rt (dbs.info rt (dbs.url r.databaseUrl)) (expandTables rt
        (graphOf rt (dbs.info rt dbs.default)) (parseMatchedTables r.ragChunks))).map Prod.snd)
      ({k | k ∈ r.named rt ∧ k ∈ (dbs.info rt (dbs.url r.databaseUrl)).names} ∪
        r.neighbours rt dbs (dbs.url r.databaseUrl)) ↔ Agrees rt dbs r := by
  have listed {x : String} :
      x ∈ expandTables rt (graphOf rt (dbs.info rt dbs.default)) (parseMatchedTables r.ragChunks) ↔
        x ∈ parseMatchedTables r.ragChunks ∨ x ∈ r.neighbours rt dbs dbs.default := mem_expandTables
  refine (lists_found_iff expandTables_nodup).trans ⟨?_, fun agrees => ⟨?_, fun k => ?_⟩⟩
  · rintro ⟨inj, exactly⟩
    constructor
    · intro t matched known
      constructor
      · intro t' matched' same
        exact (inj t (listed.mpr (.inl matched)) known t' (listed.mpr (.inl matched')) same.symm).symm
      · intro near
        exact (inj t (listed.mpr (.inl matched)) known _ (listed.mpr (.inr near))
          (near_lower near).symm).symm
    · intro k unnamed
      constructor
      · rintro ⟨known, near⟩
        have given := (exactly k).mp ⟨known, k, listed.mpr (.inr near), near_lower near⟩
        exact given.resolve_left fun named => unnamed named.1
      · intro near
        obtain ⟨known, x, member, rfl⟩ := (exactly k).mpr (.inr near)
        rcases listed.mp member with matched | near'
        · exact absurd ⟨x, matched, rfl⟩ unnamed
        · rw [near_lower near'] at known ⊢
          exact ⟨known, near'⟩
  · intro x member known y member' same
    rcases listed.mp member with matched | near <;> rcases listed.mp member' with matched' | near'
    · exact ((agrees.spelled x matched known).1 y matched' same.symm).symm
    · rw [near_lower near'] at same
      have lower := (agrees.spelled x matched known).2 (same ▸ near')
      exact lower.symm.trans same
    · rw [near_lower near] at same
      have known' : rt.lower y ∈ (dbs.info rt (dbs.url r.databaseUrl)).names := by
        rw [near_lower near, same] at known
        exact known
      exact same.trans ((agrees.spelled y matched' known').2 (same ▸ near))
    · rw [near_lower near, near_lower near'] at same
      exact same
  · constructor
    · rintro ⟨known, x, member, rfl⟩
      by_cases named : rt.lower x ∈ r.named rt
      · exact .inl ⟨named, known⟩
      · rcases listed.mp member with matched | near
        · exact absurd ⟨x, matched, rfl⟩ named
        · rw [near_lower near] at named known ⊢
          exact .inr ((agrees.neighbours x named).mp ⟨known, near⟩)
    · rintro (⟨⟨x, matched, rfl⟩, known⟩ | near)
      · exact ⟨known, x, listed.mpr (.inl matched), rfl⟩
      · have known : k ∈ (dbs.info rt (dbs.url r.databaseUrl)).names := hop_known near
        by_cases named : k ∈ r.named rt
        · obtain ⟨x, matched, same⟩ := named
          exact ⟨known, x, listed.mpr (.inl matched), same⟩
        · have near' := ((agrees.neighbours k named).mpr near).2
          exact ⟨known, k, listed.mpr (.inr near'), near_lower near⟩

theorem exact_iff (cached : Cached rt dbs cache) (included : r.skipSchema = false)
    (expands : r.ragFkExpand = true) : Exact rt dbs samples cache r ↔ Fits rt dbs r := by
  cases pruned : r.useColumnPrune with
  | false =>
    have tables : Exact rt dbs samples cache r ↔ Lists rt (expandSchemaText rt dbs samples cache
        r.schemaText r.ragChunks r.databaseUrl).1.tables (r.intended rt dbs) := by
      simp [Exact, schemaContext, included, pruned, expands]
    rw [tables, expandSchemaText_tables cached, Fits, Request.intended, pruned]
    by_cases url : Py.truthy r.databaseUrl = true
    · have given : dbs.url r.databaseUrl = r.databaseUrl.getD "" := if_pos url
      rw [if_pos url, if_pos url, given]
      exact appended_iff _
    · rw [if_neg url, if_neg url]
      exact lists_nil_iff
  | true =>
    obtain ⟨text, made⟩ := pruned_tables samples cached included expands pruned
    have tables : Exact rt dbs samples cache r ↔ Lists rt ((found rt (r.schema rt dbs) (expandTables rt
        (graphOf rt (dbs.info rt dbs.default)) (parseMatchedTables r.ragChunks))).map Prod.snd)
        (r.intended rt dbs) := by
      simp [Exact, made]
    rw [tables, Fits, Request.intended, pruned, Request.schema]
    by_cases url : Py.truthy r.databaseUrl = true
    · have given : dbs.url r.databaseUrl = r.databaseUrl.getD "" := if_pos url
      rw [if_pos url, if_pos url, ← given]
      exact compact_iff
    · rw [if_neg url, if_neg url, found_empty]
      exact lists_nil_iff

theorem expandSchemaText_cached (cached : Cached rt dbs cache) (schemaText : String)
    (ragChunks : List Chunk) (databaseUrl : Option String) :
    Cached rt dbs (expandSchemaText rt dbs samples cache schemaText ragChunks databaseUrl).2 := by
  simp only [expandSchemaText]
  split
  · exact cached
  · split <;> exact buildGraph_cached cached databaseUrl

theorem schemaContext_cached (cached : Cached rt dbs cache) :
    Cached rt dbs (schemaContext rt dbs samples cache r).2 := by
  simp only [schemaContext]
  split
  · exact cached
  · split
    · split <;> exact tableSet_cached cached
    · split
      · exact expandSchemaText_cached cached _ _ _
      · exact cached

/-- The graph that is cached after these calls. -/
def afterwards (rt : Runtime) (dbs : Databases) (samples : String → String)
    (earlier : List Request) : Option Cache :=
  earlier.foldl (fun cache r => (schemaContext rt dbs samples cache r).2) none

theorem cached_none : Cached rt dbs none := by
  simp [Cached]

theorem afterwards_cached (earlier : List Request) :
    Cached rt dbs (afterwards rt dbs samples earlier) := by
  have kept (cache : Option Cache) (cached : Cached rt dbs cache) : Cached rt dbs
      (earlier.foldl (fun cache r => (schemaContext rt dbs samples cache r).2) cache) := by
    induction earlier generalizing cache with
    | nil => exact cached
    | cons r rest ih => exact ih _ (schemaContext_cached cached)
  exact kept none cached_none

/-- After any calls, for any databases. -/
theorem schema_context_iff (rt : Runtime) (dbs : Databases) (samples : String → String)
    (earlier : List Request) (r : Request) (included : r.skipSchema = false)
    (expands : r.ragFkExpand = true) :
    Exact rt dbs samples (afterwards rt dbs samples earlier) r ↔ Fits rt dbs r :=
  exact_iff (afterwards_cached earlier) included expands

end

def customers : Table where
  actualName := "Customers"
  columns := [⟨"id", "INTEGER", false⟩, ⟨"name", "TEXT", true⟩]
  pkCols := ["id"]
  fks := []
  pk_known := by decide
  fk_known := by decide

def orders : Table where
  actualName := "Orders"
  columns := [⟨"id", "INTEGER", false⟩, ⟨"customer_id", "INTEGER", true⟩]
  pkCols := ["id"]
  fks := [⟨["customer_id"], "Customers", ["id"]⟩]
  pk_known := by decide
  fk_known := by decide

/-- The default database is empty. -/
def shop : Databases where
  tables url := if url = "sqlite:///shop.db" then [customers, orders] else []
  default := "sqlite:///./data/demo.db"

def asking (tables : List String) (prune : Bool) : Request where
  databaseUrl := some "sqlite:///shop.db"
  ragColumnPrune := prune
  complexity := "complex"
  ragFkExpand := true
  skipSchema := false
  schemaText := ""
  ragChunks := tables.map fun t => ⟨some (some t)⟩
  score _ _ := 0

theorem schema_context_lower :
    Exact Runtime.ascii shop (fun _ => "") none (asking ["orders"] false) := by
  apply (schema_context_iff _ _ _ [] _ rfl rfl).mpr
  have matched : parseMatchedTables (asking ["orders"] false).ragChunks = ["orders"] := by decide
  rintro k - ⟨t, member, rfl⟩
  rw [matched] at member ⊢
  obtain rfl := List.mem_singleton.mp member
  decide +kernel

theorem shop_refers :
    Refers Runtime.ascii (shop.info Runtime.ascii "sqlite:///shop.db") "orders" "customers" := by
  refine ⟨orders, ?_, ⟨["customer_id"], "Customers", ["id"]⟩, ?_, ?_, ?_⟩ <;> decide +kernel

/-- A table that is named, though not in lower case, is given DDL again; and with pruning
the neighbours are looked for in the default database. -/
theorem schema_context_inexact :
    ¬ Exact Runtime.ascii shop (fun _ => "") none (asking ["Orders", "Customers"] false) ∧
    ¬ Exact Runtime.ascii shop (fun _ => "") none (asking ["Orders"] true) := by
  have lower : Runtime.ascii.lower "Orders" = "orders" := by decide +kernel
  constructor
  · intro holds
    have respelled : ∀ k ∈ (asking ["Orders", "Customers"] false).neighbours Runtime.ascii shop
        "sqlite:///shop.db", k ∈ (asking ["Orders", "Customers"] false).named Runtime.ascii →
          k ∈ parseMatchedTables (asking ["Orders", "Customers"] false).ragChunks :=
      (exact_iff cached_none rfl rfl).mp holds
    have near : "customers" ∈ (asking ["Orders", "Customers"] false).neighbours Runtime.ascii shop
        "sqlite:///shop.db" := ⟨"orders", ⟨"Orders", by decide, lower⟩, .inl shop_refers⟩
    have twice := respelled "customers" near ⟨"Customers", by decide, by decide +kernel⟩
    exact absurd twice (by decide)
  · intro holds
    have agrees : Agrees Runtime.ascii shop (asking ["Orders"] true) :=
      (exact_iff cached_none rfl rfl).mp holds
    have near : "customers" ∈ (asking ["Orders"] true).neighbours Runtime.ascii shop
        "sqlite:///shop.db" := ⟨"orders", ⟨"Orders", by decide, lower⟩, .inl shop_refers⟩
    have unnamed : "customers" ∉ (asking ["Orders"] true).named Runtime.ascii := by
      have matched : parseMatchedTables (asking ["Orders"] true).ragChunks = ["Orders"] := by decide
      rintro ⟨t, member, same⟩
      rw [matched] at member
      obtain rfl := List.mem_singleton.mp member
      exact absurd same (by decide +kernel)
    obtain ⟨-, other⟩ := (agrees.neighbours "customers" unnamed).mpr near
    have nothing := hop_known other
    exact absurd nothing (by decide +kernel)

end SchemaContext
end Nl2SqlAgent

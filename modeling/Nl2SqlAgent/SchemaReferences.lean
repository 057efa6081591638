import Nl2SqlAgent.Hallucinations

/-! What `check_hallucinations` says of a query and what the names of the query mean: which
references it lets through, and which it reports although they resolve. -/
namespace Nl2SqlAgent

open Lib

namespace Hallucinations

open SqlScope

/-- What the dialects do differently. -/
structure Dialect where
  hidden : List String
  implied : Expr → Option String
  sees : Kind → Bool

/-- The tables of the schema; names are compared in lower case. -/
def catalog (rt : Runtime) (schema : SchemaInfo) (d : Dialect) : Catalog where
  tables := schema
  fold := rt.lower
  hidden := d.hidden
  implied := d.implied
  sees := d.sees

/-- What `find_all` yields of a walk. -/
def Tree.of (walk : List Naming) : Tree where
  ctes := walk.filterMap fun
    | .cte name => some name
    | _ => none
  tables := walk.filterMap fun
    | .table name aliasName => some (name, aliasName)
    | _ => none
  columns := walk.filterMap fun
    | .column owner name => some (owner, name)
    | .star owner => some (owner, "*")
    | _ => none
  aliases := walk.filterMap fun
    | .label name => some name
    | _ => none

/-- The tree is that of the query, walked in some order. -/
def Reads (cat : Catalog) (tree : Tree) (q : Query) : Prop :=
  ∃ walk : List Naming, walk.Perm (q.nodes cat) ∧ tree = Tree.of walk

section Named

variable (cat : Catalog) (q : Query) (name : String)

def IsCte : Prop := ∃ c, .cte c ∈ q.nodes cat ∧ c ≠ "" ∧ cat.fold c = cat.fold name

def IsTableAlias : Prop := ∃ t a, .table t a ∈ q.nodes cat ∧ a ≠ "" ∧ cat.fold a = cat.fold name

def IsDerived : Prop := ∃ a, .derived a ∈ q.nodes cat ∧ a ≠ "" ∧ cat.fold a = cat.fold name

def IsLabel : Prop := ∃ l, .label l ∈ q.nodes cat ∧ l ≠ "" ∧ cat.fold l = cat.fold name

/-- A name that neither the schema nor a label gives: of a column list, of an unnamed output or of
a column that every table has. -/
def IsFresh : Prop :=
  ∃ c, (.listed c ∈ q.nodes cat ∨ .implied c ∈ q.nodes cat ∨ c ∈ cat.hidden) ∧ cat.fold c = cat.fold name

end Named

section

variable {rt : Runtime} {schema : SchemaInfo} {d : Dialect} {tree : Tree} {q : Query} {name owner : String}

theorem mem_lowered {names : List String} {n : String} :
    n ∈ lowered rt names ↔ ∃ a ∈ names, a ≠ "" ∧ rt.lower a = n := by
  simp [lowered, and_assoc]

theorem mem_part {α : Type} {f : Naming → Option α} {node : Naming} {x : α} {walk nodes : List Naming}
    (perm : walk.Perm nodes) (only : ∀ n, f n = some x ↔ n = node) :
    x ∈ walk.filterMap f ↔ node ∈ nodes := by
  rw [← perm.mem_iff]
  simp only [List.mem_filterMap, only, exists_eq_right]

theorem mem_schemaTables : rt.lower name ∈ schemaTables rt schema ↔
    (catalog rt schema d).tablesNamed name ≠ [] := by
  simp only [Catalog.tablesNamed, catalog, ne_eq, List.filter_eq_nil_iff, not_forall, not_not,
    schemaTables, List.mem_toFinset, List.mem_map, exists_prop]
  exact exists_congr fun t => and_congr_right fun _ => decide_eq_true_iff.symm

theorem mem_schemaCols :
    rt.lower name ∈ schemaCols rt schema ↔ ∃ t ∈ schema, ∃ c ∈ t.2, rt.lower c = rt.lower name := by
  simp [schemaCols]

theorem Reads.mem_ctes (reads : Reads (catalog rt schema d) tree q) :
    rt.lower name ∈ cteNames rt tree ↔ IsCte (catalog rt schema d) q name := by
  obtain ⟨walk, perm, rfl⟩ := reads
  have among (c : String) : c ∈ (Tree.of walk).ctes ↔ .cte c ∈ q.nodes (catalog rt schema d) :=
    mem_part perm fun n => by cases n <;> simp
  simp only [cteNames, mem_lowered, among, IsCte]
  rfl

theorem Reads.mem_tables (reads : Reads (catalog rt schema d) tree q) (t a : String) :
    (t, a) ∈ tree.tables ↔ .table t a ∈ q.nodes (catalog rt schema d) := by
  obtain ⟨walk, perm, rfl⟩ := reads
  exact mem_part perm fun n => by cases n <;> simp

theorem Reads.mem_aliases (reads : Reads (catalog rt schema d) tree q) :
    rt.lower name ∈ tableAliases rt tree ↔ IsTableAlias (catalog rt schema d) q name := by
  simp only [tableAliases, mem_lowered, IsTableAlias, List.mem_map, Prod.exists, exists_eq_right,
    reads.mem_tables]
  constructor
  · rintro ⟨a, ⟨t, node⟩, rest⟩
    exact ⟨t, a, node, rest⟩
  · rintro ⟨t, a, node, rest⟩
    exact ⟨a, ⟨t, node⟩, rest⟩

theorem Reads.select_alias (reads : Reads (catalog rt schema d) tree q) :
    isSelectAlias rt tree (rt.lower name) = true ↔ IsLabel (catalog rt schema d) q name := by
  obtain ⟨walk, perm, rfl⟩ := reads
  have among (c : String) : c ∈ (Tree.of walk).aliases ↔ .label c ∈ q.nodes (catalog rt schema d) :=
    mem_part perm fun n => by cases n <;> simp
  simp only [isSelectAlias, List.any_eq_true, among, Bool.and_eq_true, decide_eq_true_eq, IsLabel]
  rfl

theorem Reads.mem_columns (reads : Reads (catalog rt schema d) tree q) (owner name : String) :
    (owner, name) ∈ tree.columns ↔ .column owner name ∈ q.nodes (catalog rt schema d) ∨
      (name = "*" ∧ .star owner ∈ q.nodes (catalog rt schema d)) := by
  obtain ⟨walk, perm, rfl⟩ := reads
  rw [← perm.mem_iff, ← perm.mem_iff]
  simp only [Tree.of, List.mem_filterMap]
  constructor
  · rintro ⟨node, member, same⟩
    cases node <;> simp_all
  · rintro (member | ⟨rfl, member⟩)
    · exact ⟨_, member, rfl⟩
    · exact ⟨_, member, rfl⟩

/-- A table of the schema with this column, where no name of a table has a dot. -/
theorem mem_qualifiedCols : qualifiedName rt owner name ∈ qualifiedCols rt schema ↔
    ∃ t ∈ schema, ∃ c ∈ t.2, qualifiedName rt t.1 c = qualifiedName rt owner name := by
  simp [qualifiedCols]

theorem qualifiedName_inj {t c : String} (plain : '.' ∉ (rt.lower t).toList)
    (plain' : '.' ∉ (rt.lower owner).toList) (same : qualifiedName rt t c = qualifiedName rt owner name) :
    rt.lower t = rt.lower owner ∧ rt.lower c = rt.lower name := by
  have chars := congrArg String.toList same
  simp only [qualifiedName, String.toList_append, List.append_assoc] at chars
  obtain ⟨owners, names⟩ := @Py.separated_inj '.' _ _ _ _ chars plain plain'
  exact ⟨String.toList_inj.mp owners, String.toList_inj.mp names⟩

end

/-- How a reference to columns stands in the tree. -/
def shown : Ref → Option (String × String)
  | .table _ => none
  | .column owner name => some (owner, name)
  | .star owner => some (owner, "*")

/-- The name is listed and no table that goes by its qualifier has the column: it is the name of
another table's, which is split at another dot. -/
structure Resplit (rt : Runtime) (schema : SchemaInfo) (owner name : String) : Prop where
  absent : ∀ t ∈ schema, rt.lower t.1 = rt.lower owner → ∀ c ∈ t.2, rt.lower c ≠ rt.lower name
  dotted : ∃ t ∈ schema, ('.' ∈ (rt.lower t.1).toList ∨ '.' ∈ (rt.lower owner).toList) ∧
    ∃ c ∈ t.2, qualifiedName rt t.1 c = qualifiedName rt owner name

theorem listed_own {rt : Runtime} {schema : SchemaInfo} {owner name : String}
    (listed : qualifiedName rt owner name ∈ qualifiedCols rt schema)
    (plain : ¬ Resplit rt schema owner name) :
    ∃ t ∈ schema, rt.lower t.1 = rt.lower owner ∧ ∃ c ∈ t.2, rt.lower c = rt.lower name := by
  by_contra absent
  push Not at absent
  obtain ⟨t, table, c, column, same⟩ := mem_qualifiedCols.mp listed
  refine plain ⟨absent, t, table, ?_, c, column, same⟩
  by_contra undotted
  obtain ⟨owners, names⟩ := not_or.mp undotted
  obtain ⟨named, listed⟩ := qualifiedName_inj owners names same
  exact absent t table named c column listed

/-- What the check lets through although it need not resolve: a table that goes by the name of some
CTE; what is qualified by some CTE or some alias of a table; a column that a table of the schema has
where its name does not mean this table; a short name, a number or a word on the list; a bare name
that some table of the schema has as a column, or that is some CTE, alias of a table or label. -/
inductive Unchecked (rt : Runtime) (schema : SchemaInfo) (d : Dialect) (q : Query) (p : Place) : Prop where
  | table (name : String) (ref : p.ref = .table name)
      (named : IsCte (catalog rt schema d) q name ∨ rt.lower name = "")
  | trusted (owner name : String) (ref : shown p.ref = some (owner, name)) (qualified : owner ≠ "")
      (named : IsCte (catalog rt schema d) q owner ∨ IsTableAlias (catalog rt schema d) q owner)
  | elsewhere (owner name : String) (ref : shown p.ref = some (owner, name)) (qualified : owner ≠ "")
      (listed : qualifiedName rt owner name ∈ qualifiedCols rt schema)
      (other : (catalog rt schema d).sourcesNamed p.scope owner = [] ∨
        IsDerived (catalog rt schema d) q owner ∨ Resplit rt schema owner name)
  | word (name : String) (ref : shown p.ref = some ("", name))
      (word : rt.lower name ∈ sqlKw ∨ isdigit rt (rt.lower name) = true ∨ (rt.lower name).length ≤ 1)
  | bare (name : String) (ref : shown p.ref = some ("", name))
      (known : rt.lower name ∈ schemaCols rt schema ∨ IsCte (catalog rt schema d) q name ∨
        IsTableAlias (catalog rt schema d) q name ∨ IsLabel (catalog rt schema d) q name)

section

variable {rt : Runtime} {schema : SchemaInfo} {d : Dialect} {tree : Tree} {q : Query} {p : Place}
  {parseOne : String → Option Tree} {sql : String}

theorem all_kept (cat : Catalog) (q : Query) : ∀ p ∈ q.places cat .empty,
    Kept cat (· ∈ q.nodes cat) (fun _ => True) p.scope :=
  (q.kept ⟨fun _ _ _ _ => trivial, fun _ _ => trivial, fun _ _ => trivial, fun _ _ => trivial,
    fun _ _ => trivial⟩ .empty .empty (fun _ => id) fun _ _ _ _ _ _ => trivial).2

theorem Reads.mem_shown (reads : Reads (catalog rt schema d) tree q)
    (place : p ∈ q.places (catalog rt schema d) .empty) {owner name : String}
    (ref : shown p.ref = some (owner, name)) : (owner, name) ∈ tree.columns := by
  rw [reads.mem_columns]
  cases here : p.ref with
  | table t => simp [here, shown] at ref
  | column t c =>
    obtain ⟨rfl, rfl⟩ : t = owner ∧ c = name := by simpa [here, shown] using ref
    exact .inl (Query.column_node place here)
  | star t =>
    obtain ⟨rfl, rfl⟩ : t = owner ∧ "*" = name := by simpa [here, shown] using ref
    exact .inr ⟨rfl, Query.star_node place here⟩

/-- A source that goes by a name which no CTE, alias or derived table of the query has is the table
of the schema. -/
theorem plain_source {owner : String} {b : Binding} (place : p ∈ q.places (catalog rt schema d) .empty)
    (source : b ∈ (catalog rt schema d).sourcesNamed p.scope owner)
    (cte : ¬ IsCte (catalog rt schema d) q owner) (aliased : ¬ IsTableAlias (catalog rt schema d) q owner)
    (derived : ¬ IsDerived (catalog rt schema d) q owner)
    (present : (catalog rt schema d).tablesNamed owner ≠ []) :
    b.columns = ((catalog rt schema d).tablesNamed owner).flatMap Prod.snd ++ d.hidden := by
  obtain ⟨named, f, frame, inside⟩ := sourcesNamed_mem source
  have same : (catalog rt schema d).tablesNamed b.name = (catalog rt schema d).tablesNamed owner := by
    simp only [Catalog.tablesNamed, named.2]
  cases ((all_kept _ q p place).sources f frame b inside).1 with
  | table node present columns => rwa [same] at columns
  | missing absent => exact absurd (same.symm.trans absent) present
  | cte c node owned => exact absurd ⟨c.name, node, owned.1, owned.2.trans named.2⟩ cte
  | aliased t node given => exact absurd ⟨t, b.name, node, given, named.2⟩ aliased
  | derived node => exact absurd ⟨b.name, node, named⟩ derived

theorem qualified_bounds (reads : Reads (catalog rt schema d) tree q) (known : Known rt schema tree)
    (place : p ∈ q.places (catalog rt schema d) .empty) {owner name : String}
    (ref : shown p.ref = some (owner, name)) (qualified : owner ≠ "") :
    (catalog rt schema d).Resolves p ∨ Unchecked rt schema d q p := by
  rcases known.qualified _ (reads.mem_shown place ref) qualified with trusted | listed
  · rw [reads.mem_ctes, reads.mem_aliases] at trusted
    exact .inr (.trusted owner name ref qualified trusted)
  · by_cases other : (catalog rt schema d).sourcesNamed p.scope owner = [] ∨
        IsDerived (catalog rt schema d) q owner ∨ Resplit rt schema owner name
    · exact .inr (.elsewhere owner name ref qualified listed other)
    · by_cases trusted : IsCte (catalog rt schema d) q owner ∨ IsTableAlias (catalog rt schema d) q owner
      · exact .inr (.trusted owner name ref qualified trusted)
      · refine .inl ?_
        obtain ⟨inScope, derived, plain⟩ : _ ∧ _ ∧ _ := by simpa only [not_or] using other
        obtain ⟨cte, aliased⟩ := not_or.mp trusted
        obtain ⟨t, table, owners, c, column, names⟩ := listed_own listed plain
        have member : t ∈ (catalog rt schema d).tablesNamed owner :=
          List.mem_filter.mpr ⟨table, decide_eq_true owners⟩
        obtain ⟨b, source⟩ := List.exists_mem_of_ne_nil _ inScope
        have columns := plain_source place source cte aliased derived (List.ne_nil_of_mem member)
        cases here : p.ref with
        | table t => simp [here, shown] at ref
        | star t =>
          obtain ⟨rfl, -⟩ : t = owner ∧ "*" = name := by simpa [here, shown] using ref
          simpa only [Catalog.Resolves, here] using inScope
        | column t c' =>
          obtain ⟨rfl, rfl⟩ : t = owner ∧ c' = name := by simpa [here, shown] using ref
          simp only [Catalog.Resolves, here, if_neg qualified]
          refine ⟨b, source, c, ?_, names⟩
          rw [columns]
          exact List.mem_append_left _ (List.mem_flatMap.mpr ⟨_, member, column⟩)

theorem bare_bounds (reads : Reads (catalog rt schema d) tree q) (known : Known rt schema tree)
    (place : p ∈ q.places (catalog rt schema d) .empty) {name : String}
    (ref : shown p.ref = some ("", name)) : Unchecked rt schema d q p := by
  rcases known.bare _ (reads.mem_shown place ref) rfl with word | (column | cte | aliased) | star | label
  · exact .word name ref word
  · exact .bare name ref (.inl column)
  · exact .bare name ref (.inr (.inl (reads.mem_ctes.mp cte)))
  · exact .bare name ref (.inr (.inr (.inl (reads.mem_aliases.mp aliased))))
  · refine .word name ref (.inr (.inr ?_))
    rw [star]
    decide
  · exact .bare name ref (.inr (.inr (.inr (reads.select_alias.mp label))))

/-- Of a query that is found valid every table and every column resolves, apart from those that the
check does not look at. -/
theorem valid_bounds (rt : Runtime) (parseOne : String → Option Tree) (sql : String) (schema : SchemaInfo)
    (d : Dialect) (tree : Tree) (q : Query) (parsed : parseOne sql = some tree)
    (reads : Reads (catalog rt schema d) tree q)
    (valid : (checkHallucinations rt parseOne sql schema).valid = true) :
    ∀ p ∈ q.places (catalog rt schema d) .empty,
      (catalog rt schema d).Resolves p ∨ Unchecked rt schema d q p := by
  obtain ⟨tree', parsed', known⟩ := issues_empty_iff.mp (valid_iff.mp valid)
  obtain rfl := Option.some.inj (parsed.symm.trans parsed')
  intro p place
  have column {owner name : String} (ref : shown p.ref = some (owner, name)) :
      (catalog rt schema d).Resolves p ∨ Unchecked rt schema d q p := by
    by_cases bare : owner = ""
    · subst bare
      exact .inr (bare_bounds reads known place ref)
    · exact qualified_bounds reads known place ref bare
  cases here : p.ref with
  | column owner name => exact column (by rw [here]; rfl)
  | star owner => exact column (by rw [here]; rfl)
  | table name =>
    obtain ⟨a, node⟩ := Query.table_node place here
    by_cases passes : IsCte (catalog rt schema d) q name ∨ rt.lower name = ""
    · exact .inr (.table name here passes)
    · obtain ⟨cte, nonempty⟩ := not_or.mp passes
      have reference : rt.lower name ∈ tableRefs rt tree := by
        simp only [tableRefs, List.mem_toFinset, List.mem_filter, List.mem_map, decide_eq_true_eq]
        exact ⟨⟨(name, a), (reads.mem_tables name a).mpr node, rfl⟩, nonempty, reads.mem_ctes.not.mpr cte⟩
      have table := (mem_schemaTables (d := d)).mp (known.tables _ reference)
      refine .inl ?_
      simp only [Catalog.Resolves, here]
      exact .inr table

end

def shopSchema : SchemaInfo := [("orders",["id","total"]), ("customers",["id","name"])]

/-- A dialect whose labels are seen where the groups are sorted. -/
def plainDialect : Dialect where
  hidden := []
  implied _ := none
  sees kind := kind ≠ .on ∧ kind ≠ .filter

def shopCatalog : Catalog := catalog .ascii shopSchema plainDialect

/-- `SELECT owner.column FROM table AS alias`. -/
def selecting (owner column table aliasName : String) : Query :=
  .select .nil (.value (.column owner column) "" .nil) (.table table aliasName .nil) .nil

theorem reads_self (cat : Catalog) (q : Query) : Reads cat (Tree.of (q.nodes cat)) q := ⟨_, .refl _, rfl⟩

theorem valid_bounds_shop :
    Place.mk .empty (.table "orders") ∈ (selecting "o" "total" "orders" "o").places shopCatalog .empty ∧
    ∀ p ∈ (selecting "o" "total" "orders" "o").places shopCatalog .empty, shopCatalog.Resolves p ∨
      Unchecked .ascii shopSchema plainDialect (selecting "o" "total" "orders" "o") p :=
  ⟨by decide +kernel, valid_bounds .ascii
    (fun _ => some (Tree.of ((selecting "o" "total" "orders" "o").nodes shopCatalog)))
    "SELECT o.total FROM orders AS o" shopSchema plainDialect _ _ rfl (reads_self _ _) (by decide +kernel)⟩

/-- `SELECT g.id FROM ghost AS g WHERE g.id IN (WITH ghost AS (SELECT id FROM orders) SELECT id
FROM ghost)`: the first `ghost` is no table. -/
def ofGhost : Query :=
  .select .nil (.value (.column "g" "id") "" .nil) (.table "ghost" "g" .nil)
    (.cons .filter (.op (.column "g" "id") (.query
      (.select (.cons "ghost" [] (selecting "" "id" "orders" "") .nil)
        (.value (.column "" "id") "" .nil) (.table "ghost" "" .nil) .nil))) .nil)

/-- The check finds the text of the query valid, and a name in the query does not resolve. -/
def WronglyValid (sql : String) (q : Query) : Prop :=
  (checkHallucinations .ascii (fun _ => some (Tree.of (q.nodes shopCatalog))) sql shopSchema).valid = true ∧
    ¬ q.WellScoped shopCatalog

/-- Found valid although a name in them means nothing: an alias, a table that is not in scope, a
column of another table, a word on the list, and the table that is named as a CTE elsewhere. -/
theorem lets_through :
    WronglyValid "SELECT o.nope FROM orders AS o" (selecting "o" "nope" "orders" "o") ∧
    WronglyValid "SELECT customers.name FROM orders" (selecting "customers" "name" "orders" "") ∧
    WronglyValid "SELECT name FROM orders" (selecting "" "name" "orders" "") ∧
    WronglyValid "SELECT rank FROM orders" (selecting "" "rank" "orders" "") ∧
    WronglyValid ("SELECT g.id FROM ghost AS g WHERE g.id IN " ++
      "(WITH ghost AS (SELECT id FROM orders) SELECT id FROM ghost)") ofGhost := by
  unfold WronglyValid
  decide +kernel

/-- What a qualified name passes by, said of the query. -/
def Trusted (rt : Runtime) (schema : SchemaInfo) (d : Dialect) (q : Query) (owner name : String) : Prop :=
  (IsCte (catalog rt schema d) q owner ∨ IsTableAlias (catalog rt schema d) q owner) ∨
  qualifiedName rt owner name ∈ qualifiedCols rt schema

/-- What a bare name passes by, said of the query. -/
def Familiar (rt : Runtime) (schema : SchemaInfo) (d : Dialect) (q : Query) (name : String) : Prop :=
  (rt.lower name ∈ sqlKw ∨ isdigit rt (rt.lower name) = true ∨ (rt.lower name).length ≤ 1) ∨
  (rt.lower name ∈ schemaCols rt schema ∨ IsCte (catalog rt schema d) q name ∨
    IsTableAlias (catalog rt schema d) q name ∨ IsLabel (catalog rt schema d) q name)

/-- The ways of naming a column that the check does not know. None of them occurs where it would
be reported: the columns of a table under its own name all at once, a column of a derived table or
one that every table has with its qualifier, and a bare name that only a column list, an unnamed
output or every table gives. -/
structure Recognised (rt : Runtime) (schema : SchemaInfo) (d : Dialect) (q : Query) : Prop where
  stars : ∀ owner, .star owner ∈ q.nodes (catalog rt schema d) → owner ≠ "" →
    Trusted rt schema d q owner "*"
  qualified : ∀ owner name, .column owner name ∈ q.nodes (catalog rt schema d) → owner ≠ "" →
    (IsDerived (catalog rt schema d) q owner ∨ ∃ c ∈ d.hidden, rt.lower c = rt.lower name) →
    Trusted rt schema d q owner name
  bare : ∀ name, .column "" name ∈ q.nodes (catalog rt schema d) → IsFresh (catalog rt schema d) q name →
    Familiar rt schema d q name

section

variable {rt : Runtime} {schema : SchemaInfo} {d : Dialect} {tree : Tree} {q : Query}

/-- A name that some table of the schema has as a column, that is a label, or a fresh one. -/
def Founded (rt : Runtime) (schema : SchemaInfo) (d : Dialect) (q : Query) (name : String) : Prop :=
  rt.lower name ∈ schemaCols rt schema ∨
  (∃ l, .label l ∈ q.nodes (catalog rt schema d) ∧ rt.lower l = rt.lower name) ∨
  IsFresh (catalog rt schema d) q name

theorem Founded.congr {c c' : String} (same : rt.lower c = rt.lower c')
    (founded : Founded rt schema d q c) : Founded rt schema d q c' := by
  have same' : (catalog rt schema d).fold c = (catalog rt schema d).fold c' := same
  simpa only [Founded, IsFresh, same, same'] using founded

theorem founded_grounds : Grounds (catalog rt schema d) (· ∈ q.nodes (catalog rt schema d))
    (Founded rt schema d q) where
  table t member c column := .inl (mem_schemaCols.mpr ⟨t, member, c, column, rfl⟩)
  hidden c member := .inr (.inr ⟨c, .inr (.inr member), rfl⟩)
  label c node := .inr (.inl ⟨c, node, rfl⟩)
  listed c node := .inr (.inr ⟨c, .inl node, rfl⟩)
  implied c node := .inr (.inr ⟨c, .inr (.inl node), rfl⟩)

/-- Where every reference resolves, every column that is seen has a founded name. -/
theorem scoped_kept (well : q.WellScoped (catalog rt schema d)) :
    ∀ p ∈ q.places (catalog rt schema d) .empty,
      Kept (catalog rt schema d) (· ∈ q.nodes (catalog rt schema d)) (Founded rt schema d q) p.scope := by
  refine (q.kept founded_grounds .empty .empty (fun _ => id) fun p place owner name ref kept => ?_).2
  have resolves := well p place
  obtain ⟨scope, ref'⟩ := p
  obtain rfl : ref' = .column owner name := ref
  exact kept.resolved (fun _ _ => Founded.congr) resolves

theorem Reads.trusted_iff (reads : Reads (catalog rt schema d) tree q) (owner name : String) :
    QualifiedKnown rt schema tree owner name ↔ Trusted rt schema d q owner name := by
  rw [QualifiedKnown, Trusted, reads.mem_ctes, reads.mem_aliases]

theorem Reads.familiar_iff (reads : Reads (catalog rt schema d) tree q) (name : String) :
    BareKnown rt schema tree (rt.lower name) ↔ Familiar rt schema d q name := by
  have star : rt.lower name = "*" → (rt.lower name).length ≤ 1 := by
    intro same
    rw [same]
    decide
  rw [BareKnown, Familiar, reads.mem_ctes, reads.mem_aliases, reads.select_alias]
  tauto

/-- A column that resolves with its qualifier passes, apart from those of derived tables and those
that every table has. -/
theorem resolved_trusted (well : q.WellScoped (catalog rt schema d)) {owner name : String}
    (node : .column owner name ∈ q.nodes (catalog rt schema d)) (qualified : owner ≠ "") :
    Trusted rt schema d q owner name ∨ IsDerived (catalog rt schema d) q owner ∨
      ∃ c ∈ d.hidden, rt.lower c = rt.lower name := by
  obtain ⟨p, place, ref⟩ := (q.mem_places _ .empty _).mpr ⟨_, node, rfl⟩
  have resolves := well p place
  simp only [Catalog.Resolves, ref, if_neg qualified] at resolves
  obtain ⟨b, source, c, column, same⟩ := resolves
  obtain ⟨named, f, frame, inside⟩ := sourcesNamed_mem source
  cases ((scoped_kept well p place).sources f frame b inside).1 with
  | table node present columns =>
    rw [columns] at column
    rcases List.mem_append.mp column with own | hidden
    · obtain ⟨t, table, own⟩ := List.mem_flatMap.mp own
      obtain ⟨table, folded⟩ := List.mem_filter.mp table
      refine .inl (.inr (mem_qualifiedCols.mpr ⟨t, table, c, own, ?_⟩))
      have owners : rt.lower t.1 = rt.lower owner := (of_decide_eq_true folded).trans named.2
      have names : rt.lower c = rt.lower name := same
      rw [qualifiedName, qualifiedName, owners, names]
    · exact .inr (.inr ⟨c, hidden, same⟩)
  | missing absent columns =>
    rw [columns] at column
    cases column
  | cte c node owned => exact .inl (.inl (.inl ⟨c.name, node, owned.1, owned.2.trans named.2⟩))
  | aliased t node given => exact .inl (.inl (.inr ⟨t, b.name, node, given, named.2⟩))
  | derived node => exact .inr (.inl ⟨b.name, node, named⟩)

theorem resolved_founded (well : q.WellScoped (catalog rt schema d)) {owner name : String}
    (node : .column owner name ∈ q.nodes (catalog rt schema d)) : Founded rt schema d q name := by
  obtain ⟨⟨scope, ref'⟩, place, ref⟩ := (q.mem_places _ .empty _).mpr ⟨_, node, rfl⟩
  obtain rfl : ref' = .column owner name := ref
  exact (scoped_kept well _ place).resolved (fun _ _ => Founded.congr) (well _ place)

theorem resolved_table (well : q.WellScoped (catalog rt schema d)) {name aliasName : String}
    (node : .table name aliasName ∈ q.nodes (catalog rt schema d)) :
    IsCte (catalog rt schema d) q name ∨ rt.lower name ∈ schemaTables rt schema := by
  obtain ⟨p, place, ref⟩ := (q.mem_places _ .empty _).mpr ⟨_, node, rfl⟩
  have resolves := well p place
  simp only [Catalog.Resolves, ref] at resolves
  rcases resolves with cte | table
  · obtain ⟨b, found⟩ := Option.isSome_iff_exists.mp cte
    have named : (catalog rt schema d).Named b name := by simpa using List.find?_some found
    have carried := ((scoped_kept well p place).ctes b (List.mem_of_find?_eq_some found)).1
    exact .inl ⟨b.name, carried, named⟩
  · exact .inr ((mem_schemaTables (d := d)).mpr table)

theorem familiar_of_founded (recognised : Recognised rt schema d q) {name : String}
    (node : .column "" name ∈ q.nodes (catalog rt schema d)) (founded : Founded rt schema d q name) :
    Familiar rt schema d q name := by
  rcases founded with column | ⟨l, label, same⟩ | fresh
  · exact .inr (.inl column)
  · by_cases unnamed : l = ""
    · have empty : rt.lower "" = "" := rt.case.lower_of_ascii nofun
      rw [unnamed, empty] at same
      refine .inl (.inr (.inr ?_))
      rw [← same]
      decide
    · exact .inr (.inr (.inr (.inr ⟨l, label, unnamed, same⟩)))
  · exact recognised.bare name node fresh

/-- Of a query that resolves, read as it is, every name passes exactly if all are recognised. -/
theorem known_iff_recognised (reads : Reads (catalog rt schema d) tree q)
    (well : q.WellScoped (catalog rt schema d)) : Known rt schema tree ↔ Recognised rt schema d q := by
  constructor
  · intro known
    refine ⟨fun owner node qualified => ?_, fun owner name node qualified _ => ?_, fun name node _ => ?_⟩
    · have member := (reads.mem_columns owner "*").mpr (.inr ⟨rfl, node⟩)
      exact (reads.trusted_iff owner "*").mp (known.qualified (owner, "*") member qualified)
    · have member := (reads.mem_columns owner name).mpr (.inl node)
      exact (reads.trusted_iff owner name).mp (known.qualified (owner, name) member qualified)
    · have member := (reads.mem_columns "" name).mpr (.inl node)
      exact (reads.familiar_iff name).mp (known.bare ("", name) member rfl)
  · intro recognised
    refine ⟨fun t member => ?_, fun ⟨owner, name⟩ member qualified => ?_, fun ⟨owner, name⟩ member bare => ?_⟩
    · simp only [tableRefs, List.mem_toFinset, List.mem_filter, List.mem_map, decide_eq_true_eq] at member
      obtain ⟨⟨⟨n, a⟩, table, rfl⟩, -, noCte⟩ := member
      rcases resolved_table well ((reads.mem_tables n a).mp table) with cte | present
      · exact absurd (reads.mem_ctes.mpr cte) noCte
      · exact present
    · rw [reads.trusted_iff]
      rcases (reads.mem_columns owner name).mp member with node | ⟨rfl, node⟩
      · rcases resolved_trusted well node qualified with trusted | special
        · exact trusted
        · exact recognised.qualified owner name node qualified special
      · exact recognised.stars owner node qualified
    · obtain rfl : owner = "" := bare
      rw [reads.familiar_iff]
      rcases (reads.mem_columns "" name).mp member with node | ⟨rfl, -⟩
      · exact familiar_of_founded recognised node (resolved_founded well node)
      · refine .inl (.inr (.inr ?_))
        rw [show rt.lower "*" = "*" from rt.case.lower_of_ascii (by simp)]
        decide

end

/-- For a query whose references resolve the guard reports no reference if and only if there is no
schema to check against, or the parser's own dialect reads the text: as this query, and its names
are all recognised, or as another one whose names all pass. -/
theorem guard_adds_none_iff (rt : Runtime) (parseOne : String → Option Tree)
    (schemas : String → Option FkGraph.Info) (env : Env) (d : Dialect) (q : Query) (s t : AgentState)
    (visit : Guard.node (checking rt parseOne schemas env) s = some t)
    (well : q.WellScoped (catalog rt (getCachedSchemaForCheck schemas s.databaseUrl) d)) :
    let sql := s.sql.getD ""
    let schema := getCachedSchemaForCheck schemas s.databaseUrl
    ∃ safety,
      SafetyRules.checkSafety rt.case env.sqlglot sql (Guard.getSqlglotDialect s.databaseUrl) =
        some safety ∧
      (t.guardIssues = some safety.issues ↔ schema = [] ∨ ∃ tree, parseOne sql = some tree ∧
        (Reads (catalog rt schema d) tree q ∧ Recognised rt schema d q ∨
          ¬ Reads (catalog rt schema d) tree q ∧ Known rt schema tree)) := by
  intro sql schema
  obtain ⟨safety, checked, rfl⟩ := Option.map_eq_some_iff.mp visit
  refine ⟨safety, checked, ?_⟩
  have none : some (safety.issues ++
      Guard.hallucinations (checking rt parseOne schemas env) sql s.databaseUrl) = some safety.issues ↔
      Guard.hallucinations (checking rt parseOne schemas env) sql s.databaseUrl = [] := by
    rw [Option.some_inj, List.append_right_eq_self]
  refine none.trans (hallucinations_empty_iff.trans (or_congr_right (exists_congr fun tree => ?_)))
  apply and_congr_right
  intro _
  by_cases reads : Reads (catalog rt schema d) tree q
  · simpa [reads] using known_iff_recognised reads well
  · simp [reads, schema]

def shopGuard (parseOne : String → Option Tree) : Env :=
  checking .ascii parseOne (fun _ => some shopInfo) Env.plain

def asking (sql : String) : AgentState :=
  { question := "How much?", sql := some sql, databaseUrl := some "mysql://shop" }

theorem guard_adds_none_shop : ∃ t,
    Guard.node (shopGuard fun _ => some (Tree.of ((selecting "o" "total" "orders" "o").nodes shopCatalog)))
      (asking "SELECT o.total FROM orders AS o") = some t ∧
    ∃ safety, SafetyRules.checkSafety .ascii Env.plain.sqlglot "SELECT o.total FROM orders AS o" "mysql" =
      some safety ∧ t.guardIssues = some safety.issues := by
  let read : String → Option Tree := fun _ =>
    some (Tree.of ((selecting "o" "total" "orders" "o").nodes shopCatalog))
  obtain ⟨t, visit⟩ := Option.isSome_iff_exists.mp (show (Guard.node (shopGuard read)
    (asking "SELECT o.total FROM orders AS o")).isSome = true by decide +kernel)
  have well : (selecting "o" "total" "orders" "o").WellScoped shopCatalog := by decide +kernel
  obtain ⟨safety, checked, none⟩ := guard_adds_none_iff .ascii read (fun _ => some shopInfo) Env.plain
    plainDialect (selecting "o" "total" "orders" "o") _ t visit well
  have clean : (checkHallucinations .ascii read "" shopSchema).issues = [] := by decide +kernel
  obtain ⟨tree, same, known⟩ := issues_empty_iff.mp clean
  obtain rfl := Option.some.inj same
  have recognised := (known_iff_recognised (reads_self shopCatalog _) well).mp known
  exact ⟨t, visit, safety, checked, none.mpr (.inr ⟨_, rfl, .inl ⟨reads_self _ _, recognised⟩⟩)⟩

/-- `SELECT d.x FROM (SELECT id AS x FROM orders) AS d`. -/
def ofDerived : Query :=
  .select .nil (.value (.column "d" "x") "" .nil)
    (.derived (.select .nil (.value (.column "" "id") "x" .nil) (.table "orders" "" .nil) .nil) "d" []
      .nil) .nil

/-- `SELECT orders.* FROM orders`. -/
def starOfOrders : Query := .select .nil (.tableStar "orders" .nil) (.table "orders" "" .nil) .nil

/-- The query resolves, and the guard reports one reference of its text, of which the parser's own
dialect makes what `read` says. -/
def WronglyReported (sql : String) (q : Query) (read : Tree → Option Tree) (detail : String) : Prop :=
  q.WellScoped shopCatalog ∧
    (Guard.node (shopGuard fun _ => read (Tree.of (q.nodes shopCatalog))) (asking sql)).map
      AgentState.guardIssues = some (some [issue detail])

/-- Queries that resolve and are reported: a column of a derived table, the columns of a table all
at once, and a text in the quotes of its own dialect, which the parser's does not read. -/
theorem resolved_reported :
    WronglyReported "SELECT d.x FROM (SELECT id AS x FROM orders) AS d" ofDerived some
      "Column 'd.x' not found in schema." ∧
    WronglyReported "SELECT orders.* FROM orders" starOfOrders some
      "Column 'orders.*' not found in schema." ∧
    WronglyReported "SELECT \x60id\x60 FROM \x60orders\x60" (selecting "" "id" "orders" "") (fun _ => none)
      "SQL parse error, cannot check schema references." := by
  unfold WronglyReported
  decide +kernel

end Hallucinations
end Nl2SqlAgent

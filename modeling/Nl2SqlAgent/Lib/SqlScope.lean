import Mathlib.Data.List.Basic
import Mathlib.Tactic.Tauto

/-! Names in nested SQL queries: the sources and labels that a place of a query sees, and what a
reference there resolves to. Operators, literals and the kinds of joins bind no name and are kept
as the shape of an expression only. Of two columns of one name either will do. -/
namespace Lib.SqlScope

inductive Kind where
  | on | filter | groupBy | having | orderBy
  deriving DecidableEq

mutual

inductive Expr where
  | literal
  | column (table name : String)
  | op (left right : Expr)
  | query (q : Query)

/-- A select list; an empty label is none. -/
inductive Items where
  | nil
  | star (rest : Items)
  | tableStar (table : String) (rest : Items)
  | value (e : Expr) (label : String) (rest : Items)

/-- What FROM and its joins list; an empty alias is none. -/
inductive Sources where
  | nil
  | table (name aliasName : String) (rest : Sources)
  | derived (q : Query) (aliasName : String) (columns : List String) (rest : Sources)

/-- A recursive one is a union of two queries, of which only the second sees it. -/
inductive Ctes where
  | nil
  | cons (name : String) (columns : List String) (q : Query) (rest : Ctes)
  | recursive (name : String) (columns : List String) (anchor step : Query) (rest : Ctes)

inductive Clauses where
  | nil
  | cons (kind : Kind) (e : Expr) (rest : Clauses)

inductive Query where
  | select (ctes : Ctes) (items : Items) (sources : Sources) (clauses : Clauses)
  | compound (ctes : Ctes) (left right : Query) (clauses : Clauses)

end

/-- The tables of a database and the rules of its dialect: how names are compared, the columns a
table has beyond those listed, the names of unnamed outputs, and the clauses that see labels. -/
structure Catalog where
  tables : List (String × List String)
  fold : String → String
  hidden : List String
  implied : Expr → Option String
  sees : Kind → Bool

/-- What a name stands for: a CTE or a source, with the names of its columns. -/
structure Binding where
  name : String
  columns : List String
  deriving DecidableEq

structure Frame where
  sources : List Binding
  labels : List String
  deriving DecidableEq

/-- What a place sees, from the inside out. -/
structure Scope where
  ctes : List Binding
  frames : List Frame
  deriving DecidableEq

inductive Ref where
  | table (name : String)
  | column (table name : String)
  | star (table : String)
  deriving DecidableEq

/-- A reference with what is seen where it stands. -/
structure Place where
  scope : Scope
  ref : Ref
  deriving DecidableEq

/-- What carries a name in a query. -/
inductive Naming where
  | cte (name : String)
  | table (name aliasName : String)
  | column (table name : String)
  | star (table : String)
  | label (name : String)
  | derived (aliasName : String)
  | listed (column : String)
  | implied (label : String)
  deriving DecidableEq

def Naming.ref? : Naming → Option Ref
  | .table name _ => some (.table name)
  | .column owner name => some (.column owner name)
  | .star owner => some (.star owner)
  | _ => none

def Scope.empty : Scope := ⟨[], []⟩

def Scope.withCte (scope : Scope) (b : Binding) : Scope := { scope with ctes := b :: scope.ctes }

def Scope.push (scope : Scope) (frame : Frame) : Scope := { scope with frames := frame :: scope.frames }

/-- The sources of the innermost frame. -/
def Scope.here (scope : Scope) : List Binding := (scope.frames.head?.map Frame.sources).getD []

/-- A column list renames the first columns. -/
def renamed (columns outputs : List String) : List String := columns ++ outputs.drop columns.length

namespace Catalog

variable (cat : Catalog)

/-- The binding goes by this name; an empty name is none. -/
def Named (b : Binding) (name : String) : Prop := b.name ≠ "" ∧ cat.fold b.name = cat.fold name

instance : Decidable (cat.Named b name) := inferInstanceAs (Decidable (_ ∧ _))

def cte (scope : Scope) (name : String) : Option Binding := scope.ctes.find? (cat.Named · name)

def tablesNamed (name : String) : List (String × List String) :=
  cat.tables.filter (cat.fold ·.1 = cat.fold name)

/-- The columns a table in FROM has: a CTE comes before a table of the database. -/
def columnsOf (scope : Scope) (name : String) : List String :=
  match cat.cte scope name with
  | some b => b.columns
  | none =>
    match cat.tablesNamed name with
    | [] => []
    | first :: rest => (first :: rest).flatMap Prod.snd ++ cat.hidden

/-- The sources of this name in the innermost frame that has one. -/
def sourcesNamed (scope : Scope) (name : String) : List Binding :=
  ((scope.frames.map fun f => f.sources.filter (cat.Named · name)).find? (· ≠ [])).getD []

def HasColumn (columns : List String) (name : String) : Prop :=
  ∃ c ∈ columns, cat.fold c = cat.fold name

instance : Decidable (cat.HasColumn columns name) := inferInstanceAs (Decidable (∃ _ ∈ _, _))

/-- What a reference means under the rules of scoping is there; an empty qualifier is none. -/
def Resolves (p : Place) : Prop :=
  match p.ref with
  | .table name => (cat.cte p.scope name).isSome = true ∨ cat.tablesNamed name ≠ []
  | .column table name =>
    if table = "" then
      ∃ f ∈ p.scope.frames, (∃ b ∈ f.sources, cat.HasColumn b.columns name) ∨ cat.HasColumn f.labels name
    else ∃ b ∈ cat.sourcesNamed p.scope table, cat.HasColumn b.columns name
  | .star table => cat.sourcesNamed p.scope table ≠ []

instance : Decidable (cat.Resolves p) := by
  unfold Resolves
  exact match p.ref with
    | .table _ => inferInstance
    | .column _ _ => inferInstance
    | .star _ => inferInstance

/-- The name of an output. -/
def outputName (e : Expr) (label : String) : List String :=
  if label ≠ "" then [label]
  else match e with
    | .column _ name => [name]
    | e => (cat.implied e).toList

def labelNodes (e : Expr) (label : String) : List Naming :=
  if label ≠ "" then [.label label]
  else match e with
    | .column _ _ => []
    | e => (cat.implied e).toList.map .implied

end Catalog

section Meaning

variable (cat : Catalog)

def Items.outputs (scope : Scope) : Items → List String
  | .nil => []
  | .star rest => scope.here.flatMap Binding.columns ++ rest.outputs scope
  | .tableStar table rest => (cat.sourcesNamed scope table).flatMap Binding.columns ++ rest.outputs scope
  | .value e label rest => cat.outputName e label ++ rest.outputs scope

mutual

/-- The names of the columns of a result. -/
def Query.outputs (scope : Scope) : Query → List String
  | .select ctes items sources _ =>
    let inner := ctes.extend scope
    items.outputs cat (inner.push ⟨sources.bindings inner, []⟩)
  | .compound ctes left _ _ => left.outputs (ctes.extend scope)

/-- Every CTE is seen by the later ones. -/
def Ctes.extend (scope : Scope) : Ctes → Scope
  | .nil => scope
  | .cons name columns q rest =>
    rest.extend (scope.withCte ⟨name, renamed columns (q.outputs scope)⟩)
  | .recursive name columns anchor _ rest =>
    rest.extend (scope.withCte ⟨name, renamed columns (anchor.outputs scope)⟩)

def Sources.bindings (scope : Scope) : Sources → List Binding
  | .nil => []
  | .table name aliasName rest =>
    ⟨if aliasName = "" then name else aliasName, cat.columnsOf scope name⟩ :: rest.bindings scope
  | .derived q aliasName columns rest =>
    ⟨aliasName, renamed columns (q.outputs scope)⟩ :: rest.bindings scope

end

mutual

/-- The references of a query, each with what it sees. -/
def Query.places (scope : Scope) : Query → List Place
  | .select ctes items sources clauses =>
    let inner := ctes.extend cat scope
    let bindings := sources.bindings cat inner
    let here := inner.push ⟨bindings, []⟩
    ctes.places scope ++ (items.places here ++ (sources.places inner ++ clauses.places fun kind =>
      inner.push ⟨bindings, if cat.sees kind then items.outputs cat here else []⟩))
  | .compound ctes left right clauses =>
    let inner := ctes.extend cat scope
    ctes.places scope ++ (left.places inner ++ (right.places inner ++ clauses.places fun _ =>
      inner.push ⟨[], left.outputs cat inner⟩))

def Ctes.places (scope : Scope) : Ctes → List Place
  | .nil => []
  | .cons name columns q rest =>
    q.places scope ++ rest.places (scope.withCte ⟨name, renamed columns (q.outputs cat scope)⟩)
  | .recursive name columns anchor step rest =>
    let own := scope.withCte ⟨name, renamed columns (anchor.outputs cat scope)⟩
    anchor.places scope ++ (step.places own ++ rest.places own)

def Sources.places (scope : Scope) : Sources → List Place
  | .nil => []
  | .table name _ rest => ⟨scope, .table name⟩ :: rest.places scope
  | .derived q _ _ rest => q.places scope ++ rest.places scope

def Items.places (scope : Scope) : Items → List Place
  | .nil => []
  | .star rest => rest.places scope
  | .tableStar table rest => ⟨scope, .star table⟩ :: rest.places scope
  | .value e _ rest => e.places scope ++ rest.places scope

def Clauses.places (scope : Kind → Scope) : Clauses → List Place
  | .nil => []
  | .cons kind e rest => e.places (scope kind) ++ rest.places scope

def Expr.places (scope : Scope) : Expr → List Place
  | .literal => []
  | .column table name => [⟨scope, .column table name⟩]
  | .op left right => left.places scope ++ right.places scope
  | .query q => q.places scope

end

mutual

/-- What carries a name, in the order of the text. -/
def Query.nodes : Query → List Naming
  | .select ctes items sources clauses => ctes.nodes ++ (items.nodes ++ (sources.nodes ++ clauses.nodes))
  | .compound ctes left right clauses => ctes.nodes ++ (left.nodes ++ (right.nodes ++ clauses.nodes))

def Ctes.nodes : Ctes → List Naming
  | .nil => []
  | .cons name columns q rest => .cte name :: (columns.map .listed ++ (q.nodes ++ rest.nodes))
  | .recursive name columns anchor step rest =>
    .cte name :: (columns.map .listed ++ (anchor.nodes ++ (step.nodes ++ rest.nodes)))

def Sources.nodes : Sources → List Naming
  | .nil => []
  | .table name aliasName rest => .table name aliasName :: rest.nodes
  | .derived q aliasName columns rest =>
    .derived aliasName :: (columns.map .listed ++ (q.nodes ++ rest.nodes))

def Items.nodes : Items → List Naming
  | .nil => []
  | .star rest => rest.nodes
  | .tableStar table rest => .star table :: rest.nodes
  | .value e label rest => e.nodes ++ (cat.labelNodes e label ++ rest.nodes)

def Clauses.nodes : Clauses → List Naming
  | .nil => []
  | .cons _ e rest => e.nodes ++ rest.nodes

def Expr.nodes : Expr → List Naming
  | .literal => []
  | .column table name => [.column table name]
  | .op left right => left.nodes ++ right.nodes
  | .query q => q.nodes

end

/-- Every table and column that the query names is there. -/
def Query.WellScoped (q : Query) : Prop := ∀ p ∈ q.places cat .empty, cat.Resolves p

instance (q : Query) : Decidable (q.WellScoped cat) := inferInstanceAs (Decidable (∀ p ∈ _, _))

end Meaning

section References

variable (cat : Catalog)

theorem listed_silent (columns : List String) : (columns.map Naming.listed).filterMap Naming.ref? = [] := by
  simp [List.filterMap_map, Function.comp_def, Naming.ref?]

mutual

/-- The references of a query are those that its nodes make. -/
theorem Query.places_ref (scope : Scope) :
    (q : Query) → (q.places cat scope).map Place.ref = (q.nodes cat).filterMap Naming.ref?
  | .select ctes items sources clauses => by
    simp only [Query.places, Query.nodes, List.map_append, List.filterMap_append,
      Ctes.places_ref scope ctes, Items.places_ref _ items, Sources.places_ref _ sources,
      Clauses.places_ref _ clauses]
  | .compound ctes left right clauses => by
    simp only [Query.places, Query.nodes, List.map_append, List.filterMap_append,
      Ctes.places_ref scope ctes, Query.places_ref _ left, Query.places_ref _ right,
      Clauses.places_ref _ clauses]

theorem Ctes.places_ref (scope : Scope) :
    (ctes : Ctes) → (ctes.places cat scope).map Place.ref = (ctes.nodes cat).filterMap Naming.ref?
  | .nil => rfl
  | .cons name columns q rest => by
    simp only [Ctes.places, Ctes.nodes, List.map_append, List.filterMap_append, listed_silent,
      List.filterMap_cons, Naming.ref?, List.nil_append, Query.places_ref _ q, Ctes.places_ref _ rest]
  | .recursive name columns anchor step rest => by
    simp only [Ctes.places, Ctes.nodes, List.map_append, List.filterMap_append, listed_silent,
      List.filterMap_cons, Naming.ref?, List.nil_append, Query.places_ref _ anchor,
      Query.places_ref _ step, Ctes.places_ref _ rest]

theorem Sources.places_ref (scope : Scope) :
    (sources : Sources) →
      (sources.places cat scope).map Place.ref = (sources.nodes cat).filterMap Naming.ref?
  | .nil => rfl
  | .table name aliasName rest => by
    simp only [Sources.places, Sources.nodes, List.map_cons, List.filterMap_cons, Naming.ref?,
      Sources.places_ref _ rest]
  | .derived q aliasName columns rest => by
    simp only [Sources.places, Sources.nodes, List.map_append, List.filterMap_append, listed_silent,
      List.filterMap_cons, Naming.ref?, List.nil_append, Query.places_ref _ q, Sources.places_ref _ rest]

theorem Items.places_ref (scope : Scope) :
    (items : Items) → (items.places cat scope).map Place.ref = (items.nodes cat).filterMap Naming.ref?
  | .nil => rfl
  | .star rest => by
    simp only [Items.places, Items.nodes, Items.places_ref _ rest]
  | .tableStar owner rest => by
    simp only [Items.places, Items.nodes, List.map_cons, List.filterMap_cons, Naming.ref?,
      Items.places_ref _ rest]
  | .value e label rest => by
    have silent : (cat.labelNodes e label).filterMap Naming.ref? = [] := by
      unfold Catalog.labelNodes
      split
      · rfl
      · split
        · rfl
        · simp [List.filterMap_map, Function.comp_def, Naming.ref?]
    simp only [Items.places, Items.nodes, List.map_append, List.filterMap_append, silent,
      List.nil_append, Expr.places_ref _ e, Items.places_ref _ rest]

theorem Clauses.places_ref (scope : Kind → Scope) :
    (clauses : Clauses) →
      (clauses.places cat scope).map Place.ref = (clauses.nodes cat).filterMap Naming.ref?
  | .nil => rfl
  | .cons kind e rest => by
    simp only [Clauses.places, Clauses.nodes, List.map_append, List.filterMap_append,
      Expr.places_ref _ e, Clauses.places_ref _ rest]

theorem Expr.places_ref (scope : Scope) :
    (e : Expr) → (e.places cat scope).map Place.ref = (e.nodes cat).filterMap Naming.ref?
  | .literal => rfl
  | .column owner name => rfl
  | .op left right => by
    simp only [Expr.places, Expr.nodes, List.map_append, List.filterMap_append,
      Expr.places_ref _ left, Expr.places_ref _ right]
  | .query q => by
    simp only [Expr.places, Expr.nodes, Query.places_ref _ q]

end

/-- A reference stands in a query exactly if a node makes it. -/
theorem Query.mem_places (scope : Scope) (q : Query) (ref : Ref) :
    (∃ p ∈ q.places cat scope, p.ref = ref) ↔ ∃ node ∈ q.nodes cat, node.ref? = some ref := by
  rw [← List.mem_map, Query.places_ref, List.mem_filterMap]

variable {cat} {scope : Scope} {q : Query} {p : Place}

theorem Query.table_node {name : String} (place : p ∈ q.places cat scope) (ref : p.ref = .table name) :
    ∃ aliasName, .table name aliasName ∈ q.nodes cat := by
  obtain ⟨node, member, same⟩ := (q.mem_places cat scope _).mp ⟨p, place, ref⟩
  cases node with
  | table t a =>
    obtain rfl : t = name := by simpa [Naming.ref?] using same
    exact ⟨a, member⟩
  | _ => simp [Naming.ref?] at same

theorem Query.column_node {owner name : String} (place : p ∈ q.places cat scope)
    (ref : p.ref = .column owner name) : .column owner name ∈ q.nodes cat := by
  obtain ⟨node, member, same⟩ := (q.mem_places cat scope _).mp ⟨p, place, ref⟩
  cases node with
  | column t c =>
    obtain ⟨rfl, rfl⟩ : t = owner ∧ c = name := by simpa [Naming.ref?] using same
    exact member
  | _ => simp [Naming.ref?] at same

theorem Query.star_node {owner : String} (place : p ∈ q.places cat scope) (ref : p.ref = .star owner) :
    .star owner ∈ q.nodes cat := by
  obtain ⟨node, member, same⟩ := (q.mem_places cat scope _).mp ⟨p, place, ref⟩
  cases node with
  | star t =>
    obtain rfl : t = owner := by simpa [Naming.ref?] using same
    exact member
  | _ => simp [Naming.ref?] at same

end References

/-- What a source may be, given the names a query carries: a table under its own name, with the
columns of the database; a CTE under its own name; a table under an alias; a derived table. -/
inductive Origin (cat : Catalog) (carried : Naming → Prop) (b : Binding) : Prop where
  | table (node : carried (.table b.name "")) (present : cat.tablesNamed b.name ≠ [])
      (columns : b.columns = (cat.tablesNamed b.name).flatMap Prod.snd ++ cat.hidden)
  | missing (absent : cat.tablesNamed b.name = []) (columns : b.columns = [])
  | cte (c : Binding) (node : carried (.cte c.name)) (named : cat.Named c b.name)
  | aliased (name : String) (node : carried (.table name b.name)) (named : b.name ≠ "")
  | derived (node : carried (.derived b.name))

/-- What holds of everything a place sees: where it comes from, and what is good of its columns. -/
structure Kept (cat : Catalog) (carried : Naming → Prop) (good : String → Prop) (scope : Scope) : Prop where
  ctes : ∀ b ∈ scope.ctes, carried (.cte b.name) ∧ ∀ c ∈ b.columns, good c
  sources : ∀ f ∈ scope.frames, ∀ b ∈ f.sources, Origin cat carried b ∧ ∀ c ∈ b.columns, good c
  labels : ∀ f ∈ scope.frames, ∀ l ∈ f.labels, good l

/-- The columns of the tables and those that a query names anew are good. -/
structure Grounds (cat : Catalog) (carried : Naming → Prop) (good : String → Prop) : Prop where
  table : ∀ t ∈ cat.tables, ∀ c ∈ t.2, good c
  hidden : ∀ c ∈ cat.hidden, good c
  label : ∀ c, carried (.label c) → good c
  listed : ∀ c, carried (.listed c) → good c
  implied : ∀ c, carried (.implied c) → good c

section Keeping

variable {cat : Catalog} {carried : Naming → Prop} {good : String → Prop} {scope : Scope}

theorem Kept.empty : Kept cat carried good .empty := ⟨nofun, nofun, nofun⟩

theorem Kept.withCte (kept : Kept cat carried good scope) {b : Binding} (node : carried (.cte b.name))
    (columns : ∀ c ∈ b.columns, good c) : Kept cat carried good (scope.withCte b) := by
  refine ⟨fun b' member => ?_, kept.sources, kept.labels⟩
  rcases List.mem_cons.mp member with rfl | inner
  · exact ⟨node, columns⟩
  · exact kept.ctes b' inner

theorem Kept.push (kept : Kept cat carried good scope) (frame : Frame)
    (sources : ∀ b ∈ frame.sources, Origin cat carried b ∧ ∀ c ∈ b.columns, good c)
    (labels : ∀ l ∈ frame.labels, good l) : Kept cat carried good (scope.push frame) := by
  refine ⟨kept.ctes, fun f member => ?_, fun f member => ?_⟩
  · rcases List.mem_cons.mp member with rfl | inner
    · exact sources
    · exact kept.sources f inner
  · rcases List.mem_cons.mp member with rfl | inner
    · exact labels
    · exact kept.labels f inner

theorem renamed_good {columns outputs : List String} (grounds : Grounds cat carried good)
    (nodes : ∀ node ∈ columns.map Naming.listed, carried node) (known : ∀ c ∈ outputs, good c) :
    ∀ c ∈ renamed columns outputs, good c := by
  intro c member
  rcases List.mem_append.mp member with listed | output
  · exact grounds.listed c (nodes _ (List.mem_map_of_mem listed))
  · exact known c (List.mem_of_mem_drop output)

theorem columnsOf_good (grounds : Grounds cat carried good) (kept : Kept cat carried good scope)
    (name : String) : ∀ c ∈ cat.columnsOf scope name, good c := by
  intro c member
  unfold Catalog.columnsOf at member
  split at member
  next b found => exact (kept.ctes b (List.mem_of_find?_eq_some found)).2 c member
  next =>
    split at member
    · cases member
    next first rest found =>
      rcases List.mem_append.mp member with column | hidden
      · obtain ⟨t, inside, own⟩ := List.mem_flatMap.mp column
        rw [← found] at inside
        exact grounds.table t (List.mem_filter.mp inside).1 c own
      · exact grounds.hidden c hidden

theorem table_origin (kept : Kept cat carried good scope) {name aliasName : String}
    (node : carried (.table name aliasName)) :
    Origin cat carried ⟨if aliasName = "" then name else aliasName, cat.columnsOf scope name⟩ := by
  by_cases plain : aliasName = ""
  · subst plain
    rw [if_pos rfl]
    unfold Catalog.columnsOf
    split
    next b found =>
      have named : cat.Named b name := by simpa using List.find?_some found
      exact .cte b (kept.ctes b (List.mem_of_find?_eq_some found)).1 named
    next =>
      split
      next absent => exact .missing absent rfl
      next first rest found =>
        refine .table node ?_ ?_
        · rw [found]
          exact List.cons_ne_nil _ _
        · rw [found]
  · rw [if_neg plain]
    exact .aliased name node plain

theorem sourcesNamed_mem {b : Binding} {name : String} (member : b ∈ cat.sourcesNamed scope name) :
    cat.Named b name ∧ ∃ f ∈ scope.frames, b ∈ f.sources := by
  unfold Catalog.sourcesNamed at member
  cases found : (scope.frames.map fun f => f.sources.filter (cat.Named · name)).find? (· ≠ []) with
  | none =>
    rw [found] at member
    cases member
  | some sources =>
    rw [found] at member
    obtain ⟨f, frame, rfl⟩ := List.mem_map.mp (List.mem_of_find?_eq_some found)
    obtain ⟨inside, named⟩ := List.mem_filter.mp member
    exact ⟨of_decide_eq_true named, f, frame, inside⟩

/-- What a reference to a column means is good, if names that compare equal are. -/
theorem Kept.resolved (kept : Kept cat carried good scope)
    (same : ∀ c c', cat.fold c = cat.fold c' → good c → good c') {owner name : String}
    (resolves : cat.Resolves ⟨scope, .column owner name⟩) : good name := by
  have among {columns : List String} (all : ∀ c ∈ columns, good c) (has : cat.HasColumn columns name) :
      good name := by
    obtain ⟨c, member, equal⟩ := has
    exact same c name equal (all c member)
  simp only [Catalog.Resolves] at resolves
  split at resolves
  · obtain ⟨f, frame, ⟨b, source, has⟩ | has⟩ := resolves
    · exact among (kept.sources f frame b source).2 has
    · exact among (kept.labels f frame) has
  · obtain ⟨b, member, has⟩ := resolves
    obtain ⟨-, f, frame, source⟩ := sourcesNamed_mem member
    exact among (kept.sources f frame b source).2 has

theorem Kept.here_good (kept : Kept cat carried good scope) (source : b ∈ scope.here)
    (own : c ∈ b.columns) : good c := by
  cases frames : scope.frames with
  | nil =>
    rw [Scope.here, frames] at source
    cases source
  | cons f outer =>
    rw [Scope.here, frames] at source
    exact (kept.sources f (frames ▸ List.mem_cons_self) b source).2 c own

/-- The name of one output is its label, or that of the column it is, or one the database makes. -/
theorem output_good (grounds : Grounds cat carried good) (kept : Kept cat carried good scope)
    (labelled : ∀ node ∈ cat.labelNodes e label, carried node)
    (refs : ∀ p ∈ e.places cat scope, ∀ owner name, p.ref = .column owner name →
      Kept cat carried good p.scope → good name) : ∀ c ∈ cat.outputName e label, good c := by
  intro c own
  unfold Catalog.outputName at own
  unfold Catalog.labelNodes at labelled
  split at own
  next given =>
    rw [if_pos given] at labelled
    obtain rfl := List.mem_singleton.mp own
    exact grounds.label c (labelled _ List.mem_cons_self)
  next unnamed =>
    rw [if_neg unnamed] at labelled
    cases e with
    | column owner name =>
      obtain rfl := List.mem_singleton.mp own
      exact refs _ List.mem_cons_self owner c rfl kept
    | literal => exact grounds.implied c (labelled _ (List.mem_map_of_mem own))
    | op left right => exact grounds.implied c (labelled _ (List.mem_map_of_mem own))
    | query q => exact grounds.implied c (labelled _ (List.mem_map_of_mem own))

theorem Items.outputs_good (grounds : Grounds cat carried good) (kept : Kept cat carried good scope) :
    (items : Items) → (∀ node ∈ items.nodes cat, carried node) →
    (∀ p ∈ items.places cat scope, ∀ owner name, p.ref = .column owner name →
      Kept cat carried good p.scope → good name) →
    ∀ c ∈ items.outputs cat scope, good c
  | .nil, _, _ => nofun
  | .star rest, nodes, refs => by
    intro c member
    rcases List.mem_append.mp member with column | later
    · obtain ⟨b, source, own⟩ := List.mem_flatMap.mp column
      exact kept.here_good source own
    · exact Items.outputs_good grounds kept rest nodes refs c later
  | .tableStar owner rest, nodes, refs => by
    intro c member
    rcases List.mem_append.mp member with column | later
    · obtain ⟨b, source, own⟩ := List.mem_flatMap.mp column
      obtain ⟨-, f, frame, inside⟩ := sourcesNamed_mem source
      exact (kept.sources f frame b inside).2 c own
    · exact Items.outputs_good grounds kept rest (fun node inside => nodes node (.tail _ inside))
        (fun p inside => refs p (.tail _ inside)) c later
  | .value e label rest, nodes, refs => by
    intro c member
    rcases List.mem_append.mp member with own | later
    · have labelled : ∀ node ∈ cat.labelNodes e label, carried node := fun node inside =>
        nodes node (List.mem_append_right _ (List.mem_append_left _ inside))
      exact output_good grounds kept labelled (fun p inside => refs p (List.mem_append_left _ inside)) c own
    · exact Items.outputs_good grounds kept rest
        (fun node inside => nodes node (List.mem_append_right _ (List.mem_append_right _ inside)))
        (fun p inside => refs p (List.mem_append_right _ inside)) c later

mutual

/-- What a query sees anywhere is kept, and its outputs are good, if every column it refers to from
a place where this holds has a good name. -/
theorem Query.kept (grounds : Grounds cat carried good) (scope : Scope) :
    (q : Query) → Kept cat carried good scope → (∀ node ∈ q.nodes cat, carried node) →
    (∀ p ∈ q.places cat scope, ∀ owner name, p.ref = .column owner name →
      Kept cat carried good p.scope → good name) →
    (∀ c ∈ q.outputs cat scope, good c) ∧ ∀ p ∈ q.places cat scope, Kept cat carried good p.scope
  | .select ctes items sources clauses, kept, nodes, refs => by
    simp only [Query.nodes, Query.places, List.forall_mem_append] at nodes refs
    obtain ⟨cteNodes, itemNodes, sourceNodes, clauseNodes⟩ := nodes
    obtain ⟨cteRefs, itemRefs, sourceRefs, clauseRefs⟩ := refs
    obtain ⟨inner, ctePlaces⟩ := Ctes.kept grounds scope ctes kept cteNodes cteRefs
    obtain ⟨bound, sourcePlaces⟩ := Sources.kept grounds _ sources inner sourceNodes sourceRefs
    have here := inner.push ⟨sources.bindings cat (ctes.extend cat scope), []⟩ bound nofun
    have outputs := Items.outputs_good grounds here items itemNodes itemRefs
    have seen (kind : Kind) := inner.push
      ⟨sources.bindings cat (ctes.extend cat scope), if cat.sees kind then
        items.outputs cat ((ctes.extend cat scope).push ⟨sources.bindings cat (ctes.extend cat scope), []⟩)
        else []⟩ bound (by
          intro l member
          split at member
          · exact outputs l member
          · cases member)
    refine ⟨outputs, ?_⟩
    simp only [Query.places, List.forall_mem_append]
    exact ⟨ctePlaces, Items.kept grounds _ items here itemNodes itemRefs, sourcePlaces,
      Clauses.kept grounds _ clauses seen clauseNodes clauseRefs⟩
  | .compound ctes left right clauses, kept, nodes, refs => by
    simp only [Query.nodes, Query.places, List.forall_mem_append] at nodes refs
    obtain ⟨cteNodes, leftNodes, rightNodes, clauseNodes⟩ := nodes
    obtain ⟨cteRefs, leftRefs, rightRefs, clauseRefs⟩ := refs
    obtain ⟨inner, ctePlaces⟩ := Ctes.kept grounds scope ctes kept cteNodes cteRefs
    obtain ⟨outputs, leftPlaces⟩ := Query.kept grounds _ left inner leftNodes leftRefs
    obtain ⟨-, rightPlaces⟩ := Query.kept grounds _ right inner rightNodes rightRefs
    refine ⟨outputs, ?_⟩
    simp only [Query.places, List.forall_mem_append]
    exact ⟨ctePlaces, leftPlaces, rightPlaces, Clauses.kept grounds _ clauses
      (fun _ => inner.push _ nofun outputs) clauseNodes clauseRefs⟩

theorem Ctes.kept (grounds : Grounds cat carried good) (scope : Scope) :
    (ctes : Ctes) → Kept cat carried good scope → (∀ node ∈ ctes.nodes cat, carried node) →
    (∀ p ∈ ctes.places cat scope, ∀ owner name, p.ref = .column owner name →
      Kept cat carried good p.scope → good name) →
    Kept cat carried good (ctes.extend cat scope) ∧
      ∀ p ∈ ctes.places cat scope, Kept cat carried good p.scope
  | .nil, kept, _, _ => ⟨kept, nofun⟩
  | .cons name columns q rest, kept, nodes, refs => by
    simp only [Ctes.nodes, Ctes.places, List.forall_mem_cons, List.forall_mem_append] at nodes refs ⊢
    obtain ⟨node, listed, bodyNodes, restNodes⟩ := nodes
    obtain ⟨outputs, bodyPlaces⟩ := Query.kept grounds scope q kept bodyNodes refs.1
    have own := kept.withCte (b := ⟨name, _⟩) node (renamed_good grounds listed outputs)
    obtain ⟨extended, restPlaces⟩ := Ctes.kept grounds _ rest own restNodes refs.2
    exact ⟨extended, bodyPlaces, restPlaces⟩
  | .recursive name columns anchor step rest, kept, nodes, refs => by
    simp only [Ctes.nodes, Ctes.places, List.forall_mem_cons, List.forall_mem_append] at nodes refs ⊢
    obtain ⟨node, listed, anchorNodes, stepNodes, restNodes⟩ := nodes
    obtain ⟨outputs, anchorPlaces⟩ := Query.kept grounds scope anchor kept anchorNodes refs.1
    have own := kept.withCte (b := ⟨name, _⟩) node (renamed_good grounds listed outputs)
    have stepPlaces := (Query.kept grounds _ step own stepNodes refs.2.1).2
    obtain ⟨extended, restPlaces⟩ := Ctes.kept grounds _ rest own restNodes refs.2.2
    exact ⟨extended, anchorPlaces, stepPlaces, restPlaces⟩

theorem Sources.kept (grounds : Grounds cat carried good) (scope : Scope) :
    (sources : Sources) → Kept cat carried good scope → (∀ node ∈ sources.nodes cat, carried node) →
    (∀ p ∈ sources.places cat scope, ∀ owner name, p.ref = .column owner name →
      Kept cat carried good p.scope → good name) →
    (∀ b ∈ sources.bindings cat scope, Origin cat carried b ∧ ∀ c ∈ b.columns, good c) ∧
      ∀ p ∈ sources.places cat scope, Kept cat carried good p.scope
  | .nil, _, _, _ => ⟨nofun, nofun⟩
  | .table name aliasName rest, kept, nodes, refs => by
    simp only [Sources.nodes, Sources.places, List.forall_mem_cons] at nodes refs
    obtain ⟨others, restPlaces⟩ := Sources.kept grounds scope rest kept nodes.2 refs.2
    simp only [Sources.bindings, Sources.places, List.forall_mem_cons]
    exact ⟨⟨⟨table_origin kept nodes.1, columnsOf_good grounds kept name⟩, others⟩, kept, restPlaces⟩
  | .derived q aliasName columns rest, kept, nodes, refs => by
    simp only [Sources.nodes, Sources.places, List.forall_mem_cons, List.forall_mem_append] at nodes refs
    obtain ⟨node, listed, bodyNodes, restNodes⟩ := nodes
    obtain ⟨outputs, bodyPlaces⟩ := Query.kept grounds scope q kept bodyNodes refs.1
    obtain ⟨others, restPlaces⟩ := Sources.kept grounds scope rest kept restNodes refs.2
    simp only [Sources.bindings, Sources.places, List.forall_mem_cons, List.forall_mem_append]
    exact ⟨⟨⟨.derived node, renamed_good grounds listed outputs⟩, others⟩, bodyPlaces, restPlaces⟩

theorem Items.kept (grounds : Grounds cat carried good) (scope : Scope) :
    (items : Items) → Kept cat carried good scope → (∀ node ∈ items.nodes cat, carried node) →
    (∀ p ∈ items.places cat scope, ∀ owner name, p.ref = .column owner name →
      Kept cat carried good p.scope → good name) →
    ∀ p ∈ items.places cat scope, Kept cat carried good p.scope
  | .nil, _, _, _ => nofun
  | .star rest, kept, nodes, refs => Items.kept grounds scope rest kept nodes refs
  | .tableStar owner rest, kept, nodes, refs => by
    simp only [Items.nodes, Items.places, List.forall_mem_cons] at nodes refs ⊢
    exact ⟨kept, Items.kept grounds scope rest kept nodes.2 refs.2⟩
  | .value e label rest, kept, nodes, refs => by
    simp only [Items.nodes, Items.places, List.forall_mem_append] at nodes refs ⊢
    exact ⟨Expr.kept grounds scope e kept nodes.1 refs.1,
      Items.kept grounds scope rest kept nodes.2.2 refs.2⟩

theorem Clauses.kept (grounds : Grounds cat carried good) (scope : Kind → Scope) :
    (clauses : Clauses) → (∀ kind, Kept cat carried good (scope kind)) →
    (∀ node ∈ clauses.nodes cat, carried node) →
    (∀ p ∈ clauses.places cat scope, ∀ owner name, p.ref = .column owner name →
      Kept cat carried good p.scope → good name) →
    ∀ p ∈ clauses.places cat scope, Kept cat carried good p.scope
  | .nil, _, _, _ => nofun
  | .cons kind e rest, kept, nodes, refs => by
    simp only [Clauses.nodes, Clauses.places, List.forall_mem_append] at nodes refs ⊢
    exact ⟨Expr.kept grounds _ e (kept kind) nodes.1 refs.1,
      Clauses.kept grounds scope rest kept nodes.2 refs.2⟩

theorem Expr.kept (grounds : Grounds cat carried good) (scope : Scope) :
    (e : Expr) → Kept cat carried good scope → (∀ node ∈ e.nodes cat, carried node) →
    (∀ p ∈ e.places cat scope, ∀ owner name, p.ref = .column owner name →
      Kept cat carried good p.scope → good name) →
    ∀ p ∈ e.places cat scope, Kept cat carried good p.scope
  | .literal, _, _, _ => nofun
  | .column owner name, kept, _, _ => by
    simpa only [Expr.places, List.forall_mem_singleton] using kept
  | .op left right, kept, nodes, refs => by
    simp only [Expr.nodes, Expr.places, List.forall_mem_append] at nodes refs ⊢
    exact ⟨Expr.kept grounds scope left kept nodes.1 refs.1,
      Expr.kept grounds scope right kept nodes.2 refs.2⟩
  | .query q, kept, nodes, refs => (Query.kept grounds scope q kept nodes refs).2

end

end Keeping

end Lib.SqlScope

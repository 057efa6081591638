import Nl2SqlAgent.FkGraph
import Nl2SqlAgent.GuardVerdicts
import Nl2SqlAgent.Lib.SqlScope

/-! `check_hallucinations` of `guard/safety_rules.py`: the names of a parsed statement against the
sets of names of the schema and of the statement itself. What the check says of a query is compared
with what the names mean under the rules of scoping. -/
namespace Nl2SqlAgent

open Lib

namespace Hallucinations

open SqlScope

/-- What `find_all` yields of a tree, in the order of its walk: the aliases of the CTEs, names and
aliases of the tables, qualifiers and names of the columns, and the aliases in select lists. -/
structure Tree where
  ctes : List String
  tables : List (String × String)
  columns : List (String × String)
  aliases : List String
  deriving DecidableEq

/-- `str.isdigit` goes by the interpreter's Unicode tables. -/
structure Runtime extends FkGraph.Runtime where
  digit : Char → Bool
  digit_ascii : ∀ c, c.val < 128 → digit c = c.isDigit

abbrev Runtime.lower (rt : Runtime) (s : String) : String := rt.case.lower s

/-- The items of `schema_info`: tables with the names of their columns. -/
abbrev SchemaInfo := PyDict String (List String)

def SchemaInfo.ofInfo (info : FkGraph.Info) : SchemaInfo := info.mapValues fun t => t.columns.map (·.name)

def sqlKw : List String := [
  "select","from","where","and","or","not","in","on","as","by",
  "group","order","having","limit","join","left","right","inner",
  "outer","cross","full","union","all","distinct","case","when",
  "then","else","end","between","like","is","null","true","false",
  "count","sum","avg","min","max","date","strftime","cast","coalesce",
  "exists","asc","desc","set","into","values","create","drop",
  "alter","table","index","view","database","with","over","partition",
  "window","row","number","rank","dense","first","last",
  "round","abs","random","length","substr","substring","replace",
  "trim","ltrim","rtrim","upper","lower","typeof","ifnull",
  "printf","hex","unicode","char","instr","total","group_concat",
  "zeroblob","changes","last_insert_rowid","sqlite_version",
  "primary","key","foreign","references","default","check","unique",
  "constraint","cascade","integer","text","real","blob","numeric",
  "varchar","datetime","timestamp"]

section

variable (rt : Runtime) (schema : SchemaInfo) (tree : Tree)

def schemaTables : Finset String := (schema.map fun t => rt.lower t.1).toFinset

def schemaCols : Finset String := (schema.flatMap fun t => t.2.map rt.lower).toFinset

/-- `f"{table}.{column}"`, in lower case. -/
def qualifiedName (owner name : String) : String := rt.lower owner ++ "." ++ rt.lower name

def qualifiedCols : Finset String := (schema.flatMap fun t => t.2.map (qualifiedName rt t.1)).toFinset

/-- `{a.lower() for a in … if a}`. -/
def lowered (names : List String) : Finset String := ((names.filter (· ≠ "")).map rt.lower).toFinset

def cteNames : Finset String := lowered rt tree.ctes

def tableAliases : Finset String := lowered rt (tree.tables.map Prod.snd)

/-- The tables that are read, without the names of CTEs. -/
def tableRefs : Finset String :=
  ((tree.tables.map fun t => rt.lower t.1).filter fun name => name ≠ "" ∧ name ∉ cteNames rt tree).toFinset

/-- `str.isdigit`. -/
def isdigit (s : String) : Bool := s ≠ "" && s.toList.all rt.digit

def isSelectAlias (name : String) : Bool := tree.aliases.any fun a => a ≠ "" && rt.lower a = name

/-- What a bare name, in lower case, passes by. -/
def BareKnown (name : String) : Prop :=
  (name ∈ sqlKw ∨ isdigit rt name = true ∨ name.length ≤ 1) ∨
  (name ∈ schemaCols rt schema ∨ name ∈ cteNames rt tree ∨ name ∈ tableAliases rt tree) ∨
  name = "*" ∨ isSelectAlias rt tree name = true

instance : Decidable (BareKnown rt schema tree name) := inferInstanceAs (Decidable (_ ∨ _))

def QualifiedKnown (owner name : String) : Prop :=
  (rt.lower owner ∈ cteNames rt tree ∨ rt.lower owner ∈ tableAliases rt tree) ∨
  qualifiedName rt owner name ∈ qualifiedCols rt schema

instance : Decidable (QualifiedKnown rt schema tree owner name) := inferInstanceAs (Decidable (_ ∨ _))

def issue (detail : String) : Issue := ⟨"hallucination", detail⟩

def tableIssues : List Issue :=
  ((rt.listed (tableRefs rt tree)).filter (· ∉ schemaTables rt schema)).map fun t =>
    issue ("Table '" ++ t ++ "' not found in schema.")

def columnIssues : List Issue :=
  (tree.columns.filter fun c => c.1 ≠ "" ∧ ¬ QualifiedKnown rt schema tree c.1 c.2).map fun c =>
    issue ("Column '" ++ qualifiedName rt c.1 c.2 ++ "' not found in schema.")

/-- The loop over the bare names, which the first unknown one ends. -/
def bareIssues : List (String × String) → List Issue
  | [] => []
  | c :: rest =>
    if c.1 ≠ "" ∨ BareKnown rt schema tree (rt.lower c.2) then bareIssues rest
    else [issue ("Identifier '" ++ rt.lower c.2 ++ "' not in schema.")]

end

structure Result where
  valid : Bool
  issues : List Issue
  deriving DecidableEq

/-- `check_hallucinations`; `parse_one` raises or returns a tree. It is called without a dialect. -/
def checkHallucinations (rt : Runtime) (parseOne : String → Option Tree) (sql : String)
    (schema : SchemaInfo) : Result :=
  match parseOne sql with
  | none => ⟨false, [issue "SQL parse error, cannot check schema references."]⟩
  | some tree =>
    let issues := tableIssues rt schema tree ++ columnIssues rt schema tree ++
      bareIssues rt schema tree tree.columns
    ⟨issues.isEmpty, issues⟩

/-- `_get_cached_schema_for_check`: nothing without a URL and where the schema cannot be read. -/
def getCachedSchemaForCheck (schemas : String → Option FkGraph.Info) (databaseUrl : Option String) :
    SchemaInfo :=
  if Py.truthy databaseUrl then ((schemas (databaseUrl.getD "")).map SchemaInfo.ofInfo).getD [] else []

/-- The guard with this check, which is made only against a schema that is not empty. -/
def checking (rt : Runtime) (parseOne : String → Option Tree) (schemas : String → Option FkGraph.Info)
    (env : Env) : Env :=
  { env with
    case := rt.case
    checkHallucinations := fun sql url =>
      let schema := getCachedSchemaForCheck schemas (some url)
      if schema = [] then [] else (checkHallucinations rt parseOne sql schema).issues }

/-- Every name passes. -/
structure Known (rt : Runtime) (schema : SchemaInfo) (tree : Tree) : Prop where
  tables : ∀ t ∈ tableRefs rt tree, t ∈ schemaTables rt schema
  qualified : ∀ c ∈ tree.columns, c.1 ≠ "" → QualifiedKnown rt schema tree c.1 c.2
  bare : ∀ c ∈ tree.columns, c.1 = "" → BareKnown rt schema tree (rt.lower c.2)

section

variable {rt : Runtime} {schema : SchemaInfo} {tree : Tree} {parseOne : String → Option Tree} {sql : String}

theorem tableIssues_empty :
    tableIssues rt schema tree = [] ↔ ∀ t ∈ tableRefs rt tree, t ∈ schemaTables rt schema := by
  simp only [tableIssues, List.map_eq_nil_iff, List.filter_eq_nil_iff, decide_eq_true_eq, not_not,
    rt.mem_listed]

theorem columnIssues_empty : columnIssues rt schema tree = [] ↔
    ∀ c ∈ tree.columns, c.1 ≠ "" → QualifiedKnown rt schema tree c.1 c.2 := by
  simp only [columnIssues, List.map_eq_nil_iff, List.filter_eq_nil_iff, decide_eq_true_eq, not_and,
    not_not]

theorem bareIssues_empty (columns : List (String × String)) : bareIssues rt schema tree columns = [] ↔
    ∀ c ∈ columns, c.1 = "" → BareKnown rt schema tree (rt.lower c.2) := by
  induction columns with
  | nil => simp [bareIssues]
  | cons c rest ih =>
    rw [bareIssues, List.forall_mem_cons]
    split
    next passes =>
      rw [ih, iff_and_self]
      exact fun _ bare => passes.resolve_left fun qualified => qualified bare
    next fails =>
      obtain ⟨bare, unknown⟩ := not_or.mp fails
      exact iff_of_false (List.cons_ne_nil _ _) fun all => unknown (all.1 (not_not.mp bare))

theorem issues_empty_iff : (checkHallucinations rt parseOne sql schema).issues = [] ↔
    ∃ tree, parseOne sql = some tree ∧ Known rt schema tree := by
  unfold checkHallucinations
  cases parsed : parseOne sql with
  | none => simp
  | some tree =>
    simp only [Option.some.injEq, exists_eq_left', List.append_eq_nil_iff, tableIssues_empty,
      columnIssues_empty, bareIssues_empty]
    exact ⟨fun ⟨⟨tables, qualified⟩, bare⟩ => ⟨tables, qualified, bare⟩,
      fun known => ⟨⟨known.tables, known.qualified⟩, known.bare⟩⟩

theorem hallucinations_eq {schemas : String → Option FkGraph.Info} {env : Env} {url : Option String} :
    Guard.hallucinations (checking rt parseOne schemas env) sql url =
      if getCachedSchemaForCheck schemas url = [] then []
      else (checkHallucinations rt parseOne sql (getCachedSchemaForCheck schemas url)).issues := by
  unfold Guard.hallucinations
  by_cases given : Py.truthy url = true
  · have present : some (url.getD "") = url := by
      cases url with
      | none => cases given
      | some url => rfl
    rw [if_pos given]
    simp only [checking, present]
  · rw [if_neg given, getCachedSchemaForCheck, if_neg given, if_pos rfl]

theorem hallucinations_empty_iff {schemas : String → Option FkGraph.Info} {env : Env} {url : Option String} :
    Guard.hallucinations (checking rt parseOne schemas env) sql url = [] ↔
      getCachedSchemaForCheck schemas url = [] ∨
      ∃ tree, parseOne sql = some tree ∧ Known rt (getCachedSchemaForCheck schemas url) tree := by
  rw [hallucinations_eq, ← issues_empty_iff]
  split
  next none => simp [none]
  next some => simp [some]

theorem valid_iff : (checkHallucinations rt parseOne sql schema).valid = true ↔
    (checkHallucinations rt parseOne sql schema).issues = [] := by
  unfold checkHallucinations
  cases parseOne sql <;> simp

end

/-- What the fields that the guard sets say, by their names, of the issues reported. -/
structure FieldsMean (safety hallucinated : List Issue) (t : AgentState) : Prop where
  pass : t.guardPass = some true ↔ safety = [] ∧ hallucinated = []
  issues : t.guardIssues = some (safety ++ hallucinated)
  ast : t.astPass = some true ↔
    ∀ i ∈ safety ++ hallucinated, Py.startsWith "ast_" i.type = false
  astIssues : t.astIssues =
    some ((safety ++ hallucinated).filter fun i => Py.startsWith "ast_" i.type)

/-- With no issue the four fields agree with their names; with any, either the issues of the
statement or the sign that there are none is wrong. -/
theorem fields_clean {safety hallucinated : List Issue} {s t : AgentState}
    (set : t = { s with
      guardPass := some (safety ++ hallucinated).isEmpty
      guardIssues := some (safety ++ hallucinated)
      astPass := some (safety.all fun i => Py.startsWith "ast_" i.type)
      astIssues := some (safety ++ hallucinated) }) :
    FieldsMean safety hallucinated t ↔ safety = [] ∧ hallucinated = [] := by
  subst set
  constructor
  · intro mean
    have listed : ∀ i ∈ safety ++ hallucinated, Py.startsWith "ast_" i.type = true := by
      rw [← List.filter_eq_self]
      exact (Option.some.inj mean.astIssues).symm
    have all : (safety.all fun i => Py.startsWith "ast_" i.type) = true :=
      List.all_eq_true.mpr fun i member => listed i (List.mem_append_left _ member)
    have none := mean.ast.mp (congrArg some all)
    refine List.append_eq_nil_iff.mp (List.eq_nil_iff_forall_not_mem.mpr fun i member => ?_)
    exact Bool.false_ne_true ((none i member).symm.trans (listed i member))
  · rintro ⟨rfl, rfl⟩
    exact ⟨by simp, rfl, by simp, rfl⟩

/-- `guard_pass` and `guard_issues` are what they say on every visit; `ast_pass` and `ast_issues`
as well exactly if neither check reports an issue. -/
theorem guard_fields_iff (rt : Runtime) (parseOne : String → Option Tree)
    (schemas : String → Option FkGraph.Info) (env : Env) (s t : AgentState)
    (visit : Guard.node (checking rt parseOne schemas env) s = some t) :
    let sql := s.sql.getD ""
    let schema := getCachedSchemaForCheck schemas s.databaseUrl
    let dialect := Guard.getSqlglotDialect s.databaseUrl
    ∃ safety, SafetyRules.checkSafety rt.case env.sqlglot sql dialect = some safety ∧
      let hallucinated := if schema = [] then [] else (checkHallucinations rt parseOne sql schema).issues
      (t.guardPass = some true ↔ safety.issues = [] ∧ hallucinated = []) ∧
      t.guardIssues = some (safety.issues ++ hallucinated) ∧
      (FieldsMean safety.issues hallucinated t ↔
        SafetyRules.Accepted rt.case env.sqlglot sql dialect ∧
        (schema = [] ∨ ∃ tree, parseOne sql = some tree ∧ Known rt schema tree)) := by
  intro sql schema dialect
  obtain ⟨safety, checked, rfl⟩ := Option.map_eq_some_iff.mp visit
  refine ⟨safety, checked, ?_⟩
  have accepted : SafetyRules.Accepted rt.case env.sqlglot sql dialect ↔ safety.issues = [] := by
    rw [← List.isEmpty_iff, ← SafetyRules.valid_eq checked]
    constructor
    · rintro ⟨verdict, checked', valid⟩
      obtain rfl := Option.some.inj (checked.symm.trans checked')
      exact valid
    · exact fun valid => ⟨safety, checked, valid⟩
  rw [accepted, ← @hallucinations_empty_iff rt parseOne sql schemas env, hallucinations_eq]
  have pass : some (safety.issues ++
      if schema = [] then [] else (checkHallucinations rt parseOne sql schema).issues).isEmpty = some true ↔
      safety.issues = [] ∧
        (if schema = [] then [] else (checkHallucinations rt parseOne sql schema).issues) = [] := by
    rw [Option.some_inj, List.isEmpty_iff, List.append_eq_nil_iff]
  exact ⟨pass, rfl, fields_clean rfl⟩

def Runtime.ascii : Runtime where
  toRuntime := .ascii
  digit := Char.isDigit
  digit_ascii _ _ := rfl

def shopTable (name : String) (columns : List String) : FkGraph.Table where
  actualName := name
  columns := columns.map fun c => ⟨c, "TEXT", true⟩
  pkCols := []
  fks := []
  pk_known := nofun
  fk_known := nofun

def shopInfo : FkGraph.Info :=
  [("orders", shopTable "orders" ["id","total"]), ("customers", shopTable "customers" ["id","name"])]

/-- What the default dialect reads `SELECT total FROM orders` as. -/
def totalTree : Tree := ⟨[], [("orders", "")], [("", "total")], []⟩

def schooled : Env := checking .ascii (fun _ => some totalTree) (fun _ => some shopInfo)
  { Env.plain with sqlglot := SafetyRules.shopParser }

def totalAsked : AgentState where
  question := "How much?"
  sql := some "SELECT total FROM orders"
  databaseUrl := some "sqlite:///shop.db"

theorem guard_fields_shop : ∃ t, Guard.node schooled totalAsked = some t ∧
    ∃ safety, SafetyRules.checkSafety .ascii SafetyRules.shopParser "SELECT total FROM orders" "sqlite" =
      some safety ∧ FieldsMean safety.issues [] t := by
  obtain ⟨t, visit⟩ := Option.isSome_iff_exists.mp
    (show (Guard.node schooled totalAsked).isSome = true by decide +kernel)
  obtain ⟨safety, checked, -, -, mean⟩ :=
    guard_fields_iff .ascii (fun _ => some totalTree) (fun _ => some shopInfo) _ _ t visit
  have known : (checkHallucinations .ascii (fun _ => some totalTree) (totalAsked.sql.getD "")
      (getCachedSchemaForCheck (fun _ => some shopInfo) totalAsked.databaseUrl)).issues = [] := by
    decide +kernel
  have accepted : (SafetyRules.checkSafety .ascii SafetyRules.shopParser "SELECT total FROM orders"
      "sqlite").any (·.valid) = true := by decide +kernel
  obtain ⟨verdict, given, valid⟩ := (Option.any_eq_true _ _).mp accepted
  have fields := mean.mpr ⟨⟨verdict, given, valid⟩, .inr (issues_empty_iff.mp known)⟩
  rw [known, ite_self] at fields
  exact ⟨t, visit, safety, checked, fields⟩

/-- The guard where no schema can be read. -/
def unschooled : Env := checking .ascii (fun _ => none) (fun _ => none)
  { Env.plain with sqlglot := SafetyRules.shopParser }

/-- The guard sets `ast_pass` and one issue of the type in `ast_issues` for the statement, which is not
what these fields say. -/
def Misnamed (sql : String) (astPass : Bool) (type : String) : Prop :=
  ∃ safety t, SafetyRules.checkSafety .ascii unschooled.sqlglot sql "sqlite" = some safety ∧
    Guard.node unschooled { question := "When?", sql := some sql } = some t ∧
    t.astPass = some astPass ∧ t.astIssues.map (List.map Issue.type) = some [type] ∧
    ¬ FieldsMean safety.issues [] t

/-- A statement that cannot be parsed passes as to its tree; one with a keyword in a column does
not, and its keyword is listed there. -/
theorem fields_swapped :
    Misnamed "SELECT FROM WHERE" true "ast_syntax" ∧
    Misnamed "SELECT created_at FROM orders" false "forbidden_keyword" := by
  constructor
  · exact ⟨_, _, rfl, rfl, by decide +kernel, by decide +kernel,
      fun mean => absurd ((fields_clean rfl).mp mean).1 (by decide +kernel)⟩
  · exact ⟨_, _, rfl, rfl, by decide +kernel, by decide +kernel,
      fun mean => absurd ((fields_clean rfl).mp mean).1 (by decide +kernel)⟩

end Hallucinations
end Nl2SqlAgent

import DynamicSql.Resolve.Query

/-!
# What a statement is asked for

A query is shown in a statement together with the queries that are joined to it and those in its
conditions, at any depth, and with its branches where it is shown with its unions. Each of them
needs a description of its table, and the texts in its clauses and conditions are looked up among
columns. What a query needs before it can be shown is said here without resolving anything
(`Shown.Sound`).
-/

namespace DynamicSql

/-- A text of a description that is looked up among columns. -/
inductive Lookup where
  /-- The name of a field or a column, or a reference to one. -/
  | field (name : String)
  /-- Arithmetic over fields, in which only references have to be known. -/
  | expression (text : String)
deriving DecidableEq

/-- What a shown column is looked up by. -/
def SelectItem.lookup (item : SelectItem) : Lookup :=
  match item.aggregate with
  | .plain | .dateFormat _ => .field item.field
  | _ => .expression item.field

/-- What an ordering is looked up by. -/
def OrderItem.lookup (item : OrderItem) : Lookup :=
  match item.operand with
  | .expression => .expression item.field
  | _ => .field item.field

/-- What the field of a condition, and another one that it may be compared with, are looked up
by. -/
def Filter.lookups (field : String) : Filter → List Lookup
  | .compare comparison _ => [if comparison.isEquality then .field field else .expression field]
  | .compareField _ other => [.expression field, .expression other]
  | .compareDate _ _ _ | .like _ _ | .member _ _ | .memberOf _ _ => [.field field]
  | .guard _ _ | .isNull | .isNotNull => [.expression field]

namespace Clauses

/-- The columns that are asked for and not left out again. -/
def kept (clauses : Clauses) (description : Table) : List SelectItem :=
  if clauses.showsNothing then []
  else
    let scope : Scope := ⟨"", none, description⟩
    clauses.columns.filter fun item => !Context.isRemoved clauses.removed scope item

/-- What the entries of the clauses are looked up by. -/
def lookups (clauses : Clauses) (description : Table) : List Lookup :=
  (clauses.kept description).map SelectItem.lookup ++ clauses.groups.map (.field ·.field) ++
    clauses.havings.map (.expression ·.field) ++ clauses.orders.map OrderItem.lookup

end Clauses

mutual

/-- The conditions of a group and of the groups inside it. -/
def ConditionGroup.allConditions : ConditionGroup → List Condition
  | ⟨conditions, groups⟩ => conditions ++ subgroupConditions groups

/-- The conditions of groups and of the groups inside them. -/
def subgroupConditions : List Subgroup → List Condition
  | [] => []
  | ⟨_, group⟩ :: rest => group.allConditions ++ subgroupConditions rest

end

mutual

/-- The joins of a query, and those of the queries joined to it. -/
def Query.allJoins : Query → List Join
  | ⟨_, _, _, _, joins, _⟩ => nestedJoins joins

/-- Joins, each followed by those of the joined query. -/
def nestedJoins : List Join → List Join
  | [] => []
  | ⟨keys, query, on⟩ :: rest => ⟨keys, query, on⟩ :: query.allJoins ++ nestedJoins rest

end

/-- A query that is shown in a statement. -/
structure Shown where
  /-- The table that it has or takes over. -/
  table? : Option String
  query : Query
  /-- The join that it is shown for, with the table that it is joined to. -/
  join? : Option (Option String × Join)

mutual

/-- The queries that are shown for a query with the given table: itself, those that are joined to
it, and those in its conditions. Its branches are no part of it. -/
def Query.shown (table? : Option String) : Query → List Shown
  | ⟨own, token, clauses, conditions, joins, unions⟩ =>
    ⟨table?, ⟨own, token, clauses, conditions, joins, unions⟩, none⟩ ::
      (joinShown table? joins ++ conditions.shown)

/-- The queries that are shown for the branches of a union. A branch without a table has the table
of the query. -/
def branchShown (table? : Option String) : List UnionBranch → List Shown
  | [] => []
  | ⟨_, ⟨own, token, clauses, conditions, joins, unions⟩⟩ :: rest =>
    Query.shown (own.or table?) ⟨own, token, clauses, conditions, joins, unions⟩ ++
      branchShown table? rest

/-- The queries that are shown for a group of conditions. -/
def ConditionGroup.shown : ConditionGroup → List Shown
  | ⟨conditions, groups⟩ => conditionShown conditions ++ subgroupShown groups

/-- The queries that are shown for conditions. -/
def conditionShown : List Condition → List Shown
  | [] => []
  | ⟨_, _, filter⟩ :: rest => filter.shown ++ conditionShown rest

/-- The queries that are shown for the query in a condition, which is shown with its unions. -/
def Filter.shown : Filter → List Shown
  | .memberOf _ ⟨own, token, clauses, conditions, joins, unions⟩ =>
    Query.shown own ⟨own, token, clauses, conditions, joins, unions⟩ ++ branchShown own unions
  | _ => []

/-- The queries that are shown for groups. -/
def subgroupShown : List Subgroup → List Shown
  | [] => []
  | ⟨_, group⟩ :: rest => group.shown ++ subgroupShown rest

/-- The queries that are shown for joins to a table: those that are joined, those in their
conditions, and those joined to them in turn. -/
def joinShown (parent? : Option String) : List Join → List Shown
  | [] => []
  | ⟨keys, ⟨own, token, clauses, conditions, joins, unions⟩, on⟩ :: rest =>
    ⟨own, ⟨own, token, clauses, conditions, joins, unions⟩,
        some (parent?, ⟨keys, ⟨own, token, clauses, conditions, joins, unions⟩, on⟩)⟩ ::
      (on.shown ++ conditions.shown ++ joinShown own joins) ++ joinShown parent? rest

end

/-- The queries that are shown where a query over a table is shown with its unions. -/
def Query.allShown (table : String) (q : Query) : List Shown :=
  q.shown (some table) ++ branchShown (some table) q.unions

namespace Context

variable (ctx : Context)

/-- The description of a table, if the table is given and known. -/
def described? (table? : Option String) : Option Table := table?.bind ctx.schema.find?

/-- A name is known: in the description of the table at hand or, where it is a reference, in that
of the table with its token. -/
def Knows (description : Table) (name : String) : Prop :=
  match reference? name with
  | some (token, field) =>
    ∃ d, ctx.described? (ctx.references.lookup token) = some d ∧ d.knows field = true
  | none => description.knows name = true

/-- What a text is looked up for is known. -/
def Finds (description : Table) : Lookup → Prop
  | .field name => ctx.Knows description name
  | .expression text => ∀ cs, .word cs ∈ lexemes text → (behindMark? cs).isSome →
    ctx.Knows description (String.ofList cs)

/-- A condition can be resolved, apart from the query that it may hold: what it looks up is known, a
search pattern is not made from null, and a membership test is among some values. -/
structure Settles (description : Table) (x : Condition) : Prop where
  lookups : ∀ l ∈ x.filter.lookups x.field, ctx.Finds description l
  pattern : ∀ w v, x.filter = .like w v → v.isNull = false
  members : ∀ test v, x.filter = .member test v → ∃ m ms, v.members? = some (m :: ms)

/-- The keys of a join between two tables can be resolved: there are some, and what they look up
is known in the table of their side. Keys that are a pair of columns are taken as they are. -/
def Joins (parent joined : Table) : JoinKeys → Prop
  | .single _ _ => True
  | .composite pairs => pairs ≠ [] ∧ ∀ pair ∈ pairs,
    ctx.Finds parent (.expression pair.1) ∧ ctx.Finds joined (.expression pair.2)

/-- A query shows a column: one of its table, where it asks for none, or one that it or a joined
query asks for. -/
def ShowsColumn (description : Table) (q : Query) : Prop :=
  (q.clauses.columns = [] ∧ q.clauses.showsNothing = false ∧
      ∃ c ∈ description.columns, c.field ∉ q.clauses.removed ∧ c.column ∉ q.clauses.removed) ∨
    q.clauses.kept description ≠ [] ∨
    ∃ j ∈ q.allJoins, ∃ d, ctx.described? j.query.table = some d ∧ j.query.clauses.kept d ≠ []

end Context

namespace Shown

/-- The conditions of a shown query, with the extra ones of its join. -/
def conditions (s : Shown) : List Condition :=
  (s.join?.elim [] (·.2.on.allConditions)) ++ s.query.conditions.allConditions

/-- What a query needs of the description of its table before it can be shown. -/
structure Fits (ctx : Context) (s : Shown) (description : Table) : Prop where
  clauses : ∀ l ∈ s.query.clauses.lookups description, ctx.Finds description l
  conditions : ∀ x ∈ s.conditions, ctx.Settles description x
  keys : ∀ parent? j, s.join? = some (parent?, j) → ∀ parent, ctx.described? parent? = some parent →
    ctx.Joins parent description j.keys

/-- A query can be shown: it has a table, the description of the table fits, and the query shows a
column unless it is joined to another one. -/
def Sound (ctx : Context) (s : Shown) : Prop :=
  ∃ description, ctx.described? s.table? = some description ∧ s.Fits ctx description ∧
    (s.join? = none → ctx.ShowsColumn description s.query)

end Shown

end DynamicSql

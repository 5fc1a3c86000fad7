import DynamicSql.Query.Operator

/-!
# Descriptions of statements

A query is described as data: its table, its conditions, the queries joined to it and united with
it, and the clauses that decide what is shown. Conditions can hold queries in turn. Fields are
texts: names of fields or columns, references to fields of another table of the statement, or
arithmetic over them where the place admits it.
-/

namespace DynamicSql

/-- The identity of a table of a statement, which fields of other tables can refer to. -/
abbrev Token := String

/-- What is shown of a field. -/
inductive Aggregate where
  | plain
  | count
  | sum
  | avg
  | max
  | min
  | distinct
  | dateFormat (pattern : String)
  | expression
deriving DecidableEq

/-- An entry of the list of shown columns. -/
structure SelectItem where
  field : String
  aggregate : Aggregate
  alias? : Option String
deriving DecidableEq

/-- An entry of the list that rows are grouped by. -/
structure GroupItem where
  field : String
  pattern? : Option String
deriving DecidableEq

/-- What a condition on groups looks at. -/
inductive HavingOperand where
  | plain
  | count
deriving DecidableEq

/-- A condition on groups. -/
structure HavingItem where
  field : String
  operand : HavingOperand
  comparison : Comparison
  value : Value

/-- What rows are ordered by. -/
inductive OrderOperand where
  | plain
  | sum
  | avg
  | distinct
  | expression
deriving DecidableEq

/-- An entry of the list that rows are ordered by. -/
structure OrderItem where
  field : String
  direction : Direction
  operand : OrderOperand
deriving DecidableEq

/-- The clauses of a query that hold no further query. -/
structure Clauses where
  columns : List SelectItem := []
  /-- Names that are left out of the shown columns. -/
  removed : List String := []
  showsNothing : Bool := false
  groups : List GroupItem := []
  havings : List HavingItem := []
  orders : List OrderItem := []
  limit : Option UInt64 := none

/-- How the rows of a joined table are matched. -/
inductive JoinKeys where
  /-- One pair of columns, taken as they are. -/
  | single (left right : String)
  /-- Pairs of expressions over fields. -/
  | composite (pairs : List (String × String))
deriving DecidableEq

mutual

/-- What a condition says of its field. -/
inductive Filter where
  | compare (comparison : Comparison) (value : Value)
  | compareField (comparison : Comparison) (other : String)
  | compareDate (comparison : Comparison) (pattern : String) (value : Value)
  | like (wildcards : Wildcards) (value : Value)
  | member (test : Membership) (value : Value)
  | memberOf (test : Membership) (query : Query)
  | guard (guard : Guard) (value : Value)
  | isNull
  | isNotNull

/-- A condition on a field. -/
structure Condition where
  connector : Connector
  field : String
  filter : Filter

/-- Conditions, followed by groups of conditions. -/
structure ConditionGroup where
  conditions : List Condition
  groups : List Subgroup

/-- A group inside another one. -/
structure Subgroup where
  connector : Connector
  group : ConditionGroup

/-- A query joined to another one. -/
structure Join where
  keys : JoinKeys
  query : Query
  on : ConditionGroup

/-- A query united with another one. -/
structure UnionBranch where
  kind : UnionKind
  query : Query

/-- The description of a query. -/
structure Query where
  table : Option String
  token : Token
  clauses : Clauses
  conditions : ConditionGroup
  joins : List Join
  unions : List UnionBranch

end

namespace ConditionGroup

/-- The group without conditions. -/
def empty : ConditionGroup := ⟨[], []⟩

/-- Whether a group has neither conditions nor groups of its own. -/
def isEmpty (g : ConditionGroup) : Bool :=
  g.conditions.isEmpty && g.groups.isEmpty

end ConditionGroup

/-- A query of a table, with nothing said yet. -/
def Query.new (token : Token) (table : Option String) : Query :=
  ⟨table, token, {}, .empty, [], []⟩

/-- How an update changes a field. -/
inductive Change where
  | set
  | increment
  | decrement
deriving DecidableEq

/-- A field and its change. -/
structure Assignment where
  field : String
  change : Change
  value : Value

/-- The description of an update. -/
structure Update where
  token : Token
  sets : List Assignment
  joins : List Join
  conditions : ConditionGroup
  orders : List OrderItem
  limit : Option UInt64

/-- An update with nothing said yet. -/
def Update.new (token : Token) : Update :=
  ⟨token, [], [], .empty, [], none⟩

/-- The description of a deletion. -/
structure Delete where
  conditions : ConditionGroup
  limit : Option UInt64

/-- A deletion with nothing said yet. -/
def Delete.empty : Delete := ⟨.empty, none⟩

/-- A row to insert, field by field. -/
structure Insert where
  values : List (String × Value)

/-- The fields of a row. -/
def Insert.fields (row : Insert) : List String :=
  row.values.map (·.1)

end DynamicSql

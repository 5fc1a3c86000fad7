import DynamicSql.Query.Basic
import DynamicSql.Value.DateBound

/-!
# Building descriptions

Everything that holds a group of conditions is extended in the same way, by `andWhere` and the
named conditions made from it. Additions go behind what is there already.
-/

namespace DynamicSql

/-- Types whose values hold a group of conditions. -/
class HasConditions (α : Type) where
  /-- Change the conditions. -/
  modify : (ConditionGroup → ConditionGroup) → α → α

instance : HasConditions ConditionGroup := ⟨fun f g => f g⟩
instance : HasConditions Query := ⟨fun f q => { q with conditions := f q.conditions }⟩
instance : HasConditions Join := ⟨fun f j => { j with on := f j.on }⟩
instance : HasConditions Update := ⟨fun f u => { u with conditions := f u.conditions }⟩
instance : HasConditions Delete := ⟨fun f d => { d with conditions := f d.conditions }⟩

namespace HasConditions

variable {α : Type} [HasConditions α]

/-- Add a condition behind a connector. -/
def add (connector : Connector) (field : String) (filter : Filter) : α → α :=
  modify fun g => { g with conditions := g.conditions ++ [⟨connector, field, filter⟩] }

/-- Add a group behind a connector. -/
def addGroup (connector : Connector) (group : ConditionGroup) : α → α :=
  modify fun g => { g with groups := g.groups ++ [⟨connector, group⟩] }

/-- Add a condition that has to hold as well. -/
def andWhere (field : String) (filter : Filter) : α → α := add .and field filter

/-- Add a condition that may hold instead. -/
def orWhere (field : String) (filter : Filter) : α → α := add .or field filter

/-- Add a group that has to hold as well. -/
def andGroup (group : ConditionGroup) : α → α := addGroup .and group

/-- Add a group that may hold instead. -/
def orGroup (group : ConditionGroup) : α → α := addGroup .or group

/-- Compare a field with a value. -/
def compare (comparison : Comparison) (field : String) (v : Value) : α → α :=
  andWhere field (.compare comparison v)

/-- Compare a field with a value, as an alternative. -/
def orCompare (comparison : Comparison) (field : String) (v : Value) : α → α :=
  orWhere field (.compare comparison v)

/-- Ask for a value of the field `id`. -/
def byId (v : Value) : α → α := compare .equal "id" v

/-- Compare a field with another field. -/
def compareField (field : String) (comparison : Comparison) (other : String) : α → α :=
  andWhere field (.compareField comparison other)

/-- Compare a field with an end of a day. -/
def compareDay (field : String) (comparison : Comparison) (bound : DateBound) (v : Value) :
    α → α :=
  compare comparison field (bound.apply v)

/-- Ask for a day not before a given one. -/
def dateFrom (field : String) (v : Value) : α → α :=
  compareDay field .greaterEqual .dayStart v

/-- Ask for a day not after a given one. -/
def dateUntil (field : String) (v : Value) : α → α :=
  compareDay field .lessEqual .dayEnd v

/-- Compare a formatted date with a value. -/
def compareDate (field : String) (comparison : Comparison) (pattern : String) (v : Value) :
    α → α :=
  andWhere field (.compareDate comparison pattern v)

/-- Search for a text. -/
def like (wildcards : Wildcards) (field : String) (v : Value) : α → α :=
  andWhere field (.like wildcards v)

/-- Test for membership among the values that a value stands for. -/
def member (test : Membership) (field : String) (v : Value) : α → α :=
  andWhere field (.member test v)

/-- Test for membership in the result of a query. -/
def memberOf (test : Membership) (field : String) (query : Query) : α → α :=
  andWhere field (.memberOf test query)

/-- Test for null. -/
def isNull (field : String) : α → α := andWhere field .isNull

/-- Test for anything but null. -/
def isNotNull (field : String) : α → α := andWhere field .isNotNull

/-- Guard a change of a field. -/
def guard (field : String) (guard : Guard) (v : Value) : α → α :=
  andWhere field (.guard guard v)

end HasConditions

namespace Query

/-- A reference to a field of a query's table, for use elsewhere in the statement. -/
def fieldRef (q : Query) (field : String) : String :=
  "#tas_" ++ q.token ++ "." ++ field

/-- Give a query a token. -/
def withToken (q : Query) (token : Token) : Query := { q with token }

/-- Change the clauses of a query. -/
def modifyClauses (q : Query) (f : Clauses → Clauses) : Query :=
  { q with clauses := f q.clauses }

/-- Show one more column. -/
def column (q : Query) (item : SelectItem) : Query :=
  q.modifyClauses fun c => { c with columns := c.columns ++ [item] }

/-- Show a field under its own name. -/
def select (q : Query) (field : String) : Query :=
  q.column ⟨field, .plain, none⟩

/-- Show a field under a given name. -/
def selectAs (q : Query) (field alias_ : String) : Query :=
  q.column ⟨field, .plain, some alias_⟩

/-- Show the number of rows. -/
def count (q : Query) (alias_ : String) : Query :=
  q.column ⟨"", .count, some alias_⟩

/-- Show an aggregate under a given name. -/
def aggregate (q : Query) (aggregate : Aggregate) (field alias_ : String) : Query :=
  q.column ⟨field, aggregate, some alias_⟩

/-- Show the distinct values of a field. -/
def distinct (q : Query) (field : String) : Query :=
  q.column ⟨field, .distinct, none⟩

/-- Leave a name out of the shown columns. -/
def remove (q : Query) (name : String) : Query :=
  q.modifyClauses fun c => { c with removed := c.removed ++ [name] }

/-- Show nothing. -/
def selectNothing (q : Query) : Query :=
  q.modifyClauses fun c => { c with showsNothing := true }

/-- Group by a field, or by a formatted date. -/
def groupBy (q : Query) (field : String) (pattern? : Option String) : Query :=
  q.modifyClauses fun c => { c with groups := c.groups ++ [⟨field, pattern?⟩] }

/-- Add a condition on groups. -/
def having (q : Query) (item : HavingItem) : Query :=
  q.modifyClauses fun c => { c with havings := c.havings ++ [item] }

/-- Order by one more field. -/
def order (q : Query) (field : String) (direction : Direction) (operand : OrderOperand) : Query :=
  q.modifyClauses fun c => { c with orders := c.orders ++ [⟨field, direction, operand⟩] }

/-- Join a query. -/
def leftJoin (q : Query) (join : Join) : Query :=
  { q with joins := q.joins ++ [join] }

/-- Unite with a query. -/
def union (q : Query) (kind : UnionKind) (other : Query) : Query :=
  { q with unions := q.unions ++ [⟨kind, other⟩] }

/-- Limit the number of rows. -/
def limit (q : Query) (limit : UInt64) : Query :=
  q.modifyClauses fun c => { c with limit := some limit }

end Query

/-- Join a query by one pair of columns. -/
def Join.new (left right : String) (query : Query) : Join :=
  ⟨.single left right, query, .empty⟩

/-- Join a query by pairs of expressions. -/
def Join.composite (pairs : List (String × String)) (query : Query) : Join :=
  ⟨.composite pairs, query, .empty⟩

namespace Update

/-- Change one more field. -/
def assign (u : Update) (change : Change) (field : String) (v : Value) : Update :=
  { u with sets := u.sets ++ [⟨field, change, v⟩] }

/-- Join a query. -/
def leftJoin (u : Update) (join : Join) : Update :=
  { u with joins := u.joins ++ [join] }

/-- Order by one more field. -/
def order (u : Update) (field : String) (direction : Direction) : Update :=
  { u with orders := u.orders ++ [⟨field, direction, .plain⟩] }

/-- Limit the number of rows. -/
def limited (u : Update) (limit : UInt64) : Update :=
  { u with limit := some limit }

end Update

/-- Limit the number of deleted rows. -/
def Delete.limited (d : Delete) (limit : UInt64) : Delete :=
  { d with limit := some limit }

end DynamicSql

import DynamicSql.Resolve.Column

/-!
# Shown columns, groupings and orderings

The entries of the lists behind `SELECT`, `GROUP BY`, `HAVING` and `ORDER BY`.
-/

namespace DynamicSql

/-- Name a shown expression, unless the name is missing or empty. -/
def named (alias? : Option String) (f : Fragment) : Fragment :=
  match alias? with
  | some name => if name.isEmpty then f else f ++ [.text (" AS " ++ name)]
  | none => f

/-- A function applied to a fragment. -/
def call (function : String) (f : Fragment) : Fragment :=
  f.wrap ⟨function ++ "(", ")"⟩

/-- A column under its name, which is left out where it is the name of the column. -/
def shownAs (found : Fragment) (column name : String) : Fragment :=
  if name = column then found else found ++ [.text (" AS " ++ name)]

namespace Context

/-- A shown column. -/
def selectItem (ctx : Context) (scope : Scope) (item : SelectItem) : Resolve Fragment :=
  match item.aggregate with
  | .plain => do
    let found ← ctx.findColumn scope item.field
    return shownAs found.fragment found.column (item.alias?.getD found.field)
  | .count =>
    if item.field.isEmpty then pure (named item.alias? (.ofText "count(1)"))
    else do
      let operand ← ctx.expression scope item.field
      return named item.alias? (operand.wrap ⟨"count(distinct ", ")"⟩)
  | .sum => do
    let operand ← ctx.expression scope item.field
    return named item.alias? (call "sum" (operand.wrap ctx.dialect.nullDefault))
  | .avg => do
    let operand ← ctx.expression scope item.field
    return named item.alias? (call "avg" (operand.wrap ctx.dialect.nullDefault))
  | .max => do
    return named item.alias? (call "max" (← ctx.expression scope item.field))
  | .min => do
    return named item.alias? (call "min" (← ctx.expression scope item.field))
  | .distinct => do
    return named item.alias? (call "distinct" (← ctx.expression scope item.field))
  | .dateFormat pattern => do
    let operand ← ctx.field scope item.field
    return named item.alias? (operand.wrap (ctx.dialect.dateFormat pattern))
  | .expression => do
    return named item.alias? (← ctx.expression scope item.field)

/-- Whether a shown column is left out: by its name, its field or the column of its field. -/
def isRemoved (removed : List String) (scope : Scope) (item : SelectItem) : Bool :=
  item.alias?.any removed.contains || removed.contains item.field ||
    (scope.table.columnOf? item.field).any removed.contains

/-- The columns that a query asks for. -/
def explicitColumns (ctx : Context) (scope : Scope) (clauses : Clauses) :
    Resolve (List Fragment) :=
  if clauses.showsNothing then pure []
  else
    (clauses.columns.filter fun item => !isRemoved clauses.removed scope item).mapM
      (ctx.selectItem scope)

/-- All columns of a table, each under the name of its field. -/
def allColumns (scope : Scope) (removed : List String) : List Fragment :=
  (scope.table.columns.filter fun c => !removed.contains c.field && !removed.contains c.column).map
    fun c => shownAs (.qualified scope.token? c.column) c.column c.field

/-- The columns that a query shows: those it asks for, or else all columns of its table. -/
def shownColumns (ctx : Context) (scope : Scope) (clauses : Clauses) : Resolve (List Fragment) :=
  if clauses.columns.isEmpty && !clauses.showsNothing then
    pure (allColumns scope clauses.removed)
  else ctx.explicitColumns scope clauses

/-- The columns that a joined query adds: only those it asks for. -/
def joinedColumns (ctx : Context) (scope : Scope) (clauses : Clauses) : Resolve (List Fragment) :=
  if clauses.columns.isEmpty then pure [] else ctx.explicitColumns scope clauses

/-- An entry of the list that rows are grouped by. -/
def groupItem (ctx : Context) (scope : Scope) (item : GroupItem) : Resolve Fragment := do
  let operand ← ctx.field scope item.field
  return match item.pattern? with
    | some pattern => operand.wrap (ctx.dialect.dateFormat pattern)
    | none => operand

/-- What a condition on groups looks at. -/
def havingOperand (ctx : Context) (scope : Scope) (item : HavingItem) : Resolve Fragment :=
  match item.operand with
  | .count =>
    if item.field.isEmpty then pure (.ofText "count(1)")
    else do return call "count" (← ctx.expression scope item.field)
  | .plain => ctx.expression scope item.field

/-- A comparison with a bound value. -/
def comparedWith (operand : Fragment) (comparison : Comparison) (marker : Piece) : Fragment :=
  operand ++ [.text (" " ++ comparison.text ++ " "), marker]

/-- A condition on groups, the one with the given number under a path. -/
def havingItem (ctx : Context) (scope : Scope) (path : Path) (item : HavingItem) (index : Nat) :
    Resolve Fragment := do
  let operand ← ctx.havingOperand scope item
  let marker ← Resolve.bound ⟨.comparedGroup, path, index, none⟩ item.value
  return comparedWith operand item.comparison marker

/-- What rows are ordered by, without the direction. -/
def orderOperand (ctx : Context) (scope : Scope) (item : OrderItem) : Resolve Fragment :=
  match item.operand with
  | .plain => ctx.field scope item.field
  | .sum => do
    return call "sum" ((← ctx.field scope item.field).wrap ctx.dialect.nullDefault)
  | .avg => do
    return call "avg" ((← ctx.field scope item.field).wrap ctx.dialect.nullDefault)
  | .distinct => do return call "distinct" (← ctx.field scope item.field)
  | .expression => ctx.expression scope item.field

/-- An entry of the list that rows are ordered by. -/
def orderItem (ctx : Context) (scope : Scope) (item : OrderItem) : Resolve Fragment := do
  return (← ctx.orderOperand scope item) ++ [.text (" " ++ item.direction.text)]

end Context

/-- Which clauses of a query are wanted. -/
inductive Extent where
  /-- All of them. -/
  | everything
  /-- Those that change the number of rows. -/
  | counting
  /-- None. -/
  | conditionsOnly
deriving DecidableEq

/-- The lists that the tables of a statement add to. -/
structure Collected where
  columns : List Fragment
  groups : List Fragment
  havings : List Fragment
  orders : List Fragment

namespace Collected

/-- Nothing added. -/
def empty : Collected := ⟨[], [], [], []⟩

/-- What two tables add, one after the other. -/
def append (a b : Collected) : Collected :=
  ⟨a.columns ++ b.columns, a.groups ++ b.groups, a.havings ++ b.havings, a.orders ++ b.orders⟩

instance : Append Collected := ⟨append⟩

end Collected

/-- The clauses of a query that are wanted. The columns are given by the caller, since joined
queries show fewer of them. -/
def Context.collect (ctx : Context) (scope : Scope) (clauses : Clauses) (path : Path)
    (columns : Resolve (List Fragment)) : Extent → Resolve Collected
  | .everything => do
    let columns ← columns
    let groups ← clauses.groups.mapM (ctx.groupItem scope)
    let havings ← clauses.havings.zipIdx.mapM fun (item, i) => ctx.havingItem scope path item i
    let orders ← clauses.orders.mapM (ctx.orderItem scope)
    return ⟨columns, groups, havings, orders⟩
  | .counting => do
    let groups ← clauses.groups.mapM (ctx.groupItem scope)
    let havings ← clauses.havings.zipIdx.mapM fun (item, i) => ctx.havingItem scope path item i
    return ⟨[], groups, havings, []⟩
  | .conditionsOnly => pure .empty

end DynamicSql

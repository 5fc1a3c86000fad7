import DynamicSql.Query.Build
import DynamicSql.Statement.Basic

/-!
# Statements that read

A query becomes a `SELECT`; the same query can be asked for its first row only, page by page, or
for the number of its rows.
-/

namespace DynamicSql

/-- A query to be read page by page: the statement that counts its rows, and the statement that a
window is put behind. Both have the same bound values. -/
structure PagedStatement where
  countSql : String
  baseSql : String
  params : Params
  dialect : Dialect

/-- The statement that reads one page. Pages are counted from one. -/
def PagedStatement.pageSql (p : PagedStatement) (number size : UInt64) : Except Error String :=
  p.dialect.pageClause p.baseSql number size

/-- Count the rows of a query. -/
def countRows (query : Fragment) : Fragment :=
  .text "SELECT count(1) FROM " :: query.parens ++ [.text " s"]

/-- Count the rows of a `SELECT` by what follows its columns. -/
def countBody (parts : SelectParts) : Fragment :=
  .text "SELECT count(1)" :: parts.body

namespace Compiler

/-- The context of a query over a table. -/
def queryContext (c : Compiler) (q : Query) (table : String) : Except Error Context :=
  c.context (q.references table)

/-- The draft of the `SELECT` of a query over a table. -/
def selectDraft (c : Compiler) (q : Query) (table : String) : Except Error Draft := do
  let ctx ← c.queryContext q table
  let (f, trace) ← (ctx.compoundSelect table (.ofRoot 0) q).run
  return (f ++ [.text (Dialect.limitClause q.clauses.limit)], trace)

/-- The `SELECT` of a query over a table. -/
def select (c : Compiler) (q : Query) (table : String) : Except Error Statement := do
  return c.finish (← c.selectDraft q table)

/-- The `SELECT` of the first row of a query over a table. -/
def findOne (c : Compiler) (q : Query) (table : String) : Except Error Statement :=
  c.select (q.limit 1) table

/-- The drafts of the paged form of a query over a table: the one that counts its rows, and the one
that a window is put behind. A grouped query is counted by its groups, and a union as a whole. -/
def pageDrafts (c : Compiler) (q : Query) (table : String) : Except Error (Draft × Draft) := do
  let ctx ← c.queryContext q table
  if q.unions.isEmpty then
    let (parts, trace) ← (ctx.shownParts table (.ofRoot 0) q).run
    let body := countBody parts
    let count := if parts.collected.groups.isEmpty then body else countRows body
    return ((count, trace), (parts.select, trace))
  else
    let (f, trace) ← (ctx.compoundSelect table (.ofRoot 0) q).run
    return ((countRows f, trace), (f, trace))

/-- The paged form of a query over a table. The limit of the query plays no part. -/
def page (c : Compiler) (q : Query) (table : String) : Except Error PagedStatement := do
  let (count, base) ← c.pageDrafts q table
  return ⟨c.render count, c.render base, .ofBound base.2.bound, c.dialect⟩

/-- The draft of the statement that counts the rows of a query over a table. -/
def validateDraft (c : Compiler) (q : Query) (table : String) : Except Error Draft := do
  let ctx ← c.queryContext q table
  if q.unions.isEmpty then
    let (parts, trace) ← (ctx.selectParts table (.ofRoot 0) .counting q).run
    return (countBody parts, trace)
  else
    let (f, trace) ← (ctx.compoundSelect table (.ofRoot 0) q).run
    return (countRows f, trace)

/-- The statement that counts the rows of a query over a table, to see whether there are any. -/
def validate (c : Compiler) (q : Query) (table : String) : Except Error Statement := do
  return c.finish (← c.validateDraft q table)

end Compiler

end DynamicSql

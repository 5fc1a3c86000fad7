import DynamicSql.Resolve.Clause
import DynamicSql.Resolve.Output
import DynamicSql.Value.Members

/-!
# Resolving queries

Queries, conditions and joins are resolved together, since conditions hold queries. Tables are
mentioned in a fixed order: the table of a query, then what its clauses refer to, then its joins,
each followed by the joins inside it, and then the queries in its conditions.
-/

namespace DynamicSql

/-- The parts of one `SELECT`. -/
structure SelectParts where
  collected : Collected
  /-- The table with its alias, and the joins. -/
  source : Fragment
  condition : Fragment

namespace SelectParts

/-- A clause with a heading, left out where it has no entries. -/
def clause (heading separator : String) (entries : List Fragment) : Fragment :=
  if entries.isEmpty then [] else .text heading :: Fragment.join separator entries

/-- Everything from `FROM` to `HAVING`. -/
def body (parts : SelectParts) : Fragment :=
  .text " FROM " :: parts.source ++
    (if parts.condition.isEmpty then [] else .text " WHERE " :: parts.condition) ++
    clause " GROUP BY " ", " parts.collected.groups ++
    clause " HAVING " " AND " parts.collected.havings

/-- The whole `SELECT` without a limit. -/
def select (parts : SelectParts) : Fragment :=
  .text "SELECT " :: Fragment.join ", " parts.collected.columns ++ parts.body ++
    clause " ORDER BY " ", " parts.collected.orders

end SelectParts

/-- What the joins of a table add to a statement. -/
structure Joined where
  text : Fragment
  collected : Collected
  /-- The conditions of the joined queries. -/
  conditions : List Fragment

namespace Joined

/-- No joins. -/
def empty : Joined := ⟨[], .empty, []⟩

/-- What two joins add, one after the other. -/
def append (a b : Joined) : Joined :=
  ⟨a.text ++ b.text, a.collected ++ b.collected, a.conditions ++ b.conditions⟩

instance : Append Joined := ⟨append⟩

end Joined

namespace Context

/-- A pair of expressions that have to agree. -/
def keyPair (ctx : Context) (parent joined : Scope) (pair : String × String) :
    Resolve Fragment := do
  let left ← ctx.expression parent pair.1
  let right ← ctx.expression joined pair.2
  return left ++ .text " = " :: right

/-- The keys of a join. -/
def joinKeys (ctx : Context) (parent joined : Scope) : JoinKeys → Resolve Fragment
  | .single left right =>
    pure (Fragment.qualified parent.token? left ++
      .text " = " :: Fragment.qualified joined.token? right)
  | .composite pairs =>
    if pairs.isEmpty then Resolve.fail (.joinWithoutKeys joined.name)
    else do
      let parts ← pairs.mapM (ctx.keyPair parent joined)
      return Fragment.join " AND " parts

/-- A test for membership among the values that a value stands for. -/
def membership (ctx : Context) (scope : Scope) (field : String) (test : Membership) (v : Value)
    (path : Path) (index : Nat) : Resolve Fragment := do
  let members ← Resolve.ofOption (.nullMembership field test.text) v.members?
  if members.isEmpty then Resolve.fail (.emptyMembership field test.text)
  else
    let operand ← ctx.field scope field
    let markers ← members.zipIdx.mapM fun (member, n) =>
      Resolve.bound ⟨.compared, path, index, some n⟩ member
    return operand ++ Piece.text (" " ++ test.text ++ " ") ::
      Fragment.parens (.join ", " (markers.map ([·])))

/-- A condition that holds no query. -/
def simpleCondition (ctx : Context) (scope : Scope) (path : Path) (index : Nat) (field : String) :
    Filter → Resolve Fragment
  | .compare comparison v => do
    let operand ← ctx.comparand scope comparison field
    let marker ← Resolve.bound ⟨.compared, path, index, none⟩ v
    return comparedWith operand comparison marker
  | .compareField comparison other => do
    let left ← ctx.expression scope field
    let right ← ctx.expression scope other
    return left ++ .text (" " ++ comparison.text ++ " ") :: right
  | .compareDate comparison pattern v => do
    let operand ← ctx.field scope field
    let marker ← Resolve.bound ⟨.compared, path, index, none⟩ v
    return comparedWith (operand.wrap (ctx.dialect.dateFormat pattern)) comparison marker
  | .like wildcards v =>
    if v.isNull then Resolve.fail (.nullPattern field)
    else do
      let operand ← ctx.field scope field
      let marker ← Resolve.bound ⟨.compared, path, index, none⟩ (wildcards.pattern v)
      return operand ++ [.text " like ", marker]
  | .member test v => ctx.membership scope field test v path index
  | .memberOf test _ => Resolve.fail (.subqueryWithoutTable field test.text)
  | .guard guard v => do
    let operand ← ctx.expression scope field
    let marker ← Resolve.bound ⟨.compared, path, index, none⟩ v
    return operand ++ [.text (" " ++ guard.sign ++ " "), marker,
      .text (" " ++ guard.comparison.text ++ " 0")]
  | .isNull => do return (← ctx.expression scope field) ++ [.text " is null"]
  | .isNotNull => do return (← ctx.expression scope field) ++ [.text " is not null"]

/-- Put the parts of a `SELECT` together. -/
def assemble (ctx : Context) (table : String) (token : Token) (own : Collected) (joined : Joined)
    (condition : List Term) : SelectParts where
  collected := own ++ joined.collected
  source := .table table token :: joined.text
  condition := combineWhere ctx.root (Term.whereText condition :: joined.conditions)

/-- What a joined table adds on its own, without the joins inside it: its keys and its extra
conditions behind `ON`, and its other conditions to the statement. -/
def attach (ctx : Context) (table : String) (token : Token) (keys : Fragment) (own : Collected)
    (extra condition : List Term) : Joined where
  text := .text " LEFT JOIN " :: .table table token :: .text " ON " ::
    Fragment.parens (appendOn ctx.root keys (Term.onText extra))
  collected := own
  conditions :=
    let text := Term.whereText condition
    if text.isEmpty then [] else [text]

/-- A `SELECT` with its branches, which are in parentheses where there are any. -/
def compound (select branches : Fragment) : Fragment :=
  if branches.isEmpty then select else select.parens ++ branches

/-- Refuse a `SELECT` that shows nothing. -/
def requireColumns (parts : SelectParts) (e : Error) : Resolve Unit :=
  if parts.collected.columns.isEmpty then Resolve.fail e else pure ()

mutual

/-- The parts of the `SELECT` of a query over a table. Its unions are no part of it. -/
def selectParts (ctx : Context) (table : String) (path : Path) (extent : Extent) :
    Query → Resolve SelectParts
  | ⟨_, token, clauses, conditions, joins, _⟩ => do
    let scope ← ctx.openScope token table
    let own ← ctx.collect scope clauses (path.child "gh") (ctx.shownColumns scope clauses) extent
    let joined ← joined ctx scope (path.child "cl") extent 0 joins
    let terms ← groupTerms ctx scope (path.child "tl") conditions
    return ctx.assemble table token own joined terms

/-- The branches of a union, each behind its keyword. -/
def unionBranches (ctx : Context) (table : String) (path : Path) (k : Nat) :
    List UnionBranch → Resolve Fragment
  | [] => pure []
  | ⟨kind, ⟨own, token, clauses, conditions, joins, unions⟩⟩ :: rest => do
    let table' := own.getD table
    let parts ← selectParts ctx table' (path.childAt "un" k) .everything
      ⟨own, token, clauses, conditions, joins, unions⟩
    requireColumns parts (.noBranchColumns k table')
    let others ← unionBranches ctx table path (k + 1) rest
    return .text kind.text ::
      Fragment.parens (parts.select ++ [.text (Dialect.limitClause clauses.limit)]) ++ others

/-- The terms of a group of conditions. Groups without conditions leave no term. -/
def groupTerms (ctx : Context) (scope : Scope) (path : Path) :
    ConditionGroup → Resolve (List Term)
  | ⟨conditions, groups⟩ => do
    let leaves ← conditionTerms ctx scope path 0 conditions
    let others ← subgroupTerms ctx scope path 0 groups
    return leaves ++ others

/-- The terms of conditions, the first of which has the given number. -/
def conditionTerms (ctx : Context) (scope : Scope) (path : Path) (i : Nat) :
    List Condition → Resolve (List Term)
  | [] => pure []
  | ⟨connector, field, filter⟩ :: rest => do
    let text ← conditionText ctx scope path i field filter
    let others ← conditionTerms ctx scope path (i + 1) rest
    return .leaf connector text :: others

/-- The text of a condition. -/
def conditionText (ctx : Context) (scope : Scope) (path : Path) (i : Nat) (field : String) :
    Filter → Resolve Fragment
  | .memberOf test ⟨some table, token, clauses, conditions, joins, unions⟩ => do
    let operand ← ctx.field scope field
    let path := path.childAt "s" i
    let parts ← selectParts ctx table path .everything
      ⟨some table, token, clauses, conditions, joins, unions⟩
    requireColumns parts (.noColumns table)
    let branches ← unionBranches ctx table path 0 unions
    return operand ++ Piece.text (" " ++ test.text ++ " ") ::
      Fragment.parens
        (compound parts.select branches ++ [.text (Dialect.limitClause clauses.limit)])
  | filter => ctx.simpleCondition scope path i field filter

/-- The terms of groups, the first of which has the given number. -/
def subgroupTerms (ctx : Context) (scope : Scope) (path : Path) (j : Nat) :
    List Subgroup → Resolve (List Term)
  | [] => pure []
  | ⟨connector, group⟩ :: rest => do
    let terms ← groupTerms ctx scope (path.childAt "ot" j) group
    let others ← subgroupTerms ctx scope path (j + 1) rest
    return if terms.isEmpty then others else .group connector terms :: others

/-- What the joins of a table add, the first of which has the given number. -/
def joined (ctx : Context) (parent : Scope) (path : Path) (extent : Extent) (l : Nat) :
    List Join → Resolve Joined
  | [] => pure .empty
  | ⟨keys, query, on⟩ :: rest => do
    let first ← joinedQuery ctx parent path extent l keys
      (groupTerms ctx · (path.childAt "ofl" l) on) query
    let others ← joined ctx parent path extent (l + 1) rest
    return first ++ others

/-- What one join adds; `extra` resolves its extra conditions. -/
def joinedQuery (ctx : Context) (parent : Scope) (path : Path) (extent : Extent) (l : Nat)
    (keys : JoinKeys) (extra : Scope → Resolve (List Term)) : Query → Resolve Joined
  | ⟨none, _, _, _, _, _⟩ => Resolve.fail (.joinWithoutTable l parent.name)
  | ⟨some table, token, clauses, conditions, joins, _⟩ => do
    let scope ← ctx.openScope token table
    let keys ← ctx.joinKeys parent scope keys
    let own ← ctx.collect scope clauses (path.childAt "gh" l) (ctx.joinedColumns scope clauses)
      extent
    let extra ← extra scope
    let terms ← groupTerms ctx scope (path.childAt "fl" l) conditions
    let inner ← joined ctx scope (path.childAt "j" l) extent 0 joins
    return ctx.attach table token keys own extra terms ++ inner

end

/-- The parts of the `SELECT` of a query over a table, which shows at least one column. -/
def shownParts (ctx : Context) (table : String) (path : Path) (q : Query) :
    Resolve SelectParts := do
  let parts ← ctx.selectParts table path .everything q
  requireColumns parts (.noColumns table)
  return parts

/-- A query over a table with its unions, without a limit. -/
def compoundSelect (ctx : Context) (table : String) (path : Path) (q : Query) :
    Resolve Fragment := do
  let parts ← ctx.shownParts table path q
  let branches ← ctx.unionBranches table path 0 q.unions
  return compound parts.select branches

end Context

end DynamicSql

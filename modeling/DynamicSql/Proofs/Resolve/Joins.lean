import DynamicSql.Proofs.Resolve.Freshness
import DynamicSql.Proofs.Resolve.Realised
import DynamicSql.Proofs.Resolve.Succeeds

/-!
# Joins in a row

The joins of a query make up a tree: queries are joined to it, and others to these. In a statement
they stand in a row, each in front of the joins inside it, and those in front of the joins beside
it (`placedJoins`). What a join adds is resolved from the join alone, in the scopes of its own table
and of the table that it is joined to (`JoinResolves`), and what all joins add is put together from
this, part by part, in the order of the row (`joined_attaches`).
-/

namespace DynamicSql

/-- A join at its place in the tree of joins. -/
structure PlacedJoin where
  /-- The table that it is joined to, and the token of this table. -/
  parent : Option String × Token
  /-- The way to the joins that it is one of, and its number among them. -/
  path : Path
  index : Nat
  join : Join

mutual

/-- The joins to the table of a joined query; `path` is the way to them. -/
def Query.innerJoins (path : Path) : Query → List PlacedJoin
  | ⟨own, token, _, _, joins, _⟩ => placedJoins (own, token) path 0 joins

/-- Joins to a table, each followed by those of the joined query. -/
def placedJoins (parent : Option String × Token) (path : Path) (l : Nat) :
    List Join → List PlacedJoin
  | [] => []
  | ⟨keys, query, on⟩ :: rest =>
    ⟨parent, path, l, ⟨keys, query, on⟩⟩ ::
      (query.innerJoins (path.childAt "j" l) ++ placedJoins parent path (l + 1) rest)

end

/-- The joins of a query over a table. -/
def Query.placedJoins (table : String) (path : Path) (q : Query) : List PlacedJoin :=
  DynamicSql.placedJoins (some table, q.token) (path.child "cl") 0 q.joins

/-- The joins of a tree with their places are its joins from left to right. -/
theorem map_join_placedJoins : ∀ (joins : List Join) (parent : Option String × Token) (path : Path)
    (l : Nat), (placedJoins parent path l joins).map (·.join) = nestedJoins joins
  | [], _, _, _ => by
    rw [placedJoins, nestedJoins]
    rfl
  | ⟨keys, ⟨own, token, clauses, conditions, joins, unions⟩, on⟩ :: rest, parent, path, l => by
    rw [placedJoins, Query.innerJoins, nestedJoins, Query.allJoins, List.map_cons, List.map_append,
      map_join_placedJoins joins, map_join_placedJoins rest]
    rfl

/-- The row holds the joins of the tree, in the same order. -/
theorem Query.map_join_placedJoins (q : Query) (table : String) (path : Path) :
    (q.placedJoins table path).map (·.join) = q.allJoins := by
  rw [Query.placedJoins, DynamicSql.map_join_placedJoins]
  cases q
  rw [Query.allJoins]

/-- The values that the `ON` conditions of a join bind. -/
def PlacedJoin.onSlots (j : PlacedJoin) : List Slot :=
  Landmark.slots (j.join.on.landmarks (j.path.childAt "ofl" j.index))

/-- The values that the other conditions of a joined query bind. -/
def PlacedJoin.whereSlots (j : PlacedJoin) : List Slot :=
  Landmark.slots (j.join.query.conditions.landmarks (j.path.childAt "fl" j.index))

/-- The places in the landmarks of joins are those of their conditions. -/
theorem joinLandmarks_slots (grouped : Bool) : ∀ (joins : List Join)
    (parent : Option String × Token) (path : Path) (l : Nat),
    Landmark.slots (joinLandmarks grouped path l joins).source =
        (placedJoins parent path l joins).flatMap PlacedJoin.onSlots ∧
      Landmark.slots (joinLandmarks grouped path l joins).conditions =
        (placedJoins parent path l joins).flatMap PlacedJoin.whereSlots
  | [], _, _, _ => by
    rw [placedJoins, joinLandmarks]
    exact ⟨rfl, rfl⟩
  | ⟨keys, ⟨own, token, clauses, conditions, joins, unions⟩, on⟩ :: rest, parent, path, l => by
    obtain ⟨hinnerOn, hinnerWhere⟩ :=
      joinLandmarks_slots grouped joins (own, token) (path.childAt "j" l) 0
    obtain ⟨hrestOn, hrestWhere⟩ := joinLandmarks_slots grouped rest parent path (l + 1)
    rw [placedJoins, Query.innerJoins, joinLandmarks, List.flatMap_cons, List.flatMap_cons,
      List.flatMap_append, List.flatMap_append, ← hinnerOn, ← hrestOn, ← hinnerWhere, ← hrestWhere]
    constructor
    · -- The table of a join has no place.
      change Landmark.slots (on.landmarks (path.childAt "ofl" l) ++
        (joinLandmarks grouped (path.childAt "j" l) 0 joins).source ++ _) = _
      rw [List.append_assoc, Landmark.slots_append, Landmark.slots_append]
      rfl
    · change Landmark.slots (conditions.landmarks (path.childAt "fl" l) ++
        (joinLandmarks grouped (path.childAt "j" l) 0 joins).conditions ++ _) = _
      rw [List.append_assoc, Landmark.slots_append, Landmark.slots_append]
      rfl

/-- What a table adds to the clauses of a statement. -/
structure TableParts where
  scope : Scope
  token : Token
  lists : Collected
  /-- The terms of the conditions that stand behind `WHERE`. -/
  terms : List Term

/-- What a joined table adds to a statement. -/
structure JoinParts extends TableParts where
  /-- The table that it is joined to. -/
  parent : Scope
  /-- The two sides of each of its keys. -/
  keys : List (Fragment × Fragment)
  /-- The terms of the conditions that stand behind `ON`. -/
  extra : List Term

/-- The extra conditions of a join as they stand behind its keys: without blanks in front, and
behind `AND` unless they bring a connector of their own. -/
def onTail (root : String) (extra : List Term) : Fragment :=
  let own := (Term.onText extra).trimStart
  if own.isEmpty then []
  else if startsWith "AND " (own.outline root) || startsWith "OR " (own.outline root) then
    .text " " :: own
  else .text " AND " :: own

/-- Conditions are joined to keys as a tail behind them. -/
theorem appendOn_eq (root : String) (keys : Fragment) (extra : List Term) :
    appendOn root keys (Term.onText extra) = keys ++ onTail root extra := by
  unfold appendOn onTail
  dsimp only
  split
  · rw [List.append_nil]
  · split <;> rfl

namespace JoinParts

/-- What stands in the parentheses behind `ON`: the keys of a join, and then its extra
conditions. -/
def on (root : String) (p : JoinParts) : Fragment :=
  Fragment.join " AND " (p.keys.map fun k => k.1 ++ .text " = " :: k.2) ++ onTail root p.extra

/-- What a join adds behind `FROM`. -/
def source (root : String) (p : JoinParts) : Fragment :=
  .text " LEFT JOIN " :: .table p.scope.name p.token :: .text " ON " ::
    Fragment.parens (p.on root)

end JoinParts

/-- The lists that several tables add to, one table after the other. -/
def TableParts.collected (tables : List TableParts) : Collected :=
  ⟨tables.flatMap (·.lists.columns), tables.flatMap (·.lists.groups),
    tables.flatMap (·.lists.havings), tables.flatMap (·.lists.orders)⟩

/-- The conditions of tables that have some. -/
def TableParts.conditions (tables : List TableParts) : List Fragment :=
  (tables.map fun p => Term.whereText p.terms).filter (!·.isEmpty)

/-- What joins in a row add to a statement. -/
def JoinParts.joined (root : String) (parts : List JoinParts) : Joined where
  text := parts.flatMap (JoinParts.source root)
  collected := TableParts.collected (parts.map JoinParts.toTableParts)
  conditions := TableParts.conditions (parts.map JoinParts.toTableParts)

/-- What tables collect is collected one after the other. -/
theorem TableParts.collected_append (a b : List TableParts) :
    collected (a ++ b) = collected a ++ collected b := by
  simp only [collected, List.flatMap_append]
  rfl

/-- The conditions of tables stand one after the other. -/
theorem TableParts.conditions_append (a b : List TableParts) :
    conditions (a ++ b) = conditions a ++ conditions b := by
  rw [conditions, List.map_append, List.filter_append]
  rfl

/-- What joins add is added one after the other. -/
theorem JoinParts.joined_append (root : String) (a b : List JoinParts) :
    joined root (a ++ b) = joined root a ++ joined root b := by
  rw [joined, List.flatMap_append, List.map_append, TableParts.collected_append,
    TableParts.conditions_append]
  rfl

/-- The parts of a `SELECT` over a table with joins in a row. -/
def SelectParts.ofTables (root : String) (first : TableParts) (joins : List JoinParts) :
    SelectParts where
  collected := TableParts.collected (first :: joins.map JoinParts.toTableParts)
  source := .table first.scope.name first.token :: joins.flatMap (JoinParts.source root)
  condition := combineWhere root (TableParts.conditions (first :: joins.map JoinParts.toTableParts))

/-- A run yields a result, whatever happens on the way. -/
def Resolve.Gives {α : Type} (x : Resolve α) (a : α) : Prop := ∃ t, x.Yields a t

namespace Context

open Resolve

variable (ctx : Context)

/-- A scope is that of a given table, with a given token, as the schema describes it. -/
structure IsScope (table : Option String × Token) (scope : Scope) : Prop where
  name : table.1 = some scope.name
  token : scope.token? = some table.2
  described : ctx.schema.table scope.name = .ok scope.table

/-- The sides of the keys of a join: those on the left are resolved in the table that is joined to,
and those on the right in the joined one. A single pair of columns is taken as it is. -/
def KeySides (parent joined : Scope) : JoinKeys → List (Fragment × Fragment) → Prop
  | .single left right, sides =>
    sides = [(.qualified parent.token? left, .qualified joined.token? right)]
  | .composite pairs, sides => pairs ≠ [] ∧ List.Forall₂ (fun pair side =>
      (ctx.expression parent pair.1).Gives side.1 ∧ (ctx.expression joined pair.2).Gives side.2)
      pairs sides

/-- The columns that a query asks for, and does not leave out again, are resolved one by one. -/
def AskedColumns (q : Query) (p : TableParts) : Prop :=
  List.Forall₂ (fun item f => (ctx.selectItem p.scope item).Gives f)
    (q.clauses.kept p.scope.table) p.lists.columns

/-- The columns of a query that is joined to nothing: those that it asks for or, where it asks for
none, those of its table. -/
def ShownColumns (q : Query) (p : TableParts) : Prop :=
  if q.clauses.columns.isEmpty && !q.clauses.showsNothing then
    p.lists.columns = allColumns p.scope q.clauses.removed
  else ctx.AskedColumns q p

/-- What a query adds to a statement is resolved from the query alone: its lists entry by entry,
apart from the columns, and its conditions. -/
structure TableResolves (table? : Option String) (q : Query) (havingPath wherePath : Path)
    (p : TableParts) : Prop where
  scope : ctx.IsScope (table?, q.token) p.scope
  token : p.token = q.token
  groups : List.Forall₂ (fun item f => (ctx.groupItem p.scope item).Gives f) q.clauses.groups
    p.lists.groups
  havings : List.Forall₂ (fun x f => (ctx.havingItem p.scope havingPath x.1 x.2).Gives f)
    q.clauses.havings.zipIdx p.lists.havings
  orders : List.Forall₂ (fun item f => (ctx.orderItem p.scope item).Gives f) q.clauses.orders
    p.lists.orders
  conditions : (ctx.groupTerms p.scope wherePath q.conditions).Gives p.terms

/-- What a join adds to a statement is resolved from the join alone: its keys between the table that
it is joined to and the joined one, and its `ON` conditions apart from the other conditions of the
joined query. -/
structure JoinResolves (j : PlacedJoin) (p : JoinParts) : Prop where
  table : ctx.TableResolves j.join.query.table j.join.query (j.path.childAt "gh" j.index)
    (j.path.childAt "fl" j.index) p.toTableParts
  columns : ctx.AskedColumns j.join.query p.toTableParts
  parent : ctx.IsScope j.parent p.parent
  keys : ctx.KeySides p.parent p.scope j.join.keys p.keys
  extra : (ctx.groupTerms p.scope (j.path.childAt "ofl" j.index) j.join.on).Gives p.extra

/-- What a join adds, whatever part of its lists is collected. -/
structure JoinAttaches (extent : Extent) (j : PlacedJoin) (p : JoinParts) : Prop where
  scope : ctx.IsScope (j.join.query.table, j.join.query.token) p.scope
  token : p.token = j.join.query.token
  parent : ctx.IsScope j.parent p.parent
  keys : ctx.KeySides p.parent p.scope j.join.keys p.keys
  lists : (ctx.collect p.scope j.join.query.clauses (j.path.childAt "gh" j.index)
    (ctx.joinedColumns p.scope j.join.query.clauses) extent).Gives p.lists
  extra : (ctx.groupTerms p.scope (j.path.childAt "ofl" j.index) j.join.on).Gives p.extra
  conditions : (ctx.groupTerms p.scope (j.path.childAt "fl" j.index)
    j.join.query.conditions).Gives p.terms

variable {ctx}

/-- A list is resolved entry by entry. -/
theorem mapM_gives {α β : Type} {f : α → Resolve β} {xs : List α} {ys : List β} {t : Trace}
    (h : (xs.mapM f).Yields ys t) : List.Forall₂ (fun x y => (f x).Gives y) xs ys := by
  induction xs generalizing ys t with
  | nil =>
    obtain ⟨rfl, -⟩ := mapM_nil_yields.mp h
    exact .nil
  | cons x xs ih =>
    obtain ⟨y, t₁, ys, t₂, hy, hys, rfl, -⟩ := mapM_cons_yields.mp h
    exact .cons ⟨t₁, hy⟩ (ih hys)

/-- The columns that a query names are resolved one by one, those left out apart. -/
theorem explicitColumns_gives {scope : Scope} {clauses : Clauses} {fs : List Fragment} {t : Trace}
    (h : (ctx.explicitColumns scope clauses).Yields fs t) :
    List.Forall₂ (fun item f => (ctx.selectItem scope item).Gives f)
      (clauses.kept scope.table) fs := by
  unfold explicitColumns at h
  unfold Clauses.kept
  split at h
  case isTrue hnothing =>
    obtain ⟨rfl, -⟩ := pure_yields.mp h
    rw [if_pos hnothing]
    exact .nil
  case isFalse hnothing =>
    rw [if_neg hnothing]
    exact mapM_gives h

/-- So are the columns of a joined query. -/
theorem joinedColumns_gives {scope : Scope} {clauses : Clauses} {fs : List Fragment} {t : Trace}
    (h : (ctx.joinedColumns scope clauses).Yields fs t) :
    List.Forall₂ (fun item f => (ctx.selectItem scope item).Gives f)
      (clauses.kept scope.table) fs := by
  unfold joinedColumns at h
  split at h
  case isTrue hempty =>
    obtain ⟨rfl, -⟩ := pure_yields.mp h
    rw [kept_of_columns_nil (List.isEmpty_iff.mp hempty)]
    exact .nil
  case isFalse => exact explicitColumns_gives h

/-- Clauses are resolved entry by entry. -/
theorem collect_gives {scope : Scope} {clauses : Clauses} {path : Path}
    {columns : Resolve (List Fragment)} {lists : Collected} {t : Trace}
    (h : (ctx.collect scope clauses path columns .everything).Yields lists t) :
    (∃ u, columns.Yields lists.columns u) ∧
      List.Forall₂ (fun item f => (ctx.groupItem scope item).Gives f) clauses.groups
        lists.groups ∧
      List.Forall₂ (fun x f => (ctx.havingItem scope path x.1 x.2).Gives f)
        clauses.havings.zipIdx lists.havings ∧
      List.Forall₂ (fun item f => (ctx.orderItem scope item).Gives f) clauses.orders
        lists.orders := by
  simp only [collect, bind_yields, pure_yields] at h
  obtain ⟨_, t₁, _, hcolumns, ⟨_, _, _, hgroups, ⟨_, _, _, hhavings, ⟨_, _, _, horders,
    ⟨rfl, -⟩, -⟩, -⟩, -⟩, -⟩ := h
  exact ⟨⟨t₁, hcolumns⟩, mapM_gives hgroups, mapM_gives hhavings, mapM_gives horders⟩

/-- A join that adds all it has is resolved from itself alone. -/
theorem JoinAttaches.resolves {j : PlacedJoin} {p : JoinParts}
    (h : ctx.JoinAttaches .everything j p) : ctx.JoinResolves j p := by
  obtain ⟨t, hlists⟩ := h.lists
  obtain ⟨⟨u, hcolumns⟩, hgroups, hhavings, horders⟩ := collect_gives hlists
  exact ⟨⟨h.scope, h.token, hgroups, hhavings, horders, h.conditions⟩,
    joinedColumns_gives hcolumns, h.parent, h.keys, h.extra⟩

/-- The keys of a join are its pairs of sides, each put together with an equality sign. -/
theorem joinKeys_gives {parent joined : Scope} {keys : JoinKeys} {f : Fragment} {t : Trace}
    (h : (ctx.joinKeys parent joined keys).Yields f t) :
    ∃ sides, ctx.KeySides parent joined keys sides ∧
      f = Fragment.join " AND " (sides.map fun k => k.1 ++ .text " = " :: k.2) := by
  cases keys with
  | single left right =>
    obtain ⟨rfl, -⟩ := pure_yields.mp h
    exact ⟨_, rfl, (List.append_nil _).symm⟩
  | composite pairs =>
    simp only [joinKeys] at h
    split at h
    case isTrue => exact absurd h fail_yields
    case isFalse hne =>
      simp only [bind_yields, pure_yields] at h
      obtain ⟨parts, _, _, hparts, ⟨rfl, -⟩, -⟩ := h
      -- Each pair gives a left and a right side; the text of a pair is told from these two.
      have hsides : ∃ sides : List (Fragment × Fragment), List.Forall₂ (fun pair side =>
          (ctx.expression parent pair.1).Gives side.1 ∧
            (ctx.expression joined pair.2).Gives side.2) pairs sides ∧
          parts = sides.map fun k => k.1 ++ .text " = " :: k.2 := by
        have hgives := mapM_gives hparts
        clear hparts hne
        induction hgives with
        | nil => exact ⟨[], .nil, rfl⟩
        | cons hpair _ ih =>
          obtain ⟨sides, hsides, rfl⟩ := ih
          obtain ⟨_, hpair⟩ := hpair
          simp only [keyPair, bind_yields, pure_yields] at hpair
          obtain ⟨left, t₁, _, hleft, ⟨right, t₂, _, hright, ⟨rfl, -⟩, -⟩, -⟩ := hpair
          exact ⟨(left, right) :: sides, .cons ⟨⟨t₁, hleft⟩, ⟨t₂, hright⟩⟩ hsides, rfl⟩
      obtain ⟨sides, hsides, rfl⟩ := hsides
      exact ⟨sides, ⟨by simpa using hne, hsides⟩, rfl⟩

/-- A join adds its text, its lists and its conditions. -/
theorem attach_eq (ctx : Context) (p : JoinParts) :
    ctx.attach p.scope.name p.token
        (Fragment.join " AND " (p.keys.map fun k => k.1 ++ .text " = " :: k.2)) p.lists p.extra
        p.terms = JoinParts.joined ctx.root [p] := by
  have hcollected : TableParts.collected [p.toTableParts] = p.lists := by
    simp only [TableParts.collected, List.flatMap_singleton]
  rw [JoinParts.joined, List.flatMap_singleton, List.map_singleton, hcollected]
  unfold attach TableParts.conditions
  rw [appendOn_eq, List.map_singleton, List.filter_singleton]
  cases Term.whereText p.terms <;> rfl

/-- What the joins of a table add is put together from what each join adds, in the order of the
row. -/
theorem joined_attaches : ∀ (joins : List Join) {parent : Scope} {table : Option String × Token}
    {path : Path} {extent : Extent} {l : Nat} {added : Joined} {t : Trace},
    ctx.IsScope table parent → (ctx.joined parent path extent l joins).Yields added t →
    ∃ parts : List JoinParts,
      List.Forall₂ (ctx.JoinAttaches extent) (placedJoins table path l joins) parts ∧
      added = JoinParts.joined ctx.root parts
  | [], _, _, _, _, _, _, _, _, h => by
    obtain ⟨rfl, -⟩ := pure_yields.mp h
    rw [placedJoins]
    exact ⟨[], .nil, rfl⟩
  | ⟨keys, ⟨own, token, clauses, conditions, joins, unions⟩, on⟩ :: rest, parent, table, path,
    extent, l, _, _, hparent, h => by
    obtain ⟨name, d, keyText, t₁, lists, t₂, extra, t₃, terms, t₄, inner, t₅, others, t₆, rfl, hd,
      hkeys, hlists, hextra, hterms, hinner, hothers, rfl, -⟩ := joined_cons_yields h
    obtain ⟨sides, hsides, rfl⟩ := joinKeys_gives hkeys
    have hscope : ctx.IsScope (some name, token) ⟨name, some token, d⟩ := ⟨rfl, rfl, hd⟩
    obtain ⟨innerParts, hinnerParts, rfl⟩ := joined_attaches joins hscope hinner
    obtain ⟨otherParts, hotherParts, rfl⟩ := joined_attaches rest hparent hothers
    let parts : JoinParts := ⟨⟨⟨name, some token, d⟩, token, lists, terms⟩, parent, sides, extra⟩
    have hattaches : ctx.JoinAttaches extent ⟨table, path, l,
        ⟨keys, ⟨some name, token, clauses, conditions, joins, unions⟩, on⟩⟩ parts :=
      ⟨hscope, rfl, hparent, hsides, ⟨t₂, hlists⟩, ⟨t₃, hextra⟩, ⟨t₄, hterms⟩⟩
    refine ⟨parts :: (innerParts ++ otherParts), ?_, ?_⟩
    · rw [placedJoins, Query.innerJoins]
      exact .cons hattaches (List.rel_append hinnerParts hotherParts)
    · have hattach := ctx.attach_eq parts
      rw [hattach, ← JoinParts.joined_append, ← JoinParts.joined_append, List.append_assoc]
      rfl

/-- Where everything is collected, each join resolves to what it adds. -/
theorem joined_resolves {joins : List Join} {parent : Scope} {table : Option String × Token}
    {path : Path} {l : Nat} {added : Joined} {t : Trace} (hparent : ctx.IsScope table parent)
    (h : (ctx.joined parent path .everything l joins).Yields added t) :
    ∃ parts : List JoinParts,
      List.Forall₂ ctx.JoinResolves (placedJoins table path l joins) parts ∧
      added = JoinParts.joined ctx.root parts := by
  obtain ⟨parts, hattaches, hadded⟩ := joined_attaches joins hparent h
  exact ⟨parts, hattaches.imp fun _ _ => JoinAttaches.resolves, hadded⟩

/-- Empty conditions may be left out before conditions are combined. -/
theorem combineWhere_filter (root : String) (f : Fragment) (fs : List Fragment) :
    combineWhere root (f :: fs.filter (!·.isEmpty)) =
      combineWhere root ((f :: fs).filter (!·.isEmpty)) := by
  have hfilter : (f :: fs.filter (!·.isEmpty)).filter (!·.isEmpty) =
      ((f :: fs).filter (!·.isEmpty)).filter (!·.isEmpty) := by
    rw [List.filter_filter, List.filter_cons, List.filter_cons, List.filter_filter]
    simp only [Bool.and_self]
  unfold combineWhere
  rw [hfilter]

/-- A `SELECT` is put together from its first table and the joins behind it. -/
theorem assemble_eq (first : TableParts) (joins : List JoinParts) :
    ctx.assemble first.scope.name first.token first.lists (JoinParts.joined ctx.root joins)
      first.terms = .ofTables ctx.root first joins := by
  have hconditions := combineWhere_filter ctx.root (Term.whereText first.terms)
    ((joins.map JoinParts.toTableParts).map fun p : TableParts => Term.whereText p.terms)
  exact congrArg (SelectParts.mk _ _) hconditions

/-- A `SELECT` is put together from what its table adds and what its joins add, in the order of the
row. -/
theorem selectParts_resolves {q : Query} {table : String} {path : Path} {parts : SelectParts}
    {t : Trace} (h : (ctx.selectParts table path .everything q).Yields parts t) :
    ∃ (first : TableParts) (joins : List JoinParts),
      ctx.TableResolves (some table) q (path.child "gh") (path.child "tl") first ∧
      ctx.ShownColumns q first ∧
      List.Forall₂ ctx.JoinResolves (q.placedJoins table path) joins ∧
      parts = .ofTables ctx.root first joins := by
  obtain ⟨own, token, clauses, conditions, joins, unions⟩ := q
  obtain ⟨d, lists, t₁, added, t₂, terms, t₃, hd, hlists, hadded, hterms, rfl, -⟩ :=
    selectParts_yields h
  obtain ⟨⟨u, hcolumns⟩, hgroups, hhavings, horders⟩ := collect_gives hlists
  have hscope : ctx.IsScope (some table, token) ⟨table, some token, d⟩ := ⟨rfl, rfl, hd⟩
  obtain ⟨joinParts, hjoins, rfl⟩ := joined_resolves hscope hadded
  let first : TableParts := ⟨⟨table, some token, d⟩, token, lists, terms⟩
  have hshown : ctx.ShownColumns ⟨own, token, clauses, conditions, joins, unions⟩ first := by
    unfold shownColumns at hcolumns
    unfold ShownColumns
    split at hcolumns
    case isTrue hall =>
      obtain ⟨hcolumns, -⟩ := pure_yields.mp hcolumns
      rw [if_pos hall]
      exact hcolumns
    case isFalse hall =>
      rw [if_neg hall]
      exact explicitColumns_gives hcolumns
  refine ⟨first, joinParts, ⟨hscope, rfl, hgroups, hhavings, horders, ⟨t₃, hterms⟩⟩, hshown,
    hjoins, ?_⟩
  exact assemble_eq first joinParts

/-- The markers of a group stand at the places of its conditions. -/
theorem groupTerms_slots {scope : Scope} {path : Path} {g : ConditionGroup} {terms : List Term}
    (h : (ctx.groupTerms scope path g).Gives terms) :
    (Term.leaves terms).slots = Landmark.slots (g.landmarks path) := by
  obtain ⟨t, h⟩ := h
  rw [Fragment.slots_eq_marks, (groupTerms_shows g h).marks_eq, Landmark.slots_eq_marks]

/-- The conditions of a query have the markers of its own values behind `WHERE`. -/
theorem TableResolves.slots {table? : Option String} {q : Query} {havingPath wherePath : Path}
    {p : TableParts} (h : ctx.TableResolves table? q havingPath wherePath p) :
    (Term.whereText p.terms).slots = Landmark.slots (q.conditions.landmarks wherePath) := by
  rw [Fragment.slots_eq_marks, Fragment.marks, filterMap_whereText mark?_reading,
    ← groupTerms_slots h.conditions, Fragment.slots_eq_marks]
  rfl

/-- The keys of a join bind no value. -/
theorem KeySides.marks {parent joined : Scope} {keys : JoinKeys}
    {sides : List (Fragment × Fragment)} (h : ctx.KeySides parent joined keys sides) :
    ∀ k ∈ sides, k.1.marks = [] ∧ k.2.marks = [] := by
  cases keys with
  | single left right =>
    obtain rfl := h
    exact List.forall_mem_singleton.mpr
      ⟨Fragment.marks_qualified _ _, Fragment.marks_qualified _ _⟩
  | composite pairs =>
    obtain ⟨-, hsides⟩ := h
    induction hsides with
    | nil => exact List.forall_mem_nil _
    | cons hpair _ ih =>
      obtain ⟨⟨_, hleft⟩, ⟨_, hright⟩⟩ := hpair
      exact List.forall_mem_cons.mpr
        ⟨⟨(expression_bare hleft).marks, (expression_bare hright).marks⟩, ih⟩

/-- Behind `ON`, a join has the markers of its `ON` conditions and no others. -/
theorem JoinResolves.slots {j : PlacedJoin} {p : JoinParts} (h : ctx.JoinResolves j p)
    (root : String) : (p.on root).slots = j.onSlots := by
  have hkeys : Fragment.marks (Fragment.join " AND "
      (p.keys.map fun k => k.1 ++ .text " = " :: k.2)) = [] := by
    rw [Fragment.marks_join, List.flatMap_map, List.flatMap_eq_nil_iff]
    intro k hk
    obtain ⟨hleft, hright⟩ := h.keys.marks k hk
    rw [Fragment.marks_append, Fragment.marks_text_cons, hleft, hright]
    rfl
  have hon : (p.on root).marks = (Term.leaves p.extra).marks := by
    rw [JoinParts.on, ← appendOn_eq, Fragment.marks, filterMap_appendOn mark?_reading,
      filterMap_onText mark?_reading]
    exact congrArg (· ++ _) hkeys
  rw [Fragment.slots_eq_marks, hon, ← Fragment.slots_eq_marks, groupTerms_slots h.extra]
  rfl

/-- The places of the values of a query are used once, so those behind `ON` are not those behind
`WHERE`. -/
theorem placedJoins_disjoint (q : Query) (table : String) (path : Path) :
    List.Disjoint ((q.placedJoins table path).flatMap PlacedJoin.onSlots)
      (Landmark.slots (q.conditions.landmarks (path.child "tl")) ++
        (q.placedJoins table path).flatMap PlacedJoin.whereSlots) := by
  obtain ⟨own, token, clauses, conditions, joins, unions⟩ := q
  have hnodup := (Query.landmarks_fresh ⟨own, token, clauses, conditions, joins, unions⟩
    path).nodup.of_map
  obtain ⟨hon, hwhere⟩ :=
    joinLandmarks_slots true joins (some table, token) (path.child "cl") 0
  rw [Query.placedJoins, ← hon, ← hwhere]
  simp only [Query.landmarks, List.cons_append] at hnodup
  change (Landmark.slots (_ ++ _ ++ _ ++ _ ++ _)).Nodup at hnodup
  simp only [Landmark.slots_append] at hnodup
  rw [List.append_assoc, List.append_assoc (Landmark.slots _)] at hnodup
  exact List.disjoint_of_nodup_append (hnodup.sublist (List.sublist_append_left _ _))

/-- The markers of joins stand at the places of their conditions, in `ON` and behind `WHERE`. -/
theorem slots_of_forall₂ {placed : List PlacedJoin} {joins : List JoinParts} (root : String)
    (h : List.Forall₂ ctx.JoinResolves placed joins) :
    (joins.flatMap fun p => (p.on root).slots) = placed.flatMap PlacedJoin.onSlots ∧
      (joins.flatMap fun p => (Term.whereText p.terms).slots) =
        placed.flatMap PlacedJoin.whereSlots := by
  induction h with
  | nil => exact ⟨rfl, rfl⟩
  | cons hjoin _ ih =>
    rw [List.flatMap_cons, List.flatMap_cons, List.flatMap_cons, List.flatMap_cons,
      hjoin.slots root, hjoin.table.slots, ih.1, ih.2]
    exact ⟨rfl, rfl⟩

/-- No marker of a `SELECT` stands both behind `ON` and behind `WHERE`. -/
theorem TableResolves.disjoint {q : Query} {table : String} {path : Path} {root : String}
    {first : TableParts} {joins : List JoinParts}
    (hfirst : ctx.TableResolves (some table) q (path.child "gh") (path.child "tl") first)
    (hjoins : List.Forall₂ ctx.JoinResolves (q.placedJoins table path) joins) :
    List.Disjoint (joins.flatMap fun p => (p.on root).slots)
      ((first :: joins.map JoinParts.toTableParts).flatMap fun p =>
        (Term.whereText p.terms).slots) := by
  have hslots := slots_of_forall₂ root hjoins
  rw [List.flatMap_cons, List.flatMap_map, hslots.1, hslots.2, hfirst.slots]
  exact placedJoins_disjoint q table path

end Context

end DynamicSql

import DynamicSql.Proofs.Resolve.Joins
import DynamicSql.Proofs.Statement.Paging
import DynamicSql.Proofs.Statement.Success

/-!
# The text of joins in a row

The statement of a query without unions is written down table by table. Its joins stand in a row
behind `FROM`, each with the keys between its own table and the one that it is joined to, and with
its own `ON` conditions. All other clauses list what the table of the query adds, and then what the
joined tables add, in the order of the row (`select_flattens_joins`). What belongs behind `WHERE`
never comes to stand behind `ON`, and the other way around.
-/

namespace DynamicSql

/-- A clause with a heading, left out where it has no entries. -/
def clauseText (heading separator : String) (entries : List String) : String :=
  if entries.isEmpty then "" else heading ++ separator.intercalate entries

/-- Conditions that all have to hold: several of them are in parentheses where they have an outer
`OR`, and a single one stands as it is. -/
def guarded (root : String) (conditions : List Fragment) : List Fragment :=
  if conditions.length ≤ 1 then conditions else conditions.map (guardOr root)

/-- The text of a join. -/
def JoinParts.text (root : String) (aliases : Aliases) (p : JoinParts) : String :=
  " LEFT JOIN " ++ p.scope.name ++ " " ++ aliases.text p.token ++ " ON (" ++
    " AND ".intercalate
      (p.keys.map fun k => k.1.render root aliases ++ " = " ++ k.2.render root aliases) ++
    (onTail root p.extra).render root aliases ++ ")"

/-- The text of a `SELECT` over a table with joins in a row. -/
def flatText (root : String) (aliases : Aliases) (first : TableParts) (joins : List JoinParts) :
    String :=
  let tables := first :: joins.map JoinParts.toTableParts
  let lists := TableParts.collected tables
  let texts := List.map (Fragment.render root aliases)
  "SELECT " ++ ", ".intercalate (texts lists.columns) ++ " FROM " ++ first.scope.name ++ " " ++
    aliases.text first.token ++ String.join (joins.map (JoinParts.text root aliases)) ++
    clauseText " WHERE " " AND " (texts (guarded root (TableParts.conditions tables))) ++
    clauseText " GROUP BY " ", " (texts lists.groups) ++
    clauseText " HAVING " " AND " (texts lists.havings) ++
    clauseText " ORDER BY " ", " (texts lists.orders)

section Texts

variable {root : String} {aliases : Aliases}

/-- Fragments with a text between neighbours are texts with this text between neighbours. -/
theorem render_join (separator : String) (fs : List Fragment) :
    (Fragment.join separator fs).render root aliases =
      separator.intercalate (fs.map (Fragment.render root aliases)) := by
  induction fs with
  | nil => rfl
  | cons f fs ih =>
    cases fs with
    | nil =>
      rw [Fragment.join_cons, List.flatMap_nil, List.append_nil]
      rfl
    | cons g fs =>
      rw [Fragment.join_cons] at ih
      rw [Fragment.join_cons, List.flatMap_cons, Fragment.render_append, List.cons_append,
        Fragment.render_text_cons, ih, List.map_cons, List.map_cons, List.map_cons,
        String.intercalate_cons_cons, String.append_assoc]

/-- A clause is written with its heading in front of its entries, or not at all. -/
theorem render_clause (heading separator : String) (entries : List Fragment) :
    (SelectParts.clause heading separator entries).render root aliases =
      clauseText heading separator (entries.map (Fragment.render root aliases)) := by
  unfold SelectParts.clause clauseText
  rw [List.isEmpty_map]
  split
  · rfl
  · rw [Fragment.render_text_cons, render_join]

/-- Conditions that say something are combined by `AND`. -/
theorem combineWhere_eq_join {conditions : List Fragment} (h : ∀ f ∈ conditions, f ≠ []) :
    combineWhere root conditions = Fragment.join " AND " (guarded root conditions) := by
  cases conditions with
  | nil => rfl
  | cons f fs =>
    obtain ⟨hf, hfs⟩ := List.forall_mem_cons.mp h
    rw [combineWhere_cons hf hfs]
    cases fs with
    | nil => exact (List.append_nil f).symm
    | cons g fs =>
      have hseveral : ¬(f :: g :: fs).length ≤ 1 := by simp
      rw [if_neg (List.cons_ne_nil g fs), guarded, if_neg hseveral, List.map_cons,
        Fragment.join_cons, List.flatMap_map]

/-- Texts that are not empty are combined to one that is not empty. -/
theorem combineWhere_ne_nil {f : Fragment} {fs : List Fragment} (h : ∀ g ∈ f :: fs, g ≠ []) :
    combineWhere root (f :: fs) ≠ [] := by
  obtain ⟨hf, hfs⟩ := List.forall_mem_cons.mp h
  have hguarded : guardOr root f ≠ [] := by
    unfold guardOr
    split
    · exact List.cons_ne_nil _ _
    · exact hf
  rw [combineWhere_cons hf hfs]
  split
  · exact hf
  · exact List.append_ne_nil_of_left_ne_nil hguarded _

/-- Tables without conditions add no empty texts. -/
theorem TableParts.conditions_ne_nil (tables : List TableParts) :
    ∀ f ∈ TableParts.conditions tables, f ≠ [] := by
  intro f hf
  have hsays := (List.mem_filter.mp hf).2
  simpa using hsays

/-- The condition of tables is their conditions behind `WHERE`, if there are some. -/
theorem render_where (tables : List TableParts) :
    Fragment.render root aliases
        (if (combineWhere root (TableParts.conditions tables)).isEmpty then []
        else .text " WHERE " :: combineWhere root (TableParts.conditions tables)) =
      clauseText " WHERE " " AND "
        ((guarded root (TableParts.conditions tables)).map (Fragment.render root aliases)) := by
  have hsays := TableParts.conditions_ne_nil tables
  have hjoin : combineWhere root (TableParts.conditions tables) =
      Fragment.join " AND " (guarded root (TableParts.conditions tables)) :=
    combineWhere_eq_join hsays
  generalize TableParts.conditions tables = conditions at hsays hjoin ⊢
  cases conditions with
  | nil => rfl
  | cons f fs =>
    have hne : ¬(combineWhere root (f :: fs)).isEmpty = true := by
      rw [List.isEmpty_iff]
      exact combineWhere_ne_nil hsays
    have hguarded :
        ¬((guarded root (f :: fs)).map (Fragment.render root aliases)).isEmpty = true := by
      rw [List.isEmpty_map, List.isEmpty_iff]
      unfold guarded
      split <;> simp
    rw [if_neg hne, clauseText, if_neg hguarded, Fragment.render_text_cons, hjoin, render_join]

/-- What a join adds behind `FROM` is written as its own text. -/
theorem JoinParts.render_source (p : JoinParts) :
    (p.source root).render root aliases = p.text root aliases := by
  have hkeys : (p.keys.map fun k => k.1 ++ Piece.text " = " :: k.2).map
      (Fragment.render root aliases) =
      p.keys.map fun k => k.1.render root aliases ++ " = " ++ k.2.render root aliases := by
    rw [List.map_map]
    refine List.map_congr_left fun k _ => ?_
    rw [Function.comp_apply, Fragment.render_append, Fragment.render_text_cons,
      String.append_assoc]
  have hopening : ∀ rest, " ON (" ++ rest = " ON " ++ ("(" ++ rest) := fun rest => by
    rw [← String.append_assoc]
    rfl
  unfold source on text
  simp only [Fragment.render_text_cons, Fragment.render_table_cons, Fragment.render_parens,
    Fragment.render_append, render_join, hkeys, String.append_assoc, hopening]

/-- A `SELECT` over a table with joins in a row has their text. -/
theorem render_ofTables (first : TableParts) (joins : List JoinParts) :
    (SelectParts.ofTables root first joins).select.render root aliases =
      flatText root aliases first joins := by
  have hsource : Fragment.render root aliases (joins.flatMap (JoinParts.source root)) =
      String.join (joins.map (JoinParts.text root aliases)) := by
    rw [Fragment.render_flatMap]
    exact congrArg String.join (List.map_congr_left fun p _ => p.render_source)
  unfold SelectParts.ofTables SelectParts.select SelectParts.body flatText
  simp only [List.cons_append, Fragment.render_append, Fragment.render_text_cons,
    Fragment.render_table_cons, hsource, render_where, render_join, render_clause,
    String.append_assoc]

end Texts

namespace Compiler

variable {c : Compiler} {q : Query} {table : String}

/-- Without branches, the draft of a query is its single `SELECT` in front of its limit. -/
theorem selectDraft_of_unions_nil {draft : Draft} (h : c.selectDraft q table = .ok draft)
    (hunions : q.unions = []) :
    ∃ parts, ((c.contextOf q table).selectParts table (.ofRoot 0) .everything q).Yields parts
        draft.2 ∧
      draft.1 = parts.select ++ [.text (Dialect.limitClause q.clauses.limit)] := by
  obtain ⟨ctx, f, hctx, hf, hdraft⟩ := selectDraft_eq_ok h
  obtain ⟨-, rfl⟩ := queryContext_eq_ok.mp hctx
  rw [Context.compoundSelect_of_unions_nil hunions] at hf
  simp only [Resolve.bind_yields, Resolve.pure_yields] at hf
  obtain ⟨parts, t, _, hparts, ⟨rfl, rfl⟩, htrace⟩ := hf
  obtain ⟨hparts, -⟩ := Context.shownParts_yields hparts
  rw [Trace.append_empty] at htrace
  exact ⟨parts, htrace ▸ hparts, hdraft⟩

/-- The joins of a query without unions stand in a row behind `FROM`, each in front of the joins
inside it. What the query and its joins add is resolved from each of them alone: the keys of a join
between the table that it is joined to and its own, and its `ON` conditions apart from its other
conditions. The statement lists what they add in the order of the row, clause by clause, and no
marker stands both behind `ON` and behind `WHERE`. -/
theorem select_flattens_joins (c : Compiler) (q : Query) (table : String) (s : Statement)
    (h : c.select q table = .ok s) (hunions : q.unions = []) :
    (q.placedJoins table (.ofRoot 0)).map (·.join) = q.allJoins ∧
    ∃ (draft : Draft) (first : TableParts) (joins : List JoinParts),
      c.selectDraft q table = .ok draft ∧
      (c.contextOf q table).TableResolves (some table) q ((Path.ofRoot 0).child "gh")
        ((Path.ofRoot 0).child "tl") first ∧
      (c.contextOf q table).ShownColumns q first ∧
      List.Forall₂ (c.contextOf q table).JoinResolves (q.placedJoins table (.ofRoot 0)) joins ∧
      s.sql = flatText c.root (.ofMentions draft.2.mentioned) first joins ++
        Dialect.limitClause q.clauses.limit ∧
      List.Disjoint (joins.flatMap fun p => (p.on c.root).slots)
        ((first :: joins.map JoinParts.toTableParts).flatMap fun p =>
          (Term.whereText p.terms).slots) := by
  refine ⟨q.map_join_placedJoins table _, ?_⟩
  obtain ⟨draft, hdraft, hs⟩ := except_bind_eq_ok.mp h
  obtain rfl := Except.ok.inj hs
  obtain ⟨parts, hparts, hlimit⟩ := selectDraft_of_unions_nil hdraft hunions
  obtain ⟨first, joins, hfirst, hshown, hjoins, rfl⟩ := Context.selectParts_resolves hparts
  refine ⟨draft, first, joins, hdraft, hfirst, hshown, hjoins, ?_, hfirst.disjoint hjoins⟩
  have hroot : (c.contextOf q table).root = c.root := rfl
  unfold finish render
  rw [hlimit, hroot, Fragment.render_append, render_ofTables, Fragment.render_text_cons,
    Fragment.render_nil, String.append_empty]

/-- Customers with their orders and the buyers of these. The orders are joined on one condition, and
another one is demanded of them. -/
def customersInRow : Query :=
  let buyers := Join.composite [("buyer", "id")] (Query.new "e" (some "customer"))
  let orders := (HasConditions.isNotNull "buyer" (Query.new "o" (some "orders"))).leftJoin buyers
  ((Query.new "c" (some "customer")).select "name").leftJoin
    (HasConditions.isNull "total" (.new "id" "customer_id" orders))

/-- The buyers are joined behind the orders that they belong to. -/
theorem customersInRow_flattens :
    (customersInRow.placedJoins "customer" (.ofRoot 0)).map
        (fun j => (j.parent.2, j.join.query.token)) = [("c", "o"), ("o", "e")] ∧
      (shop.select customersInRow "customer").toOption.map (·.sql) = some
        ("SELECT t0.name FROM customer t0 " ++
          "LEFT JOIN orders t1 ON (t0.id = t1.customer_id AND t1.total is null) " ++
          "LEFT JOIN customer t2 ON (t1.customer_id = t2.id) " ++
          "WHERE t1.customer_id is not null") ∧
      ∃ s draft first joins, shop.select customersInRow "customer" = .ok s ∧
        shop.selectDraft customersInRow "customer" = .ok draft ∧ joins.length = 2 ∧
        s.sql = flatText shop.root (.ofMentions draft.2.mentioned) first joins := by
  refine ⟨by decide +kernel, by decide +kernel, ?_⟩
  obtain ⟨s, hs⟩ : ∃ s, shop.select customersInRow "customer" = .ok s :=
    except_exists_ok (by decide +kernel)
  obtain ⟨-, draft, first, joins, hdraft, -, -, hjoins, hsql, -⟩ :=
    select_flattens_joins shop customersInRow "customer" s hs rfl
  have hlimit : Dialect.limitClause customersInRow.clauses.limit = "" := by decide +kernel
  have hlength : (customersInRow.placedJoins "customer" (.ofRoot 0)).length = 2 := by
    decide +kernel
  rw [hlimit, String.append_empty] at hsql
  exact ⟨s, draft, first, joins, hs, hdraft, hjoins.length_eq.symm.trans hlength, hsql⟩

end Compiler

end DynamicSql

import DynamicSql.Proofs.Resolve.Renaming
import DynamicSql.Proofs.Schema.Names
import DynamicSql.Proofs.Statement.On

/-!
# Columns that are left out

A query can leave names out of what it shows. A column that it asks for is left out by the name it
is asked for by, by the name it is given, and by its column; a column of its table that it does not
ask for, by its field and its column (`Clauses.mem_kept`, `Clauses.mem_keptOf`). The two rules agree
on columns that are asked for by their field. The field of a column that is asked for by another
name does not count.

Every list behind `SELECT` has one entry for each column that is kept, and no others
(`removed_columns_hidden`).
-/

namespace DynamicSql

namespace Clauses

variable {clauses : Clauses} {d : Table}

/-- A column that is asked for is left out by three names. -/
theorem mem_kept {item : SelectItem} {column : String}
    (hcolumn : d.resolve? item.field = some column) : item ∈ clauses.kept d ↔
      item ∈ clauses.columns ∧ clauses.showsNothing = false ∧
        (∀ name ∈ item.alias?, name ∉ clauses.removed) ∧ item.field ∉ clauses.removed ∧
          column ∉ clauses.removed := by
  have hremoved : Context.isRemoved clauses.removed ⟨"", none, d⟩ item = false ↔
      (∀ name ∈ item.alias?, name ∉ clauses.removed) ∧ item.field ∉ clauses.removed ∧
        column ∉ clauses.removed := by
    unfold Context.isRemoved
    unfold Table.resolve? at hcolumn
    cases hfield : d.columnOf? item.field with
    | some found =>
      rw [hfield] at hcolumn
      obtain rfl := Option.some.inj hcolumn
      cases item.alias? <;> simp [and_assoc]
    | none =>
      -- A name that is no field is the column itself.
      rw [hfield] at hcolumn
      obtain ⟨-, heq⟩ := Option.ite_none_right_eq_some.mp hcolumn
      obtain rfl := Option.some.inj heq
      cases item.alias? <;> simp
  unfold kept
  cases clauses.showsNothing with
  | true => simp
  | false =>
    rw [if_neg Bool.false_ne_true, List.mem_filter, Bool.not_eq_true', hremoved]
    simp only [true_and]

/-- A column that is not asked for is left out by two names. -/
theorem mem_keptOf {p : Column} : p ∈ clauses.keptOf d ↔
    p ∈ d.columns ∧ p.field ∉ clauses.removed ∧ p.column ∉ clauses.removed := by
  simp [keptOf]

/-- A column that is asked for by its field is left out as it would be if it were not asked for. -/
theorem mem_kept_iff_mem_keptOf {field column : String} (hcolumn : d.columnOf? field = some column)
    (hasked : ⟨field, .plain, none⟩ ∈ clauses.columns) (hshows : clauses.showsNothing = false) :
    (⟨field, .plain, none⟩ : SelectItem) ∈ clauses.kept d ↔ ⟨field, column⟩ ∈ clauses.keptOf d := by
  rw [mem_kept (Table.resolve?_of_columnOf? hcolumn), mem_keptOf]
  simp [hasked, hshows, Table.mem_of_columnOf? hcolumn]

end Clauses

/-- The queries that are shown with their unions where the rows of a query over a table are counted:
a query without unions is counted without its own list of columns. -/
def Query.countedCompounds (table : String) (q : Query) : List (String × Query) :=
  if q.unions.isEmpty then q.compounds else q.allCompounds table

/-- Where rows are counted, no other queries are shown than in the query itself. -/
theorem Query.countedCompounds_subset (q : Query) (table : String) :
    q.countedCompounds table ⊆ q.allCompounds table := by
  unfold countedCompounds
  split
  · exact List.subset_cons_of_subset _ (List.subset_append_left _ _)
  · exact List.Subset.refl _

namespace Context

open Resolve

variable {ctx : Context} {f g : Fragment} {t : Trace}

/-- The `SELECT` of a query over a table stands in a fragment with the columns that are kept: its
own ones, and those of the queries that are joined to it, which are resolved one by one. -/
structure ListsKept (ctx : Context) (x : String × Query) (f : Fragment) (own : TableParts)
    (joins : List TableParts) : Prop where
  scope : ctx.IsScope (some x.1, x.2.token) own.scope
  columns : ctx.ShownColumns x.2 own
  joined : List.Forall₂ (fun j p => ctx.IsScope (j.query.table, j.query.token) p.scope ∧
    ctx.AskedColumns j.query p) x.2.allJoins joins
  shown : .text "SELECT " ::
    Fragment.join ", " (own.lists.columns ++ joins.flatMap (·.lists.columns)) ++
      [.text " FROM ", .table x.1 x.2.token] <:+: f

/-- Every `SELECT` of the given queries stands in a fragment with the columns that are kept. -/
def KeepsLists (ctx : Context) (shown : List (String × Query)) (f : Fragment) : Prop :=
  ∀ y ∈ shown, ∀ x ∈ y.2.selects y.1, ∃ own joined, ctx.ListsKept x f own joined

/-- The `SELECT` of a query is made with the columns that are kept. -/
theorem selectParts_listsKept {q : Query} {table : String} {path : Path} {parts : SelectParts}
    (h : (ctx.selectParts table path .everything q).Yields parts t) :
    ∃ own joined, ctx.ListsKept (table, q) parts.select own joined := by
  obtain ⟨own, joins, htable, hcolumns, hjoins, rfl⟩ := selectParts_resolves h
  refine ⟨own, joins.map JoinParts.toTableParts, htable.scope, hcolumns, ?_, ?_⟩
  · rw [← q.map_join_placedJoins table path, List.forall₂_map_left_iff, List.forall₂_map_right_iff]
    exact hjoins.imp fun _ _ hj => ⟨hj.table.scope, hj.columns⟩
  · have hname : own.scope.name = table := (Option.some.inj htable.scope.name).symm
    refine List.IsPrefix.isInfix ?_
    rw [SelectParts.select, SelectParts.body, SelectParts.ofTables, TableParts.collected,
      List.flatMap_cons, hname, htable.token]
    simp [List.append_assoc]

/-- Where a query stands with its unions, so do the columns that its `SELECT`s keep. -/
theorem keepsLists_of_holds {shown : List (String × Query)}
    (h : ∀ y ∈ shown, ctx.Holds y f t) : ctx.KeepsLists shown f := by
  intro y hy x hx
  obtain ⟨parts, path, u, hparts, hselect⟩ := (h y hy).wholeSelects x hx
  obtain ⟨own, joined, hlists⟩ := selectParts_listsKept hparts
  exact ⟨own, joined, hlists.scope, hlists.columns, hlists.joined, hlists.shown.trans hselect⟩

end Context

namespace Compiler

open Context (KeepsLists keepsLists_of_holds)

variable {c : Compiler} {table : String} {draft : Draft} {q : Query}

/-- Every `SELECT` in the draft of a query stands with the columns that are kept. -/
theorem selectDraft_keepsLists (h : c.selectDraft q table = .ok draft) :
    (c.contextOf q table).KeepsLists (q.allCompounds table) draft.1 := by
  obtain ⟨ctx, f, hctx, hf, hdraft⟩ := selectDraft_eq_ok h
  obtain ⟨-, rfl⟩ := context_eq_ok hctx
  have hwhole : f <:+: draft.1 := hdraft ▸ (List.prefix_append f _).isInfix
  exact keepsLists_of_holds fun y hy => (Context.compoundSelect_holds hf y hy).1.within hwhole

/-- A query without unions is counted by what follows its columns, and so its own list is shown on
its pages only. -/
theorem pageDrafts_keepsLists {count base : Draft} (h : c.pageDrafts q table = .ok (count, base)) :
    (c.contextOf q table).KeepsLists (q.countedCompounds table) count.1 ∧
      (c.contextOf q table).KeepsLists (q.allCompounds table) base.1 := by
  obtain ⟨ctx, hctx, -, ⟨hunions, parts, hparts, hselect, hbody⟩ | ⟨hf, hrows⟩⟩ :=
    pageDrafts_eq_ok h
  all_goals obtain ⟨-, rfl⟩ := context_eq_ok hctx
  · obtain ⟨hparts, -⟩ := Context.shownParts_yields hparts
    have hbelow : ∀ y ∈ q.compounds, (c.contextOf q table).Holds y parts.body base.2 :=
      fun y hy => (Context.selectParts_holds q hparts y hy).1
    have hcounted : parts.body <:+: count.1 := infix_counted hbody
    have hpaged : parts.body <:+: base.1 := hselect ▸ Context.infix_body parts
    rw [Query.countedCompounds, hunions, List.isEmpty_nil, if_pos rfl, Query.allCompounds, hunions,
      branchCompounds, List.append_nil]
    refine ⟨keepsLists_of_holds fun y hy => (hbelow y hy).within hcounted,
      List.forall_mem_cons.mpr ⟨fun x hx => ?_,
        keepsLists_of_holds fun y hy => (hbelow y hy).within hpaged⟩⟩
    rw [Query.selects, hunions] at hx
    obtain rfl := List.mem_singleton.mp hx
    exact hselect ▸ Context.selectParts_listsKept hparts
  · have hholds := Context.compoundSelect_holds hf
    have hcounted : base.1 <:+: count.1 := hrows ▸ infix_countRows base.1
    refine ⟨keepsLists_of_holds fun y hy => ((hholds y ?_).1).within hcounted,
      keepsLists_of_holds fun y hy => (hholds y hy).1⟩
    exact q.countedCompounds_subset table hy

/-- So does every `SELECT` that is shown in the draft that counts it. -/
theorem validateDraft_keepsLists (h : c.validateDraft q table = .ok draft) :
    (c.contextOf q table).KeepsLists (q.countedCompounds table) draft.1 := by
  obtain ⟨ctx, hctx, ⟨hunions, parts, hparts, hdraft⟩ | ⟨f, hf, hdraft⟩⟩ := validateDraft_eq_ok h
  all_goals obtain ⟨-, rfl⟩ := context_eq_ok hctx
  · have hwhole : parts.body <:+: draft.1 := infix_counted (.inl hdraft)
    rw [Query.countedCompounds, hunions, List.isEmpty_nil, if_pos rfl]
    exact keepsLists_of_holds fun y hy =>
      (Context.selectParts_holds q hparts y hy).1.within hwhole
  · have hwhole : f <:+: draft.1 := hdraft ▸ infix_countRows f
    exact keepsLists_of_holds fun y hy =>
      (Context.compoundSelect_holds hf y (q.countedCompounds_subset table hy)).1.within hwhole

/-- So does every `SELECT` in the draft of an update. -/
theorem updateAt_keepsLists {u : Update} {n : Nat} (h : c.updateAt u table n = .ok draft) :
    (c.updateContext u table).KeepsLists u.compounds draft.1 := by
  obtain ⟨ctx, hctx, hupdate⟩ := updateAt_eq_ok h
  obtain ⟨-, rfl⟩ := context_eq_ok hctx
  exact keepsLists_of_holds fun y hy => (Context.update_holds hupdate y hy).1

/-- So does every `SELECT` in the draft of a deletion. -/
theorem deleteDraft_keepsLists {x : Delete} (h : c.deleteDraft x table = .ok draft) :
    (c.deleteContext x).KeepsLists x.conditions.compounds draft.1 := by
  obtain ⟨ctx, hctx, hdelete⟩ := deleteDraft_eq_ok h
  obtain ⟨-, rfl⟩ := context_eq_ok hctx
  exact keepsLists_of_holds fun y hy => (Context.delete_holds hdelete y hy).1

/-- A column that is asked for is kept unless the name it is asked for by, the name it is given or
its column is left out, and a column that is not asked for is kept unless its field or its column
is. The two rules are one for a column that is asked for by its field. In every statement, each list
behind `SELECT` holds the columns that are kept, and nothing else: in that of the query it is made
for, in those of its branches and of the queries in conditions, each with what is joined to it. -/
theorem removed_columns_hidden (c : Compiler) (table : String) :
    (∀ (clauses : Clauses) (d : Table) (item : SelectItem) column,
      d.resolve? item.field = some column → (item ∈ clauses.kept d ↔
        item ∈ clauses.columns ∧ clauses.showsNothing = false ∧
          (∀ name ∈ item.alias?, name ∉ clauses.removed) ∧ item.field ∉ clauses.removed ∧
            column ∉ clauses.removed)) ∧
    (∀ (clauses : Clauses) (scope : Scope), Context.allColumns scope clauses.removed =
        (clauses.keptOf scope.table).map (fun p =>
          shownAs (.qualified scope.token? p.column) p.column p.field) ∧
      ∀ p, p ∈ clauses.keptOf scope.table ↔ p ∈ scope.table.columns ∧
        p.field ∉ clauses.removed ∧ p.column ∉ clauses.removed) ∧
    (∀ (clauses : Clauses) (d : Table) field column, d.columnOf? field = some column →
      ⟨field, .plain, none⟩ ∈ clauses.columns → clauses.showsNothing = false →
      ((⟨field, .plain, none⟩ : SelectItem) ∈ clauses.kept d ↔
        ⟨field, column⟩ ∈ clauses.keptOf d)) ∧
    (∀ q : Query,
      (∀ s, c.select q table = .ok s → ∃ draft, c.selectDraft q table = .ok draft ∧
        s = c.finish draft ∧
        (c.contextOf q table).KeepsLists (q.allCompounds table) draft.1) ∧
      (∀ p, c.page q table = .ok p → ∃ count base, c.pageDrafts q table = .ok (count, base) ∧
        p.countSql = c.render count ∧ p.baseSql = c.render base ∧
        (c.contextOf q table).KeepsLists (q.countedCompounds table) count.1 ∧
        (c.contextOf q table).KeepsLists (q.allCompounds table) base.1) ∧
      ∀ s, c.validate q table = .ok s → ∃ draft, c.validateDraft q table = .ok draft ∧
        s = c.finish draft ∧
        (c.contextOf q table).KeepsLists (q.countedCompounds table) draft.1) ∧
    (∀ u s, c.update u table = .ok s → ∃ draft, c.updateAt u table 0 = .ok draft ∧
      s = c.finish draft ∧ (c.updateContext u table).KeepsLists u.compounds draft.1) ∧
    (∀ us s, c.updateBatch us table = .ok s → ∃ drafts,
      List.Forall₂ (fun x draft => c.updateAt x.1 table x.2 = .ok draft ∧
        (c.updateContext x.1 table).KeepsLists x.1.compounds draft.1) us.zipIdx drafts ∧
      s.sql = String.join (drafts.map fun draft => c.render draft ++ ";")) ∧
    ∀ x s, c.delete x table = .ok s → ∃ draft, c.deleteDraft x table = .ok draft ∧
      s = c.finish draft ∧ (c.deleteContext x).KeepsLists x.conditions.compounds draft.1 := by
  refine ⟨fun _ _ _ _ => Clauses.mem_kept,
    fun clauses scope => ⟨Context.allColumns_eq scope clauses, fun _ => Clauses.mem_keptOf⟩,
    fun _ _ _ _ => Clauses.mem_kept_iff_mem_keptOf, fun q => ⟨fun s h => ?_, fun p h => ?_,
    fun s h => ?_⟩, fun u s h => ?_, fun us s h => ?_, fun x s h => ?_⟩
  · exact exists_draft_of_finish h fun _ => selectDraft_keepsLists
  · obtain ⟨count, base, hdrafts, rfl, -⟩ := page_eq_ok h
    exact ⟨count, base, hdrafts, rfl, rfl, pageDrafts_keepsLists hdrafts⟩
  · exact exists_draft_of_finish h fun _ => validateDraft_keepsLists
  · exact exists_draft_of_finish h fun _ => updateAt_keepsLists
  · obtain ⟨drafts, hdrafts, hsql⟩ := updateBatch_eq_ok h
    exact ⟨drafts, hdrafts.imp fun _ _ hdraft => ⟨hdraft, updateAt_keepsLists hdraft⟩, hsql⟩
  · exact exists_draft_of_finish h fun _ => deleteDraft_keepsLists

/-- Orders without their buyers: it does not matter whether the column of the buyer or its field is
left out, when it is asked for by its field. When it is asked for as a column, leaving out the field
does not hide it. -/
theorem buyers_removed_columns_hidden :
    let orders : Table := ⟨[⟨"id", "id"⟩, ⟨"buyer", "customer_id"⟩, ⟨"total", "total"⟩]⟩
    let asked := fun name => ((Query.new "o" (some "orders")).select "id").select name
    let hidden := (asked "buyer").remove "customer_id"
    let leaked := (asked "customer_id").remove "buyer"
    (⟨"buyer", .plain, none⟩ : SelectItem) ∉ hidden.clauses.kept orders ∧
    (⟨"customer_id", .plain, none⟩ : SelectItem) ∈ leaked.clauses.kept orders ∧
    (∃ s, shop.select hidden "orders" = .ok s ∧ s.sql = "SELECT t0.id FROM orders t0" ∧
      ∃ draft, shop.selectDraft hidden "orders" = .ok draft ∧ s = shop.finish draft ∧
        (shop.contextOf hidden "orders").KeepsLists (hidden.allCompounds "orders") draft.1) ∧
    ∃ s, shop.select leaked "orders" = .ok s ∧
      s.sql = "SELECT t0.id, t0.customer_id AS buyer FROM orders t0" := by
  intro orders asked hidden leaked
  obtain ⟨hkept, -, -, hqueries, -⟩ := removed_columns_hidden shop "orders"
  have hhidden : (shop.select hidden "orders").toOption.map (·.sql) =
      some "SELECT t0.id FROM orders t0" := by
    decide +kernel
  have hleaked : (shop.select leaked "orders").toOption.map (·.sql) =
      some "SELECT t0.id, t0.customer_id AS buyer FROM orders t0" := by
    decide +kernel
  refine ⟨fun h => ?_, ?_, ?_, ?_⟩
  · obtain ⟨-, -, -, -, hcolumn⟩ := (hkept hidden.clauses orders _ "customer_id" (by decide)).mp h
    exact hcolumn (by decide)
  · exact (hkept leaked.clauses orders _ "customer_id" (by decide)).mpr
      ⟨by decide, rfl, by decide, by decide, by decide⟩
  · obtain ⟨s, hs⟩ : ∃ s, shop.select hidden "orders" = .ok s :=
      except_exists_ok (by decide +kernel)
    rw [hs] at hhidden
    exact ⟨s, hs, Option.some.inj hhidden, (hqueries hidden).1 s hs⟩
  · obtain ⟨s, hs⟩ : ∃ s, shop.select leaked "orders" = .ok s :=
      except_exists_ok (by decide +kernel)
    rw [hs] at hleaked
    exact ⟨s, hs, Option.some.inj hleaked⟩

end Compiler

end DynamicSql

import DynamicSql.Proofs.Resolve.Fields
import DynamicSql.Proofs.Statement.On
import DynamicSql.Proofs.Statement.Qualifiers
import DynamicSql.Proofs.Statement.Unions

/-!
# References between the tables of a statement

Every query that stands in a statement brings its table in, behind an alias of its own, and the
references that it gives to fields of this table stand for their columns behind this alias, wherever
they are used (`field_refs_resolve`). Only the token decides whether they can be used: a full stop
in it ends it early, and a delimiter cuts the reference where it stands in an expression.
-/

namespace DynamicSql

/-- Queries that are joined, to a table or to each other, with their tables. -/
def joinedQueries (joins : List Join) : List (Option String × Query) :=
  (nestedJoins joins).map fun j => (j.query.table, j.query)

/-- The queries in the `SELECT` of a query over a table: itself, and those that are joined. -/
def Query.withJoined (table : String) (q : Query) : List (Option String × Query) :=
  (some table, q) :: joinedQueries q.joins

/-- The queries in the `SELECT`s of queries that are shown with their unions. -/
def occurring (shown : List (String × Query)) : List (Option String × Query) :=
  shown.flatMap fun y => (y.2.selects y.1).flatMap fun x => x.2.withJoined x.1

namespace Context

open Resolve

variable {ctx : Context} {f : Fragment} {t : Trace}

/-- A query brings its table into a fragment. -/
def BringsIn (ctx : Context) (f : Fragment) (r : Option String × Query) : Prop :=
  ∃ name d, r.1 = some name ∧ ctx.schema.table name = .ok d ∧ .table name r.2.token ∈ f

/-- What a part of a fragment brings in is brought in by the fragment. -/
theorem BringsIn.mono {g : Fragment} {r : Option String × Query} (h : ctx.BringsIn f r)
    (hsub : f ⊆ g) : ctx.BringsIn g r := by
  obtain ⟨name, d, hname, hd, hmem⟩ := h
  exact ⟨name, d, hname, hd, hsub hmem⟩

/-- Joined queries bring their tables in, each in front of its `ON`. -/
theorem joined_bringsIn {joins : List Join} {parent : Scope} {table : Option String × Token}
    {path : Path} {extent : Extent} {l : Nat} {added : Joined} (hparent : ctx.IsScope table parent)
    (h : (ctx.joined parent path extent l joins).Yields added t) :
    ∀ r ∈ joinedQueries joins, ctx.BringsIn added.text r := by
  obtain ⟨parts, hattaches, rfl⟩ := joined_attaches joins hparent h
  intro r hr
  rw [joinedQueries, ← map_join_placedJoins joins table path l, List.map_map] at hr
  obtain ⟨j, hj, rfl⟩ := List.mem_map.mp hr
  obtain ⟨p, hp, hattach⟩ := exists_of_forall₂_mem hattaches.flip hj
  refine ⟨p.scope.name, p.scope.table, hattach.scope.name, hattach.scope.described, ?_⟩
  rw [JoinParts.joined]
  refine List.mem_flatMap_of_mem hp ?_
  have htoken : j.join.query.token = p.token := hattach.token.symm
  simp [JoinParts.source, htoken]

/-- A query and the queries joined to it bring their tables in behind `FROM`. -/
theorem selectParts_bringsIn {q : Query} {table : String} {path : Path} {extent : Extent}
    {parts : SelectParts} (h : (ctx.selectParts table path extent q).Yields parts t) :
    ∀ r ∈ q.withJoined table, ctx.BringsIn parts.source r := by
  obtain ⟨own, token, clauses, conditions, joins, unions⟩ := q
  obtain ⟨d, lists, t₁, added, t₂, terms, t₃, hd, -, hadded, -, rfl, -⟩ := selectParts_yields h
  have hscope : ctx.IsScope (some table, token) ⟨table, some token, d⟩ := ⟨rfl, rfl, hd⟩
  refine List.forall_mem_cons.mpr ⟨⟨table, d, rfl, hd, List.mem_cons_self⟩, fun r hr => ?_⟩
  exact (joined_bringsIn hscope hadded r hr).mono (List.subset_cons_self _ _)

/-- Where `SELECT`s are shown, all queries in them bring their tables in. -/
theorem ShowsSelects.bringIn {names : List String} {shown : List (String × Query)}
    (h : ctx.ShowsSelects names shown f) : ∀ r ∈ occurring shown, ctx.BringsIn f r := by
  intro r hr
  obtain ⟨y, hy, hr⟩ := List.mem_flatMap.mp hr
  obtain ⟨x, hx, hr⟩ := List.mem_flatMap.mp hr
  obtain ⟨parts, path, ⟨extent, t, hparts⟩, hbody⟩ := (h y hy).1 x hx
  exact (selectParts_bringsIn hparts r hr).mono ((infix_source parts).trans hbody).subset

/-- The queries that are joined to the table of an update bring their tables in. -/
theorem update_bringsIn {u : Update} {table : String} {path : Path}
    (h : (ctx.update u table path).Yields f t) :
    ∀ r ∈ joinedQueries u.joins, ctx.BringsIn f r := by
  obtain ⟨d, added, t₁, sets, t₂, terms, t₃, orders, t₄, hd, hadded, -, -, -, rfl, -⟩ :=
    update_yields h
  have hscope : ctx.IsScope (some table, u.token) ⟨table, some u.token, d⟩ := ⟨rfl, rfl, hd⟩
  refine fun r hr => (joined_bringsIn hscope hadded r hr).mono fun piece hpiece => ?_
  simp [hpiece]

/-- A deletion names collected tables only. -/
theorem delete_known {x : Delete} {table : String}
    (hreferences : ctx.references = x.conditions.references) :
    (ctx.delete x table).Ensures (Fragment.Known ctx.references) := by
  intro f t h
  obtain ⟨d, terms, -, hterms, rfl⟩ := delete_yields h
  have hscope : ∀ token ∈ (⟨table, none, d⟩ : Scope).token?,
      token ∈ ctx.references.map (·.1) := fun _ htoken => by cases htoken
  have hrefs : ∀ r ∈ x.conditions.references, (r.1, r.2) ∈ ctx.references :=
    fun r hr => hreferences ▸ hr
  have hterms := (ctx.known.groupTerms x.conditions hscope (fun _ _ => trivial) hrefs).always _ _
    hterms
  exact ((ctx.known.whereText terms hterms).text_cons _).append (.text _)

/-- The references that a query gives to fields of its table resolve. As a field, a reference stands
for the column behind the alias of the query, unless the token of the query holds a full stop. In an
expression it does so as a word by itself, unless it holds a delimiter, too. -/
structure ResolvesRefs (ctx : Context) (d : Table) (p : Query) : Prop where
  field : ∀ field column, d.resolve? field = some column → '.' ∉ p.token.toList →
    ∀ scope, ctx.field scope (p.fieldRef field) = do
      mention p.token
      return [.column p.token column]
  expression : ∀ field column, d.resolve? field = some column → PlainToken p.token →
    (∀ c ∈ field.toList, isDelimiter c = false) → ∀ scope front back, Apart front back →
      ctx.expression scope (front ++ p.fieldRef field ++ back) = do
        let before ← ctx.expression scope front
        mention p.token
        let behind ← ctx.expression scope back
        return before ++ .column p.token column :: behind

end Context

/-- In a list with different keys, each entry is found under its key. -/
theorem lookup_eq_some_of_mem {β : Type} {entries : List (String × β)} {key : String} {b : β}
    (hnodup : (entries.map (·.1)).Nodup) (h : (key, b) ∈ entries) :
    entries.lookup key = some b := by
  obtain ⟨front, back, rfl⟩ := List.append_of_mem h
  refine List.lookup_eq_some_iff.mpr ⟨front, back, rfl, fun p hp => ?_⟩
  rw [List.map_append, List.map_cons, List.nodup_append] at hnodup
  have hne := hnodup.2.2 p.1 (List.mem_map_of_mem hp) key List.mem_cons_self
  exact bne_iff_ne.mpr (Ne.symm hne)

namespace Compiler

open Context (ResolvesRefs BringsIn)

variable {c : Compiler} {table : String} {draft : Draft}

/-- A query stands in a draft with its table, behind the name of which stands the alias of the
query; and the references that the query gives resolve to columns behind this alias. -/
structure RefersTo (c : Compiler) (ctx : Context) (draft : Draft) (name : String) (d : Table)
    (p : Query) : Prop where
  shown : (name ++ " " ++ aliasIn draft p.token).toList <:+: (c.render draft).toList
  column : ∀ column, Fragment.render c.root (.ofMentions draft.2.mentioned)
    [.column p.token column] = aliasIn draft p.token ++ "." ++ column
  resolves : ctx.ResolvesRefs d p

/-- The given queries stand in a draft, over known tables. -/
def RefersToAll (c : Compiler) (ctx : Context) (draft : Draft)
    (queries : List (Option String × Query)) : Prop :=
  ∀ r ∈ queries, ∃ name d, r.1 = some name ∧ c.schema.table name = .ok d ∧
    c.RefersTo ctx draft name d r.2

/-- The queries that bring their tables into a draft stand in it, where tables have tokens of their
own. -/
theorem refersToAll_of_bringsIn {references : List (Token × String)}
    {queries : List (Option String × Query)} (hdistinct : (references.map (·.1)).Nodup)
    (hknown : draft.1.Known references)
    (h : ∀ r ∈ queries, BringsIn ⟨c.schema, c.dialect, c.root, references⟩ draft.1 r) :
    c.RefersToAll ⟨c.schema, c.dialect, c.root, references⟩ draft queries := by
  intro r hr
  obtain ⟨name, d, hname, hd, hmem⟩ := h r hr
  have hlookup : references.lookup r.2.token = some name :=
    lookup_eq_some_of_mem hdistinct (hknown _ hmem)
  have hresolves : ResolvesRefs ⟨c.schema, c.dialect, c.root, references⟩ d r.2 :=
    ⟨fun _ _ hcolumn hstop _ => Context.field_fieldRef hlookup hd hcolumn hstop,
      fun _ _ hcolumn hplain hfield _ _ _ hapart =>
        Context.expression_fieldRef hapart hlookup hd hcolumn hplain hfield⟩
  refine ⟨name, d, hname, hd, ?_, fun column => ?_, hresolves⟩
  · have hpiece : [Piece.table name r.2.token] <:+: draft.1 :=
      (List.singleton_infix_iff _ _).mpr hmem
    have htext := Fragment.render_infix hpiece c.root (.ofMentions draft.2.mentioned)
    rw [Fragment.render_table_cons, Fragment.render_nil, String.append_empty] at htext
    exact htext
  · rw [Fragment.render_column_cons, Fragment.render_nil, String.append_empty]
    rfl

/-- The tables of an anchored draft were collected. -/
theorem Anchored.known {references : List (Token × String)} {omitted : List Query}
    (h : c.Anchored draft references omitted) : draft.1.Known references := by
  intro piece hpiece
  cases piece with
  | table name token => exact ((h.table name token).mp hpiece).1
  | column token name => exact h.column token name hpiece
  | text _ => exact trivial
  | marker _ => exact trivial

/-- All queries that occur in a query stand in its draft. -/
theorem selectDraft_refersTo {q : Query} (h : c.selectDraft q table = .ok draft) :
    c.RefersToAll (c.contextOf q table) draft (occurring (q.allCompounds table)) := by
  have hanchored := selectDraft_anchored h
  exact refersToAll_of_bringsIn hanchored.distinct hanchored.known (selectDraft_selects h).1.bringIn

/-- So they do in the drafts of a page of it. -/
theorem pageDrafts_refersTo {q : Query} {count base : Draft}
    (h : c.pageDrafts q table = .ok (count, base)) :
    c.RefersToAll (c.contextOf q table) count (occurring (q.allCompounds table)) ∧
      c.RefersToAll (c.contextOf q table) base (occurring (q.allCompounds table)) := by
  obtain ⟨hcount, hbase⟩ := pageDrafts_anchored h
  obtain ⟨hcountSelects, hbaseSelects⟩ := pageDrafts_selects h
  exact ⟨refersToAll_of_bringsIn hcount.distinct hcount.known hcountSelects.1.bringIn,
    refersToAll_of_bringsIn hbase.distinct hbase.known hbaseSelects.1.bringIn⟩

/-- So they do in the draft that counts it. -/
theorem validateDraft_refersTo {q : Query} (h : c.validateDraft q table = .ok draft) :
    c.RefersToAll (c.contextOf q table) draft (occurring (q.allCompounds table)) := by
  have hanchored := validateDraft_anchored h
  exact refersToAll_of_bringsIn hanchored.distinct hanchored.known
    (validateDraft_selects h).1.bringIn

/-- The queries that stand in an update are those that are joined to its table, and those in its
conditions and in those of its joins. -/
theorem updateAt_refersTo {u : Update} {n : Nat} (h : c.updateAt u table n = .ok draft) :
    c.RefersToAll (c.updateContext u table) draft
      (joinedQueries u.joins ++ occurring u.compounds) := by
  have hanchored := updateAt_anchored h
  have hselects := (updateAt_selects h).1.bringIn
  obtain ⟨ctx, hctx, hupdate⟩ := updateAt_eq_ok h
  obtain ⟨-, rfl⟩ := context_eq_ok hctx
  exact refersToAll_of_bringsIn hanchored.distinct hanchored.known
    (List.forall_mem_append.mpr ⟨Context.update_bringsIn hupdate, hselects⟩)

/-- The queries that stand in a deletion are those in its conditions. -/
theorem deleteDraft_refersTo {x : Delete} (h : c.deleteDraft x table = .ok draft) :
    c.RefersToAll (c.deleteContext x) draft (occurring x.conditions.compounds) := by
  obtain ⟨ctx, hctx, hdelete⟩ := deleteDraft_eq_ok h
  obtain ⟨hcheck, rfl⟩ := context_eq_ok hctx
  exact refersToAll_of_bringsIn (checkTokens_eq_ok.mp hcheck).1
    (Context.delete_known rfl _ _ hdelete)
    (Context.delete_selects (List.Subset.refl _) hdelete).bringIn

/-- The reference that a query gives to a field is read as one to the token of the query and the
field, unless the token holds a full stop, and as a word of an expression, unless there is a
delimiter in it. In every statement, the references that its queries give to fields of their tables
then stand for the columns of these fields behind the aliases of the queries, wherever they are
used. -/
theorem field_refs_resolve (c : Compiler) (table : String) :
    (∀ (p : Query) field, reference? (p.fieldRef field) = some (p.token, field) ↔
      '.' ∉ p.token.toList) ∧
    (∀ (p : Query) field, lexemes (p.fieldRef field) = [.word (p.fieldRef field).toList] ↔
      ∀ ch ∈ p.token.toList ++ field.toList, isDelimiter ch = false) ∧
    (∀ q : Query,
      (∀ s, c.select q table = .ok s → ∃ draft, c.selectDraft q table = .ok draft ∧
        s = c.finish draft ∧
        c.RefersToAll (c.contextOf q table) draft (occurring (q.allCompounds table))) ∧
      (∀ p, c.page q table = .ok p → ∃ count base, c.pageDrafts q table = .ok (count, base) ∧
        p.countSql = c.render count ∧ p.baseSql = c.render base ∧
        c.RefersToAll (c.contextOf q table) count (occurring (q.allCompounds table)) ∧
        c.RefersToAll (c.contextOf q table) base (occurring (q.allCompounds table))) ∧
      ∀ s, c.validate q table = .ok s → ∃ draft, c.validateDraft q table = .ok draft ∧
        s = c.finish draft ∧
        c.RefersToAll (c.contextOf q table) draft (occurring (q.allCompounds table))) ∧
    (∀ u s, c.update u table = .ok s → ∃ draft, c.updateAt u table 0 = .ok draft ∧
      s = c.finish draft ∧ c.RefersToAll (c.updateContext u table) draft
        (joinedQueries u.joins ++ occurring u.compounds)) ∧
    (∀ us s, c.updateBatch us table = .ok s → ∃ drafts,
      List.Forall₂ (fun x draft => c.updateAt x.1 table x.2 = .ok draft ∧
        c.RefersToAll (c.updateContext x.1 table) draft
          (joinedQueries x.1.joins ++ occurring x.1.compounds)) us.zipIdx drafts ∧
      s.sql = String.join (drafts.map fun draft => c.render draft ++ ";")) ∧
    ∀ x s, c.delete x table = .ok s → ∃ draft, c.deleteDraft x table = .ok draft ∧
      s = c.finish draft ∧
      c.RefersToAll (c.deleteContext x) draft (occurring x.conditions.compounds) := by
  refine ⟨Query.reference?_fieldRef, fun p field => ?_, fun q => ⟨fun s h => ?_, fun p h => ?_,
    fun s h => ?_⟩, fun u s h => ?_, fun us s h => ?_, fun x s h => ?_⟩
  · exact p.lexemes_fieldRef field
  · exact exists_draft_of_finish h fun _ => selectDraft_refersTo
  · obtain ⟨count, base, hdrafts, rfl, -⟩ := page_eq_ok h
    exact ⟨count, base, hdrafts, rfl, rfl, pageDrafts_refersTo hdrafts⟩
  · exact exists_draft_of_finish h fun _ => validateDraft_refersTo
  · exact exists_draft_of_finish h fun _ => updateAt_refersTo
  · obtain ⟨drafts, hdrafts, hsql⟩ := updateBatch_eq_ok h
    exact ⟨drafts, hdrafts.imp fun _ _ hdraft => ⟨hdraft, updateAt_refersTo hdraft⟩, hsql⟩
  · exact exists_draft_of_finish h fun _ => deleteDraft_refersTo

/-- Customers with the totals of their orders: the reference to a total stands for it as a shown
column and inside an expression. With a full stop in its token, it would be read as one to another
table. -/
theorem customerTotals_field_refs_resolve :
    let orders := Query.new "o" (some "orders")
    let q := ((((Query.new "c" (some "customer")).select "name").select
      (orders.fieldRef "total")).column
      ⟨"2*" ++ orders.fieldRef "total" ++ "+id", .expression, some "double"⟩).leftJoin
      (.new "id" "customer_id" orders)
    ∃ s, shop.select q "customer" = .ok s ∧
      s.sql = "SELECT t0.name, t1.total, 2*t1.total+t0.id AS double FROM customer t0 " ++
        "LEFT JOIN orders t1 ON (t0.id = t1.customer_id)" ∧
      ∃ draft, shop.selectDraft q "customer" = .ok draft ∧ s = shop.finish draft ∧
        "orders t1".toList <:+: s.sql.toList ∧ aliasIn draft "o" = "t1" ∧
        (∀ scope, (shop.contextOf q "customer").field scope (orders.fieldRef "total") = do
          Resolve.mention "o"
          return [.column "o" "total"]) ∧
        reference? ((orders.withToken "o.x").fieldRef "total") = some ("o", "x.total") := by
  intro orders q
  have hsql : (shop.select q "customer").toOption.map (·.sql) =
      some ("SELECT t0.name, t1.total, 2*t1.total+t0.id AS double FROM customer t0 " ++
        "LEFT JOIN orders t1 ON (t0.id = t1.customer_id)") := by
    decide +kernel
  have halias : (shop.selectDraft q "customer").toOption.map (aliasIn · "o") = some "t1" := by
    decide +kernel
  obtain ⟨s, hs⟩ : ∃ s, shop.select q "customer" = .ok s := except_exists_ok (by decide +kernel)
  rw [hs] at hsql
  obtain ⟨-, -, hqueries, -⟩ := field_refs_resolve shop "customer"
  obtain ⟨draft, hdraft, hfinish, hrefers⟩ := (hqueries q).1 s hs
  rw [hdraft] at halias
  have halias : aliasIn draft "o" = "t1" := Option.some.inj halias
  -- The query of the orders occurs as the one that is joined.
  have hoccurs : (some "orders", orders) ∈ occurring (q.allCompounds "customer") :=
    List.mem_cons_of_mem _ List.mem_cons_self
  obtain ⟨name, d, hname, hd, hrefers⟩ := hrefers _ hoccurs
  obtain rfl := Option.some.inj hname
  have horders : shop.schema.table "orders" =
      .ok ⟨[⟨"id", "id"⟩, ⟨"buyer", "customer_id"⟩, ⟨"total", "total"⟩]⟩ := by rfl
  obtain rfl := Except.ok.inj (hd.symm.trans horders)
  have hshown := hrefers.shown
  rw [show orders.token = "o" from rfl, halias] at hshown
  refine ⟨s, hs, Option.some.inj hsql, draft, hdraft, hfinish, ?_, halias, ?_, ?_⟩
  · rw [hfinish]
    exact hshown
  · exact hrefers.resolves.field "total" "total" (by decide) (by decide)
  · decide +kernel

end Compiler

end DynamicSql

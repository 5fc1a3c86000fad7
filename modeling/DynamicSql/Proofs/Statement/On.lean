import DynamicSql.Proofs.Resolve.On
import DynamicSql.Proofs.Statement.Meaning

/-!
# The rows that joins match

In every statement, be it in a query, in a branch of one, in a query inside a condition, or in an
update, the text behind `ON` of a join is read as a formula over its keys and its own `ON`
conditions. Only where no `OR` stands between these are they demanded together with the keys
(`joins_read`).
-/

namespace DynamicSql

namespace Context

open Resolve

variable {ctx : Context}

/-- Every join in every `SELECT` of the shown queries is read. -/
def ReadsSelects (ctx : Context) (names : List String) (shown : List (String × Query))
    (draft : Draft) : Prop :=
  ∀ y ∈ shown, ∀ x ∈ y.2.selects y.1, ∃ parts path, ctx.ShowsSelect x draft.1 parts path ∧
    ctx.ReadsJoins names (.ofMentions draft.2.mentioned) (x.2.placedJoins x.1 path) parts.source

/-- The joins of a `SELECT` stand behind its table. -/
theorem selectParts_readsJoins {names : List String} {q : Query} {table : String} {path : Path}
    {extent : Extent} {parts : SelectParts} {t : Trace} (aliases : Aliases)
    (h : (ctx.selectParts table path extent q).Yields parts t) (hnames : q.names ⊆ names)
    (hreferences : q.conditions.references ++ joinReferences q.joins ⊆ ctx.references)
    (hlettered : parts.source.Lettered) :
    ctx.ReadsJoins names aliases (q.placedJoins table path) parts.source := by
  obtain ⟨-, hjoinNames⟩ := List.append_subset.mp (List.Subset.trans q.demandNames_subset hnames)
  obtain ⟨own, token, clauses, conditions, joins, unions⟩ := q
  obtain ⟨d, lists, t₁, added, t₂, terms, t₃, hd, -, hadded, -, rfl, -⟩ := selectParts_yields h
  obtain ⟨-, hjoinReferences⟩ := List.append_subset.mp hreferences
  have hscope : ctx.IsScope (some table, token) ⟨table, some token, d⟩ := ⟨rfl, rfl, hd⟩
  have hjoins := joined_readsJoins aliases hscope hadded hjoinNames hjoinReferences
    fun slot hslot => hlettered slot (List.mem_cons_of_mem _ hslot)
  exact hjoins.mono (List.infix_cons (List.infix_refl _))

/-- Where `SELECT`s are shown, their joins are read. -/
theorem ShowsSelects.readsSelects {names : List String} {shown : List (String × Query)}
    {draft : Draft} (h : ctx.ShowsSelects names shown draft.1) (hlettered : draft.1.Lettered) :
    ctx.ReadsSelects names shown draft := by
  intro y hy x hx
  obtain ⟨hselects, hwithin⟩ := h y hy
  obtain ⟨parts, path, hshows⟩ := hselects x hx
  obtain ⟨⟨extent, t, hparts⟩, hbody⟩ := id hshows
  obtain ⟨hnames, hreferences⟩ := Query.selects_subset hx
  refine ⟨parts, path, hshows, selectParts_readsJoins _ hparts
    (List.Subset.trans hnames hwithin.names) (List.Subset.trans hreferences hwithin.references)
    fun slot hslot => hlettered slot ?_⟩
  exact ((infix_source parts).trans hbody).subset hslot

/-- The queries in the conditions of a deletion stand in the deletion. -/
theorem delete_holds {d : Delete} {table : String} {f : Fragment} {t : Trace}
    (h : (ctx.delete d table).Yields f t) : ∀ y ∈ d.conditions.compounds, ctx.Holds y f t ∧
      Query.Within d.conditions.names d.conditions.references y := by
  obtain ⟨description, terms, -, hterms, rfl⟩ := delete_yields h
  intro y hy
  obtain ⟨hholds, hwithin⟩ := groupTerms_holds d.conditions hterms y hy
  refine ⟨hholds.within ?_, hwithin⟩
  exact (List.infix_cons (List.infix_refl _)).trans (List.prefix_append _ _).isInfix

/-- A deletion shows the `SELECT`s of the queries in its conditions. -/
theorem delete_selects {d : Delete} {table : String} {f : Fragment} {t : Trace}
    (hreferences : d.conditions.references ⊆ ctx.references)
    (h : (ctx.delete d table).Yields f t) :
    ctx.ShowsSelects d.conditions.names d.conditions.compounds f :=
  showsSelects_of_holds hreferences (delete_holds h)

end Context

namespace Compiler

variable {c : Compiler} {table : String} {draft : Draft}

/-- Every join in every `SELECT` of a draft is read, be it the `SELECT` of the query that the draft
is made for, of a branch of it, or of a query in a condition. -/
def ReadsQuery (c : Compiler) (table : String) (q : Query) (draft : Draft) : Prop :=
  (c.contextOf q table).ReadsSelects q.names (q.allCompounds table) draft

/-- Every join of an update with a number is read, and so is every join in a `SELECT` in it. -/
def ReadsUpdate (c : Compiler) (table : String) (u : Update) (n : Nat) (draft : Draft) : Prop :=
  (c.updateContext u table).ReadsSelects (u.conditions.names ++ joinNames u.joins) u.compounds
      draft ∧
    (c.updateContext u table).ReadsJoins (u.conditions.names ++ joinNames u.joins)
      (.ofMentions draft.2.mentioned)
      (placedJoins (some table, u.token) ((Path.ofRoot n).child "cl") 0 u.joins) draft.1

/-- What is known while a deletion is resolved. -/
def deleteContext (c : Compiler) (d : Delete) : Context :=
  ⟨c.schema, c.dialect, c.root, d.conditions.references⟩

/-- Every join in a `SELECT` in a deletion is read. -/
def ReadsDelete (c : Compiler) (d : Delete) (draft : Draft) : Prop :=
  (c.deleteContext d).ReadsSelects d.conditions.names d.conditions.compounds draft

/-- Where a draft shows the `SELECT`s of a query, every join in them is read. -/
theorem ShowsQuery.reads {q : Query} (h : c.ShowsQuery table q draft) :
    c.ReadsQuery table q draft :=
  h.1.readsSelects h.2

/-- Every join of an update that is made is read. -/
theorem updateAt_reads {u : Update} {n : Nat} (h : c.updateAt u table n = .ok draft) :
    c.ReadsUpdate table u n draft := by
  obtain ⟨hselects, hlettered⟩ := updateAt_selects h
  obtain ⟨ctx, hctx, hupdate⟩ := updateAt_eq_ok h
  obtain ⟨-, rfl⟩ := context_eq_ok hctx
  obtain ⟨d, added, t₁, sets, t₂, terms, t₃, orders, t₄, hd, hadded, -, -, -, hf, -⟩ :=
    Context.update_yields hupdate
  have hreferences : joinReferences u.joins ⊆ updateReferences u table :=
    List.subset_append_right _ _
  have hscope : (c.updateContext u table).IsScope (some table, u.token)
      ⟨table, some u.token, d⟩ := ⟨rfl, rfl, hd⟩
  have htext : added.text <:+: draft.1 := by
    rw [hf, List.append_assoc, List.append_assoc]
    exact (List.infix_cons (List.infix_cons (List.infix_refl _))).trans
      (List.prefix_append _ _).isInfix
  have hjoins := Context.joined_readsJoins (.ofMentions draft.2.mentioned) hscope hadded
    (List.subset_append_right u.conditions.names _) hreferences
    fun slot hslot => hlettered slot (htext.subset hslot)
  exact ⟨hselects.readsSelects hlettered, hjoins.mono htext⟩

/-- Every join in a `SELECT` in a deletion that is made is read. -/
theorem deleteDraft_reads {d : Delete} (h : c.deleteDraft d table = .ok draft) :
    c.ReadsDelete d draft := by
  have hfresh := Description.landmarks_fresh (.delete d)
  rw [Description.landmarks, List.flatten_singleton] at hfresh
  have hlettered := (deleteDraft_shows h).lettered hfresh
  obtain ⟨ctx, hctx, hdelete⟩ := deleteDraft_eq_ok h
  obtain ⟨-, rfl⟩ := context_eq_ok hctx
  exact (Context.delete_selects (List.Subset.refl _) hdelete).readsSelects hlettered

/-- The text behind `ON` of every join with a condition of its own is read as a formula over the
keys of the join and its `ON` conditions, unless these bring a connector. If only `AND` stands
between the conditions, the formula holds if and only if all keys agree and the conditions hold. If
`OR` does, it holds for some truth values of the conditions without any key. -/
theorem joins_read (c : Compiler) (table : String) :
    (∀ q : Query,
      (∀ s, c.select q table = .ok s → ∃ draft, c.selectDraft q table = .ok draft ∧
        s = c.finish draft ∧ c.ReadsQuery table q draft) ∧
      (∀ p, c.page q table = .ok p → ∃ count base, c.pageDrafts q table = .ok (count, base) ∧
        p.countSql = c.render count ∧ p.baseSql = c.render base ∧
        c.ReadsQuery table q count ∧ c.ReadsQuery table q base) ∧
      ∀ s, c.validate q table = .ok s → ∃ draft, c.validateDraft q table = .ok draft ∧
        s = c.finish draft ∧ c.ReadsQuery table q draft) ∧
    (∀ u s, c.update u table = .ok s → ∃ draft, c.updateAt u table 0 = .ok draft ∧
      s = c.finish draft ∧ c.ReadsUpdate table u 0 draft) ∧
    (∀ us s, c.updateBatch us table = .ok s → ∃ drafts,
      List.Forall₂ (fun x draft => c.updateAt x.1 table x.2 = .ok draft ∧
        c.ReadsUpdate table x.1 x.2 draft) us.zipIdx drafts ∧
      s.sql = String.join (drafts.map fun draft => c.render draft ++ ";")) ∧
    ∀ d s, c.delete d table = .ok s → ∃ draft, c.deleteDraft d table = .ok draft ∧
      s = c.finish draft ∧ c.ReadsDelete d draft := by
  refine ⟨fun q => ⟨fun s h => ?_, fun p h => ?_, fun s h => ?_⟩, fun u s h => ?_, fun us s h => ?_,
    fun d s h => ?_⟩
  · obtain ⟨draft, hdraft, h⟩ := except_bind_eq_ok.mp h
    exact ⟨draft, hdraft, (Except.ok.inj h).symm, (selectDraft_selects hdraft).reads⟩
  · obtain ⟨count, base, hdrafts, rfl, -⟩ := page_eq_ok h
    obtain ⟨hcount, hbase⟩ := pageDrafts_selects hdrafts
    exact ⟨count, base, hdrafts, rfl, rfl, hcount.reads, hbase.reads⟩
  · obtain ⟨draft, hdraft, h⟩ := except_bind_eq_ok.mp h
    exact ⟨draft, hdraft, (Except.ok.inj h).symm, (validateDraft_selects hdraft).reads⟩
  · obtain ⟨draft, hdraft, h⟩ := except_bind_eq_ok.mp h
    exact ⟨draft, hdraft, (Except.ok.inj h).symm, updateAt_reads hdraft⟩
  · obtain ⟨drafts, hdrafts, hsql⟩ := updateBatch_eq_ok h
    exact ⟨drafts, hdrafts.imp fun _ _ hdraft => ⟨hdraft, updateAt_reads hdraft⟩, hsql⟩
  · obtain ⟨draft, hdraft, h⟩ := except_bind_eq_ok.mp h
    exact ⟨draft, hdraft, (Except.ok.inj h).symm, deleteDraft_reads hdraft⟩

/-- Customers and their orders with a total of five or a large one: an order with a large total is
matched with every customer. -/
theorem alternative_joins_read :
    let join := HasConditions.orCompare .greaterThan "total" (.int 10) <|
      HasConditions.compare .equal "total" (.int 5) <|
        Join.new "id" "customer_id" (.new "o" (some "orders"))
    let q := ((Query.new "c" (some "customer")).select "name").leftJoin join
    ∃ s, shop.select q "customer" = .ok s ∧
      s.sql = "SELECT t0.name FROM customer t0 LEFT JOIN orders t1 ON (t0.id = t1.customer_id " ++
        "AND t1.total = #\x7brequest.filter.filter_v0_cl_ofl0_0\x7d " ++
        "OR t1.total > #\x7brequest.filter.filter_v0_cl_ofl0_1\x7d)" ∧
      ∃ draft, shop.selectDraft q "customer" = .ok draft ∧ s = shop.finish draft ∧
        ∃ j p G, (shop.contextOf q "customer").ReadsOn q.names (.ofMentions draft.2.mentioned) j p
            G ∧ j.join = join ∧ p.source shop.root <:+: draft.1 ∧
          readCondition ((p.on shop.root).render shop.root (.ofMentions draft.2.mentioned)).toList =
            G.map (fun a => (((shop.contextOf q "customer").keyedText a).render shop.root
              (.ofMentions draft.2.mentioned)).toList) ∧
          G.value (Keyed.holds (fun _ => false) fun _ => true) = true := by
  intro join q
  have hsql : (shop.select q "customer").toOption.map (·.sql) =
      some ("SELECT t0.name FROM customer t0 LEFT JOIN orders t1 ON (t0.id = t1.customer_id " ++
        "AND t1.total = #\x7brequest.filter.filter_v0_cl_ofl0_0\x7d " ++
        "OR t1.total > #\x7brequest.filter.filter_v0_cl_ofl0_1\x7d)") := by
    decide +kernel
  obtain ⟨s, hs⟩ : ∃ s, shop.select q "customer" = .ok s := except_exists_ok (by decide +kernel)
  rw [hs] at hsql
  obtain ⟨draft, hdraft, hfinish, hreads⟩ := ((joins_read shop "customer").1 q).1 s hs
  obtain ⟨parts, path, ⟨-, hbody⟩, hjoins⟩ :=
    hreads ("customer", q) List.mem_cons_self ("customer", q) List.mem_cons_self
  let j : PlacedJoin := ⟨(some "customer", "c"), path.child "cl", 0, join⟩
  let first : Leaf := ⟨j.onPlace, 0, "total", .compare .equal (.int 5)⟩
  let orders : Table := ⟨[⟨"id", "id"⟩, ⟨"buyer", "customer_id"⟩, ⟨"total", "total"⟩]⟩
  -- The condition behind the keys is known only as resolved; its text opens with a column, so it
  -- brings no connector of its own.
  have hfirst : ∀ ctx : Context, ctx.schema = shop.schema → ctx.written first =
      [.column "o" "total", .text " = ", .marker ⟨.compared, j.onPlace.path, 0, none⟩] := by
    intro ctx hschema
    have hd : ctx.schema.table j.onPlace.table = .ok orders := congrArg (·.table "orders") hschema
    refine Context.written_eq (t := ⟨[], [(⟨.compared, j.onPlace.path, 0, none⟩, .int 5)]⟩) ?_
    rw [Context.resolveLeaf, Context.scopeAt_eq j.onPlace hd]
    change (ctx.simpleCondition ⟨"orders", some "o", orders⟩ j.onPlace.path 0 "total"
      (.compare .equal (.int 5))).run = .ok (_, _)
    rfl
  have hitems : j.onItems = (.and, .atom first) ::
      [(.or, .atom ⟨j.onPlace, 1, "total", .compare .greaterThan (.int 10)⟩)] := rfl
  have hopen : (shop.contextOf q "customer").bringsConnector j = false :=
    Context.bringsConnector_of_column hitems (hfirst _ rfl)
  obtain ⟨p, G, hG, hsource⟩ := hjoins j List.mem_cons_self (List.cons_ne_nil _ _) hopen
  have hplain : (shop.contextOf q "customer").PlainNames q.names := by decide +kernel
  have hor : ∃ x ∈ j.onItems.tail, x.1 = .or := ⟨_, List.mem_cons_self, rfl⟩
  refine ⟨s, hs, Option.some.inj hsql, draft, hdraft, hfinish, j, p, G, hG, rfl, ?_, ?_,
    hG.bypassed hor⟩
  · exact (hsource.trans (Context.infix_source parts)).trans hbody
  · refine hG.read hplain ?_
    rintro leaf ⟨⟩
    change (Context.written _ first).trimStart = Context.written _ first
    rw [hfirst (shop.contextOf q "customer") rfl]
    rfl

end Compiler

end DynamicSql

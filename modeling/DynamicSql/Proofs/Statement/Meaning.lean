import DynamicSql.Proofs.Resolve.Meaning
import DynamicSql.Proofs.Statement.Conditioned
import DynamicSql.Proofs.Statement.Realised

/-!
# The rows that statements are about

Every `SELECT` of a statement, those of branches and of queries in conditions among them, demands of
its rows what its query and the joins of the query say, and an update changes the rows for which its
own conditions and those of its joins hold (`conditions_read`). Names from outside may be anything
that leaves the text around it as it is; the patterns of dates may be any texts.
-/

namespace DynamicSql

/-- The queries below an update that are shown with their unions. -/
def Update.compounds (u : Update) : List (String × Query) :=
  u.conditions.compounds ++ joinCompounds u.joins

namespace Context

open Resolve

variable {ctx : Context} {f g : Fragment} {t : Trace}

/-- A `SELECT` of a query over a table, from its `FROM` on, stands in a fragment. -/
def ShowsSelect (ctx : Context) (x : String × Query) (f : Fragment) (parts : SelectParts)
    (path : Path) : Prop :=
  (∃ extent t, (ctx.selectParts x.1 path extent x.2).Yields parts t) ∧ parts.body <:+: f

/-- The `SELECT`s of a query with its unions stand, as a whole, where the query does. -/
theorem Holds.wholeSelects {y : String × Query} (h : ctx.Holds y g t) :
    ∀ x ∈ y.2.selects y.1, ∃ parts path t,
      (ctx.selectParts x.1 path .everything x.2).Yields parts t ∧ parts.select <:+: g := by
  obtain ⟨path, f, _, hquery, hf, -⟩ := h
  obtain ⟨parts, t₁, branches, t₂, hparts, -, hbranches, rfl, -⟩ := compoundSelect_yields hquery
  refine List.forall_mem_cons.mpr ⟨?_, List.forall_mem_map.mpr fun b hb => ?_⟩
  · exact ⟨parts, path, t₁, hparts, (infix_select _ _).trans hf⟩
  · obtain ⟨path, parts, t', hparts, hinfix, -⟩ := unionBranches_infix hbranches b hb
    have hbranch := (infix_branch b.kind parts.select b.query.clauses.limit).trans hinfix
    exact ⟨parts, path, t', hparts, hbranch.trans ((infix_branches _ _).trans hf)⟩

/-- So the `SELECT`s stand in it from their `FROM` on. -/
theorem Holds.selects {y : String × Query} (h : ctx.Holds y g t) :
    ∀ x ∈ y.2.selects y.1, ∃ parts path, ctx.ShowsSelect x g parts path := by
  intro x hx
  obtain ⟨parts, path, t, hparts, hselect⟩ := h.wholeSelects x hx
  exact ⟨parts, path, ⟨_, t, hparts⟩, (infix_body parts).trans hselect⟩

/-- The `SELECT`s of several queries stand in a fragment, and the names of the queries are among
given ones. -/
def ShowsSelects (ctx : Context) (names : List String) (shown : List (String × Query))
    (f : Fragment) : Prop :=
  ∀ y ∈ shown, (∀ x ∈ y.2.selects y.1, ∃ parts path, ctx.ShowsSelect x f parts path) ∧
    Query.Within names ctx.references y

/-- Queries that stand in a fragment with their unions show their `SELECT`s. -/
theorem showsSelects_of_holds {names : List String} {references : List (Token × String)}
    {shown : List (String × Query)} (hreferences : references ⊆ ctx.references)
    (h : ∀ y ∈ shown, ctx.Holds y f t ∧ Query.Within names references y) :
    ctx.ShowsSelects names shown f :=
  fun y hy => ⟨(h y hy).1.selects, (h y hy).2.mono (List.Subset.refl _) hreferences⟩

/-- What stands in a fragment stands in a longer one. -/
theorem ShowsSelects.mono {names : List String} {shown : List (String × Query)}
    (h : ctx.ShowsSelects names shown f) (hf : f <:+: g) : ctx.ShowsSelects names shown g := by
  refine fun y hy => ⟨fun x hx => ?_, (h y hy).2⟩
  obtain ⟨parts, path, hselect, hinfix⟩ := (h y hy).1 x hx
  exact ⟨parts, path, hselect, hinfix.trans hf⟩

section Query

variable {q : Query} {table : String} {path : Path}
  (hreferences : q.references table ⊆ ctx.references)

include hreferences

/-- A query with its unions shows the `SELECT`s of all queries in its conditions, too. -/
theorem compoundSelect_selects (h : (ctx.compoundSelect table path q).Yields f t) :
    ctx.ShowsSelects q.names (q.allCompounds table) f :=
  showsSelects_of_holds hreferences (compoundSelect_holds h)

/-- A query without unions is a single `SELECT`. -/
theorem selectParts_selects {extent : Extent} {parts : SelectParts} (hunions : q.unions = [])
    (h : (ctx.selectParts table path extent q).Yields parts t) :
    ctx.ShowsSelects q.names (q.allCompounds table) parts.body := by
  have hbelow : q.conditions.references ++ joinReferences q.joins ⊆ q.references table :=
    (Query.selects_subset List.mem_cons_self).2
  have hown : ctx.ShowsSelects q.names [(table, q)] parts.body := by
    refine List.forall_mem_singleton.mpr ⟨?_, List.Subset.refl _, hreferences⟩
    rw [Query.selects, hunions]
    exact List.forall_mem_singleton.mpr ⟨parts, path, ⟨extent, t, h⟩, List.infix_refl _⟩
  rw [Query.allCompounds, hunions, branchCompounds, List.append_nil]
  refine List.forall_mem_cons.mpr ⟨hown _ (List.mem_singleton_self _), ?_⟩
  exact showsSelects_of_holds (List.Subset.trans hbelow hreferences) (selectParts_holds q h)

end Query

/-- The queries in the conditions and joins of an update stand in the update. -/
theorem update_holds {u : Update} {table : String} {path : Path}
    (h : (ctx.update u table path).Yields f t) : ∀ y ∈ u.compounds, ctx.Holds y f t ∧
      Query.Within (u.conditions.names ++ joinNames u.joins)
        (u.conditions.references ++ joinReferences u.joins) y := by
  obtain ⟨d, added, t₁, sets, t₂, terms, t₃, orders, t₄, -, hadded, -, hterms, -, rfl, rfl⟩ :=
    update_yields h
  -- Own conditions and those of joins stand behind the same `WHERE`.
  have hcondition : ∀ {g : Fragment}, g ∈ Term.whereText terms :: added.conditions →
      ∀ front tail : Fragment, g <:+: front ++ .text " WHERE " ::
        combineWhere ctx.root (Term.whereText terms :: added.conditions) ++ tail := by
    intro g hg front tail
    have hclause := List.infix_cons (a := Piece.text " WHERE ")
      (Fragment.infix_combineWhere ctx.root hg)
    exact (hclause.trans (List.suffix_append front _).isInfix).trans
      (List.prefix_append _ tail).isInfix
  refine List.forall_mem_append.mpr ⟨fun y hy => ?_, fun y hy => ?_⟩
  · obtain ⟨hholds, hwithin⟩ := groupTerms_holds u.conditions hterms y hy
    refine ⟨(hholds.within (hcondition List.mem_cons_self _ _)).mono (List.infix_refl _) ?_, ?_⟩
    · intro b hb
      simp [hb]
    · exact hwithin.mono (List.subset_append_left _ _) (List.subset_append_left _ _)
  · obtain ⟨⟨g, hg, hholds⟩, hwithin⟩ := joined_holds u.joins hadded y hy
    refine ⟨(hholds.within ?_).mono (List.infix_refl _) ?_,
      hwithin.mono (List.subset_append_right _ _) (List.subset_append_right _ _)⟩
    · obtain rfl | hg := List.mem_cons.mp hg
      · have hfront : added.text <:+: .text "UPDATE " :: .table table u.token :: added.text :=
          List.infix_cons (List.infix_cons (List.infix_refl _))
        rw [List.append_assoc, List.append_assoc]
        exact hfront.trans (List.prefix_append _ _).isInfix
      · exact hcondition (List.mem_cons_of_mem _ hg) _ _
    · intro b hb
      simp [hb]

/-- An update shows the `SELECT`s of the queries in its conditions and joins. -/
theorem update_selects {u : Update} {table : String} {path : Path}
    (hreferences : u.conditions.references ++ joinReferences u.joins ⊆ ctx.references)
    (h : (ctx.update u table path).Yields f t) :
    ctx.ShowsSelects (u.conditions.names ++ joinNames u.joins) u.compounds f :=
  showsSelects_of_holds hreferences (update_holds h)

/-- Every `SELECT` of the shown queries has, in a draft, the condition that its query demands. It
stands behind `WHERE` unless there is none. -/
def DemandsRows (ctx : Context) (shown : List (String × Query)) (draft : Draft) : Prop :=
  ∀ y ∈ shown, ∀ x ∈ y.2.selects y.1, ∃ parts path, ctx.ShowsSelect x draft.1 parts path ∧
    ctx.Means (.ofMentions draft.2.mentioned) parts.condition
      (demands x.1 x.2.token (path.child "tl") (path.child "cl") x.2.conditions x.2.joins)

/-- What a draft with lettered paths shows has the conditions that the queries demand. -/
theorem ShowsSelects.demandsRows {names : List String} {shown : List (String × Query)}
    {draft : Draft} (h : ctx.ShowsSelects names shown draft.1) (hplain : ctx.PlainNames names)
    (hlettered : draft.1.Lettered) : ctx.DemandsRows shown draft := by
  intro y hy x hx
  obtain ⟨hselects, hwithin⟩ := h y hy
  obtain ⟨parts, path, hshows⟩ := hselects x hx
  obtain ⟨⟨extent, t, hparts⟩, hinfix⟩ := id hshows
  obtain ⟨hnames, hreferences⟩ := Query.selects_subset hx
  have hnames := List.Subset.trans x.2.demandNames_subset (List.Subset.trans hnames hwithin.names)
  refine ⟨parts, path, hshows, selectParts_means _ hparts (hplain.mono hnames)
    (List.Subset.trans hreferences hwithin.references) fun slot hslot => hlettered slot ?_⟩
  exact ((infix_condition parts).trans hinfix).subset hslot

end Context

/-- In a draft that shows landmarks with places of their own, the paths of all markers are
lettered. -/
theorem Draft.Shows.lettered {draft : Draft} {ls : List Landmark} {next : Segment → Prop}
    (h : draft.Shows ls) (hfresh : Fresh [] next ls) : draft.1.Lettered := by
  intro slot hslot
  refine hfresh.lettered (List.forall_mem_nil _) slot ?_
  rw [Landmark.slots_eq_marks, ← h.marks_eq, ← Fragment.slots_eq_marks]
  exact List.mem_filterMap.mpr ⟨_, hslot, rfl⟩

namespace Compiler

variable {c : Compiler} {table : String} {draft : Draft} {q : Query}

/-- What is known while a query over a table is resolved. -/
def contextOf (c : Compiler) (q : Query) (table : String) : Context :=
  ⟨c.schema, c.dialect, c.root, q.references table⟩

/-- Every `SELECT` of a draft has the condition that its query demands, be it the query that the
draft is made for, a branch of it, or a query in a condition. -/
def DemandsRows (c : Compiler) (table : String) (q : Query) (draft : Draft) : Prop :=
  (c.contextOf q table).DemandsRows (q.allCompounds table) draft

/-- An update with a number has the condition that it demands of the rows it changes, between its
assignments and its tail, and every `SELECT` in it has the condition that its query demands. -/
def DemandsChange (c : Compiler) (table : String) (u : Update) (n : Nat) (draft : Draft) : Prop :=
  (c.updateContext u table).DemandsRows u.compounds draft ∧
  ∃ (joins : Fragment) (sets orders : List Fragment) (condition : Fragment),
    draft.1 = .text "UPDATE " :: .table table u.token :: joins ++
      .text " SET " :: Fragment.join ", " sets ++ .text " WHERE " :: condition ++
      (SelectParts.clause " ORDER BY " ", " orders ++ [.text (Dialect.limitClause u.limit)]) ∧
    condition ≠ [] ∧
    (c.updateContext u table).Means (.ofMentions draft.2.mentioned) condition
      (demands table u.token ((Path.ofRoot n).child "ut") ((Path.ofRoot n).child "cl")
        u.conditions u.joins)

/-- A text stands in the one that counts its rows. -/
theorem infix_countRows (f : Fragment) : f <:+: countRows f :=
  (Fragment.infix_parens f).trans
    ((List.infix_cons (List.infix_refl _)).trans (List.prefix_append _ _).isInfix)

/-- What stands behind the columns of a query stands in the text that counts its rows or its
groups. -/
theorem infix_counted {parts : SelectParts} {f : Fragment}
    (h : f = countBody parts ∨ f = countRows (countBody parts)) : parts.body <:+: f := by
  have hbody : parts.body <:+: countBody parts := List.infix_cons (List.infix_refl _)
  obtain rfl | rfl := h
  · exact hbody
  · exact hbody.trans (infix_countRows _)

/-- A draft shows the `SELECT`s of all queries that are shown with their unions, and the paths of
its markers are lettered. -/
def ShowsQuery (c : Compiler) (table : String) (q : Query) (draft : Draft) : Prop :=
  (c.contextOf q table).ShowsSelects q.names (q.allCompounds table) draft.1 ∧ draft.1.Lettered

section Query

/-- The draft of a query shows its `SELECT`s. -/
theorem selectDraft_selects (h : c.selectDraft q table = .ok draft) :
    c.ShowsQuery table q draft := by
  have hlettered := (selectDraft_shows h).lettered (q.allLandmarks_fresh (.ofRoot 0)).ofRoot
  obtain ⟨ctx, f, hctx, hf, hdraft⟩ := selectDraft_eq_ok h
  obtain ⟨-, rfl⟩ := context_eq_ok hctx
  have hwhole : f <:+: draft.1 := hdraft ▸ (List.prefix_append f _).isInfix
  have hselects := Context.compoundSelect_selects (List.Subset.refl _) hf
  exact ⟨hselects.mono hwhole, hlettered⟩

/-- So do the drafts of a page of it. -/
theorem pageDrafts_selects {count base : Draft} (h : c.pageDrafts q table = .ok (count, base)) :
    c.ShowsQuery table q count ∧ c.ShowsQuery table q base := by
  obtain ⟨hcount, hbase⟩ := pageDrafts_shows h
  have hcount := hcount.lettered (q.allLandmarks_fresh (.ofRoot 0)).ofRoot
  have hbase := hbase.lettered (q.allLandmarks_fresh (.ofRoot 0)).ofRoot
  obtain ⟨ctx, hctx, -, ⟨hunions, parts, hparts, hselect, hbody⟩ | ⟨hf, hrows⟩⟩ :=
    pageDrafts_eq_ok h
  all_goals obtain ⟨-, rfl⟩ := context_eq_ok hctx
  · have hselects := Context.selectParts_selects (List.Subset.refl _) hunions
      (Context.shownParts_yields hparts).1
    have hcounted : parts.body <:+: count.1 := infix_counted hbody
    have hpaged : parts.body <:+: base.1 := hselect ▸ Context.infix_body parts
    exact ⟨⟨hselects.mono hcounted, hcount⟩, ⟨hselects.mono hpaged, hbase⟩⟩
  · have hselects := Context.compoundSelect_selects (List.Subset.refl _) hf
    exact ⟨⟨hselects.mono (hrows ▸ infix_countRows _), hcount⟩, ⟨hselects, hbase⟩⟩

/-- So does the draft that counts it. -/
theorem validateDraft_selects (h : c.validateDraft q table = .ok draft) :
    c.ShowsQuery table q draft := by
  have hlettered := (validateDraft_shows h).lettered (q.allLandmarks_fresh (.ofRoot 0)).ofRoot
  obtain ⟨ctx, hctx, ⟨hunions, parts, hparts, hdraft⟩ | ⟨f, hf, hdraft⟩⟩ := validateDraft_eq_ok h
  all_goals obtain ⟨-, rfl⟩ := context_eq_ok hctx
  · have hwhole : parts.body <:+: draft.1 := infix_counted (.inl hdraft)
    have hselects := Context.selectParts_selects (List.Subset.refl _) hunions hparts
    exact ⟨hselects.mono hwhole, hlettered⟩
  · have hwhole : f <:+: draft.1 := hdraft ▸ infix_countRows f
    have hselects := Context.compoundSelect_selects (List.Subset.refl _) hf
    exact ⟨hselects.mono hwhole, hlettered⟩

/-- Where the names are plain, the `SELECT`s of a draft have the conditions that their queries
demand. -/
theorem ShowsQuery.demands (h : c.ShowsQuery table q draft)
    (hplain : (c.contextOf q table).PlainNames q.names) : c.DemandsRows table q draft :=
  h.1.demandsRows hplain h.2

end Query

/-- An update shows the `SELECT`s of all queries in its conditions and joins, and the paths of its
markers are lettered. -/
theorem updateAt_selects {u : Update} {n : Nat} (h : c.updateAt u table n = .ok draft) :
    (c.updateContext u table).ShowsSelects (u.conditions.names ++ joinNames u.joins) u.compounds
      draft.1 ∧ draft.1.Lettered := by
  have hlettered := (updateAt_shows h).lettered (u.landmarks_fresh n)
  obtain ⟨ctx, hctx, hupdate⟩ := updateAt_eq_ok h
  obtain ⟨-, rfl⟩ := context_eq_ok hctx
  have hreferences : u.conditions.references ++ joinReferences u.joins ⊆
      updateReferences u table := List.subset_cons_self _ _
  exact ⟨Context.update_selects hreferences hupdate, hlettered⟩

/-- An update that is made has the condition that it demands of its rows. -/
theorem updateAt_demands {u : Update} {n : Nat}
    (hplain : (c.updateContext u table).PlainNames (u.conditions.names ++ joinNames u.joins))
    (h : c.updateAt u table n = .ok draft) : c.DemandsChange table u n draft := by
  obtain ⟨hselects, hlettered⟩ := updateAt_selects h
  obtain ⟨ctx, hctx, hupdate⟩ := updateAt_eq_ok h
  obtain ⟨-, rfl⟩ := context_eq_ok hctx
  obtain ⟨d, added, t₁, sets, t₂, terms, t₃, orders, t₄, hd, hadded, -, hterms, -, hf, -⟩ :=
    Context.update_yields hupdate
  have hreferences : u.conditions.references ++ joinReferences u.joins ⊆
      updateReferences u table := List.subset_cons_self _ _
  have hmeans := Context.conditions_means (.ofMentions draft.2.mentioned) (by decide) (by decide)
    hd hterms hadded hplain hreferences fun slot hslot => hlettered slot (by simp [hf, hslot])
  refine ⟨hselects.demandsRows hplain hlettered, added.text, sets, orders, _, hf,
    fun hempty => ?_, hmeans⟩
  have hleafless : u.conditions.isLeafless = true :=
    hmeans.absent.mp hempty _ List.mem_cons_self
  obtain ⟨e, he⟩ := updateAt_leafless hleafless n
  rw [he] at h
  cases h

/-- The conditions of every statement are read as they were meant. For all truth values of the
single conditions, the text behind `WHERE` has the value that the groups have together: those of a
query or an update, and those of its joins. -/
theorem conditions_read (c : Compiler) (table : String) :
    (∀ q : Query, (c.contextOf q table).PlainNames q.names →
      (∀ s, c.select q table = .ok s → ∃ draft, c.selectDraft q table = .ok draft ∧
        s = c.finish draft ∧ c.DemandsRows table q draft) ∧
      (∀ p, c.page q table = .ok p → ∃ count base, c.pageDrafts q table = .ok (count, base) ∧
        p.countSql = c.render count ∧ p.baseSql = c.render base ∧
        c.DemandsRows table q count ∧ c.DemandsRows table q base) ∧
      ∀ s, c.validate q table = .ok s → ∃ draft, c.validateDraft q table = .ok draft ∧
        s = c.finish draft ∧ c.DemandsRows table q draft) ∧
    (∀ u : Update,
      (c.updateContext u table).PlainNames (u.conditions.names ++ joinNames u.joins) →
      ∀ s, c.update u table = .ok s → ∃ draft, c.updateAt u table 0 = .ok draft ∧
        s = c.finish draft ∧ c.DemandsChange table u 0 draft) ∧
    ∀ us : List Update, (∀ u ∈ us,
        (c.updateContext u table).PlainNames (u.conditions.names ++ joinNames u.joins)) →
      ∀ s, c.updateBatch us table = .ok s → ∃ drafts,
        List.Forall₂ (fun x draft => c.updateAt x.1 table x.2 = .ok draft ∧
          c.DemandsChange table x.1 x.2 draft) us.zipIdx drafts ∧
        s.sql = String.join (drafts.map fun draft => c.render draft ++ ";") := by
  refine ⟨fun q hplain => ⟨fun s h => ?_, fun p h => ?_, fun s h => ?_⟩, fun u hplain s h => ?_,
    fun us hplain s h => ?_⟩
  · obtain ⟨draft, hdraft, h⟩ := except_bind_eq_ok.mp h
    exact ⟨draft, hdraft, (Except.ok.inj h).symm, (selectDraft_selects hdraft).demands hplain⟩
  · obtain ⟨count, base, hdrafts, rfl, -⟩ := page_eq_ok h
    obtain ⟨hcount, hbase⟩ := pageDrafts_selects hdrafts
    exact ⟨count, base, hdrafts, rfl, rfl, hcount.demands hplain, hbase.demands hplain⟩
  · obtain ⟨draft, hdraft, h⟩ := except_bind_eq_ok.mp h
    exact ⟨draft, hdraft, (Except.ok.inj h).symm, (validateDraft_selects hdraft).demands hplain⟩
  · obtain ⟨draft, hdraft, h⟩ := except_bind_eq_ok.mp h
    exact ⟨draft, hdraft, (Except.ok.inj h).symm, updateAt_demands hplain hdraft⟩
  · obtain ⟨drafts, hdrafts, hsql⟩ := updateBatch_eq_ok h
    have hmembers := (List.forall₂_and_left us.zipIdx drafts).mpr ⟨fun _ hx => hx, hdrafts⟩
    refine ⟨drafts, hmembers.imp fun x draft hx => ⟨hx.2, updateAt_demands ?_ hx.2⟩, hsql⟩
    exact hplain _ (List.fst_mem_of_mem_zipIdx hx.1)

/-- Customers with one of two properties and their orders above a total: the alternatives are put in
parentheses next to the condition of the join, and a pattern of dates that looks like the end of a
condition is none. -/
theorem alternatives_conditions_read :
    let orders := HasConditions.compare .greaterThan "total" (.int 10)
      (Query.new "o" (some "orders"))
    let customers := ((Query.new "c" (some "customer")).select "name").leftJoin
      (.new "id" "customer_id" orders)
    let q := HasConditions.orCompare .equal "id" (.int 3)
      (HasConditions.compareDate "name" .equal "') OR (" (.string "x") customers)
    (∃ s, shop.select q "customer" = .ok s ∧
      s.sql = "SELECT t0.name FROM customer t0 LEFT JOIN orders t1 ON (t0.id = t1.customer_id) " ++
        "WHERE (DATE_FORMAT(t0.name,''') OR (') = #\x7brequest.filter.filter_v0_tl_0\x7d OR " ++
        "t0.id = #\x7brequest.filter.filter_v0_tl_1\x7d) AND " ++
        "t1.total > #\x7brequest.filter.filter_v0_cl_fl0_0\x7d" ∧
      ∃ draft, shop.selectDraft q "customer" = .ok draft ∧ s = shop.finish draft ∧
        shop.DemandsRows "customer" q draft) ∧
    ∃ s, shop.updateBatch orderChanges "orders" = .ok s ∧ ∃ drafts,
      List.Forall₂ (fun x draft => shop.updateAt x.1 "orders" x.2 = .ok draft ∧
        shop.DemandsChange "orders" x.1 x.2 draft) orderChanges.zipIdx drafts ∧
      s.sql = String.join (drafts.map fun draft => shop.render draft ++ ";") := by
  intro orders customers q
  obtain ⟨hquery, -, -⟩ := conditions_read shop "customer"
  obtain ⟨-, -, hbatch⟩ := conditions_read shop "orders"
  have hplain : (shop.contextOf q "customer").PlainNames q.names := by decide +kernel
  have hplains : ∀ u ∈ orderChanges, (shop.updateContext u "orders").PlainNames
      (u.conditions.names ++ joinNames u.joins) := by decide +kernel
  constructor
  · have htext : (shop.select q "customer").toOption.map (·.sql) =
        some ("SELECT t0.name FROM customer t0 LEFT JOIN orders t1 " ++
          "ON (t0.id = t1.customer_id) " ++
          "WHERE (DATE_FORMAT(t0.name,''') OR (') = #\x7brequest.filter.filter_v0_tl_0\x7d OR " ++
          "t0.id = #\x7brequest.filter.filter_v0_tl_1\x7d) AND " ++
          "t1.total > #\x7brequest.filter.filter_v0_cl_fl0_0\x7d") := by
      decide +kernel
    obtain ⟨s, hs⟩ : ∃ s, shop.select q "customer" = .ok s := except_exists_ok (by decide +kernel)
    rw [hs] at htext
    obtain ⟨draft, hdraft, hfinish, hdemands⟩ := (hquery q hplain).1 s hs
    exact ⟨s, hs, Option.some.inj htext, draft, hdraft, hfinish, hdemands⟩
  · obtain ⟨s, hs⟩ : ∃ s, shop.updateBatch orderChanges "orders" = .ok s :=
      except_exists_ok (by decide +kernel)
    exact ⟨s, hs, hbatch orderChanges hplains s hs⟩

section Literal

open Resolve

/-- The condition that an expression is null has the resolved expression for its text. -/
theorem written_isNull {ctx : Context} {place : Place} {d : Table} {f : Fragment} (i : Nat)
    (name : String) (hd : ctx.schema.table place.table = .ok d)
    (hf : (ctx.expression ⟨place.table, place.token?, d⟩ name).Yields f .empty) :
    ctx.written ⟨place, i, name, .isNull⟩ = f ++ [.text " is null"] := by
  refine Context.written_eq (t := .empty) ?_
  rw [Context.resolveLeaf, Context.scopeAt_eq place hd]
  change (ctx.expression ⟨place.table, place.token?, d⟩ name >>= fun f => _).Yields _ _
  exact bind_yields.mpr ⟨f, _, _, hf, rfl, rfl⟩

/-- A shop that keeps notes on its customers. The expression for a note is balanced, but not when it
is read from inside a literal. -/
def notes : Compiler :=
  .new ⟨[("customer", ⟨[⟨"id", "id"⟩, ⟨"name", "name"⟩, ⟨"note", "concat(a,'(')"⟩]⟩),
    ("orders", ⟨[⟨"id", "id"⟩, ⟨"buyer", "customer_id"⟩, ⟨"total", "total"⟩]⟩)]⟩

/-- Customers with one of two properties and with an order that has no total. The first property
names the notes inside a literal. -/
def notedCustomers : Query :=
  let orders := HasConditions.isNull "total" (Query.new "o" (some "orders"))
  let customers := ((Query.new "c" (some "customer")).select "name").leftJoin
    (.new "id" "customer_id" orders)
  HasConditions.orWhere "id" .isNull (HasConditions.isNull "' note '" customers)

/-- What is known while the customers are resolved. -/
def notesContext : Context := notes.contextOf notedCustomers "customer"

/-- What the customers and their orders demand. -/
def notedGroups (path : Path) : List (Place × ConditionGroup) :=
  demands "customer" "c" (path.child "tl") (path.child "cl") notedCustomers.conditions
    notedCustomers.joins

/-- The formula that the condition of the customers is read as, if each of its leaves is one atom:
the last one is demanded together with the second one only. -/
def notedFormula (path : Path) : Formula Leaf :=
  .group (.atom ⟨⟨"customer", some "c", path.child "tl"⟩, 0, "' note '", .isNull⟩)
    [(.or, .atom ⟨⟨"customer", some "c", path.child "tl"⟩, 1, "id", .isNull⟩),
      (.and, .atom ⟨⟨"orders", some "o", (path.child "cl").childAt "fl" 0⟩, 0, "total", .isNull⟩)]

/-- The text of the formula, which does not depend on the path. -/
def notedText : Fragment :=
  [.text "'", .text " ", .column "c" "concat(a,'(')", .text " ", .text "'", .text " is null",
    .text " OR ", .column "c" "id", .text " is null", .text " AND ", .column "o" "total",
    .text " is null"]

/-- The condition of the customers is the text of the formula: the `OR` in it is not seen, so that
no parentheses are put around the alternatives. -/
theorem notedCustomers_condition {path : Path} {extent : Extent} {parts : SelectParts} {t : Trace}
    (h : (notesContext.selectParts "customer" path extent notedCustomers).Yields parts t) :
    parts.condition = notedText ∧ (notedFormula path).text notesContext.written = notedText := by
  have hcustomer : notesContext.schema.table "customer" =
      .ok ⟨[⟨"id", "id"⟩, ⟨"name", "name"⟩, ⟨"note", "concat(a,'(')"⟩]⟩ := rfl
  have horders : notesContext.schema.table "orders" =
      .ok ⟨[⟨"id", "id"⟩, ⟨"buyer", "customer_id"⟩, ⟨"total", "total"⟩]⟩ := rfl
  have hnote : notesContext.written
      ⟨⟨"customer", some "c", path.child "tl"⟩, 0, "' note '", .isNull⟩ =
        [.text "'", .text " ", .column "c" "concat(a,'(')", .text " ", .text "'"] ++
          [.text " is null"] := written_isNull 0 "' note '" hcustomer rfl
  have hid : notesContext.written
      ⟨⟨"customer", some "c", path.child "tl"⟩, 1, "id", .isNull⟩ =
        [.column "c" "id"] ++ [.text " is null"] := written_isNull 1 "id" hcustomer rfl
  have htotal : notesContext.written
      ⟨⟨"orders", some "o", (path.child "cl").childAt "fl" 0⟩, 0, "total", .isNull⟩ =
        [.column "o" "total"] ++ [.text " is null"] := written_isNull 0 "total" horders rfl
  have hformulas : formulas (notedGroups path) =
      [.group (.atom ⟨⟨"customer", some "c", path.child "tl"⟩, 0, "' note '", .isNull⟩)
          [(.or, .atom ⟨⟨"customer", some "c", path.child "tl"⟩, 1, "id", .isNull⟩)],
        .group (.atom ⟨⟨"orders", some "o", (path.child "cl").childAt "fl" 0⟩, 0, "total",
          .isNull⟩) []] := rfl
  have hcondition : parts.condition = combineWhere notesContext.root
      ((formulas (notedGroups path)).map (Formula.text notesContext.written)) :=
    Context.selectParts_condition h
  rw [hcondition, hformulas]
  simp only [List.map_cons, List.map_nil, notedFormula, Formula.text, Formula.unit,
    Formula.restText, hnote, hid, htotal]
  exact ⟨rfl, rfl⟩

/-- Read as a text, the condition of the customers is a single atom: its first leaf leaves a
parenthesis open, which hides all connectors. -/
theorem readCondition_notedText :
    (readCondition (notedText.render notes.root (.ofMentions ["c", "o"])).toList).atoms =
      [(notedText.render notes.root (.ofMentions ["c", "o"])).toList] := by
  have hwords : words Nesting.outer (notedText.render notes.root (.ofMentions ["c", "o"])).toList =
      [(notedText.render notes.root (.ofMentions ["c", "o"])).toList] := by decide +kernel
  have hcut : cutAtConnectors [(notedText.render notes.root (.ofMentions ["c", "o"])).toList] =
      ([(notedText.render notes.root (.ofMentions ["c", "o"])).toList], []) := by decide +kernel
  rw [readCondition_eq, hwords, hcut, readPart_of_inner? (by decide +kernel)]
  rfl

/-- A column that is named inside a literal is put into the literal. Where it leaves a parenthesis
open there, the `OR` behind it is not seen, and the alternatives stand without parentheses next to
the condition of the join: the first of them holds without that condition. -/
theorem quoted_column_hides_alternative :
    (Plain notesContext.root.toList ∧ notesContext.schema.Sound ∧
      (∀ r ∈ notesContext.references, Balanced r.1.toList ∧ Balanced r.2.toList) ∧
      ∀ s ∈ notedCustomers.names, Plain s.toList) ∧
    ∃ s draft, notes.select notedCustomers "customer" = .ok s ∧
      s.sql = "SELECT t0.name FROM customer t0 LEFT JOIN orders t1 ON (t0.id = t1.customer_id) " ++
        "WHERE ' t0.concat(a,'(') ' is null OR t0.id is null AND t1.total is null" ∧
      notes.selectDraft notedCustomers "customer" = .ok draft ∧ s = notes.finish draft ∧
      ¬notes.DemandsRows "customer" notedCustomers draft ∧
      ∃ parts path, notesContext.ShowsSelect ("customer", notedCustomers) draft.1 parts path ∧
        parts.condition = (notedFormula path).text notesContext.written ∧
        (notedFormula path).atoms = leavesOf (notedGroups path) ∧
        ∃ ρ, (notedFormula path).value ρ = true ∧ holdAll ρ (notedGroups path) = false := by
  have hsql : (notes.select notedCustomers "customer").toOption.map (·.sql) =
      some ("SELECT t0.name FROM customer t0 LEFT JOIN orders t1 " ++
        "ON (t0.id = t1.customer_id) " ++
        "WHERE ' t0.concat(a,'(') ' is null OR t0.id is null AND t1.total is null") := by
    decide +kernel
  have hmentioned : (notes.selectDraft notedCustomers "customer").toOption.map (·.2.mentioned) =
      some ["c", "o"] := by decide +kernel
  obtain ⟨s, hs⟩ : ∃ s, notes.select notedCustomers "customer" = .ok s :=
    except_exists_ok (by decide +kernel)
  obtain ⟨draft, hdraft, hfinish⟩ := except_bind_eq_ok.mp hs
  rw [hs] at hsql
  rw [hdraft] at hmentioned
  have hmentioned : draft.2.mentioned = ["c", "o"] := Option.some.inj hmentioned
  have hmember : ("customer", notedCustomers) ∈ notedCustomers.allCompounds "customer" :=
    List.mem_cons_self
  have hselected : ("customer", notedCustomers) ∈ notedCustomers.selects "customer" :=
    List.mem_cons_self
  refine ⟨⟨by decide +kernel, by decide +kernel, by decide +kernel, by decide +kernel⟩, s, draft,
    hs, Option.some.inj hsql, hdraft, (Except.ok.inj hfinish).symm, fun h => ?_, ?_⟩
  · obtain ⟨parts, path, ⟨⟨extent, t, hparts⟩, -⟩, hmeans⟩ := h _ hmember _ hselected
    obtain ⟨hcondition, -⟩ := notedCustomers_condition hparts
    obtain ⟨F, hread, hatoms, -⟩ := hmeans.read (hcondition ▸ List.cons_ne_nil _ _)
    rw [hcondition, hmentioned] at hread
    -- The conditions have three leaves, but their text is read as one atom.
    have hthree : (readCondition (notedText.render notes.root
        (.ofMentions ["c", "o"])).toList).atoms.length = 3 := by
      refine (congrArg (·.atoms.length) hread).trans ?_
      rw [Formula.atoms_map, List.length_map, hatoms]
      rfl
    rw [readCondition_notedText] at hthree
    exact absurd hthree (by decide)
  · obtain ⟨parts, path, hshows⟩ := (selectDraft_selects hdraft).1 _ hmember |>.1 _ hselected
    obtain ⟨⟨extent, t, hparts⟩, -⟩ := id hshows
    obtain ⟨hcondition, htext⟩ := notedCustomers_condition hparts
    refine ⟨parts, path, hshows, hcondition.trans htext.symm, rfl,
      fun leaf => leaf.field == "' note '", ?_, ?_⟩
    · rfl
    · rfl

end Literal

end Compiler

end DynamicSql

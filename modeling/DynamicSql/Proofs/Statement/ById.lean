import DynamicSql.Proofs.Resolve.Infix
import DynamicSql.Proofs.Statement.Success
import DynamicSql.Statement.Template

/-!
# Rows by their `id`

A description that asks for an `id` is compiled to a demand on the column that the description of
the table gives for the field `id`, and is refused if there is none (`asks_for_id`). The statements
written by hand demand a value of the column `id` whatever the table looks like, so the two kinds of
statements find the same rows only where `id` stands for itself.
-/

namespace DynamicSql

/-- What a row is demanded to satisfy: a column has the value that is bound at a place. -/
def columnDemand (token? : Option Token) (column : String) (slot : Slot) : Fragment :=
  Fragment.qualified token? column ++ [.text " = ", .marker slot]

/-- A demand on a column without a token is the column and its marker. -/
theorem render_columnDemand_none {root : String} {aliases : Aliases} (column : String)
    (slot : Slot) : (columnDemand none column slot).render root aliases =
      column ++ " = " ++ slot.marker root := by
  have hmarker : Fragment.render root aliases [.marker slot] = slot.marker root := by
    simp [Fragment.render, Fragment.pieceChars]
  rw [columnDemand, Fragment.qualified, List.cons_append, List.nil_append,
    Fragment.render_text_cons, Fragment.render_text_cons, hmarker, String.append_assoc]

/-- With a token, the alias stands in front. -/
theorem render_columnDemand_some {root : String} {aliases : Aliases} (token : Token)
    (column : String) (slot : Slot) : (columnDemand (some token) column slot).render root aliases =
      aliases.text token ++ "." ++ (columnDemand none column slot).render root aliases := by
  rw [columnDemand, columnDemand, Fragment.qualified, Fragment.qualified, List.singleton_append,
    List.singleton_append, Fragment.render_column_cons, Fragment.render_text_cons,
    Fragment.render_text_cons, Fragment.render_text_cons, String.append_assoc]

/-- A fragment with nothing behind it. -/
theorem render_append_blank {root : String} {aliases : Aliases} (f : Fragment) :
    Fragment.render root aliases (f ++ [.text ""]) = f.render root aliases := by
  rw [Fragment.render_append, Fragment.render_text_cons, Fragment.render_nil, String.append_empty,
    String.append_empty]

/-- The text that reads rows by the value of a column. -/
def selectionSql (columns source column marker : String) : String :=
  "SELECT " ++ columns ++ " FROM " ++ source ++ " WHERE " ++ column ++ " = " ++ marker

/-- The text that deletes rows by the value of a column. -/
def deletionSql (table column marker : String) : String :=
  "DELETE FROM " ++ table ++ " WHERE " ++ column ++ " = " ++ marker

/-- A draft demands a value of a column, and binds this value. -/
structure Draft.DemandsValue (draft : Draft) (token? : Option Token) (column : String)
    (slot : Slot) (v : Value) : Prop where
  demand : columnDemand token? column slot <:+: draft.1
  bound : (slot, v) ∈ draft.2.bound

namespace Context

open Resolve

variable {ctx : Context} {scope : Scope} {path : Path} {i : Nat} {v : Value}

/-- Asking for an `id` looks up the column for this field and binds the value. -/
theorem conditionText_byId :
    (ctx.conditionText scope path i "id" (.compare .equal v)).run =
      (scope.table.resolve? "id").elim (.error (.unknownField "id" scope.name)) fun column =>
        .ok (columnDemand scope.token? column ⟨.compared, path, i, none⟩,
          ⟨[], [(⟨.compared, path, i, none⟩, v)]⟩) := by
  have hreference : reference? "id" = none := by decide
  have hequality : Comparison.equal.isEquality = true := rfl
  rw [conditionText, simpleCondition, comparand, if_pos hequality, field, findColumn, hreference]
  · cases scope.table.resolve? "id" <;> rfl
  · intros
    contradiction

/-- What asking for an `id` gives is the demand on its column. -/
theorem conditionText_byId_yields {f : Fragment} {t : Trace}
    (h : (ctx.conditionText scope path i "id" (.compare .equal v)).Yields f t) :
    ∃ column, scope.table.resolve? "id" = some column ∧
      f = columnDemand scope.token? column ⟨.compared, path, i, none⟩ ∧
      t = ⟨[], [(⟨.compared, path, i, none⟩, v)]⟩ := by
  rw [Yields, conditionText_byId] at h
  cases hcolumn : scope.table.resolve? "id" with
  | none =>
    rw [hcolumn] at h
    cases h
  | some column =>
    rw [hcolumn] at h
    obtain ⟨rfl, rfl⟩ := Prod.mk.inj (Except.ok.inj h)
    exact ⟨column, rfl, rfl, rfl⟩

/-- Each condition among others is resolved by itself, and its text stands among theirs. -/
theorem conditionTerms_member {front : List Condition} {connector : Connector} {field : String}
    {filter : Filter} {back : List Condition} {terms : List Term} {t : Trace}
    (h : (ctx.conditionTerms scope path i (front ++ ⟨connector, field, filter⟩ :: back)).Yields
      terms t) :
    ∃ f u, (ctx.conditionText scope path (i + front.length) field filter).Yields f u ∧
      f <:+: Term.whereText terms ∧ u.bound ⊆ t.bound := by
  induction front generalizing i terms t with
  | nil =>
    obtain ⟨f, u, others, t', hf, -, rfl, rfl⟩ := conditionTerms_cons_yields h
    refine ⟨f, u, hf, ?_, ?_⟩
    · exact (List.prefix_append f _).isInfix
    · exact List.subset_append_left _ _
  | cons condition front ih =>
    obtain ⟨_, _, _⟩ := condition
    obtain ⟨text, t₁, others, t₂, -, hothers, rfl, rfl⟩ := conditionTerms_cons_yields h
    obtain ⟨f, u, hf, hpart, hbound⟩ := ih hothers
    refine ⟨f, u, ?_, hpart.trans (Term.infix_whereText_cons _ others), ?_⟩
    · rw [List.length_cons, Nat.add_comm front.length, ← Nat.add_assoc]
      exact hf
    · exact List.Subset.trans hbound (List.subset_append_right _ _)

/-- Conditions that ask for an `id` demand a value of the column for this field. -/
theorem groupTerms_byId {g : ConditionGroup} {terms : List Term} {t : Trace}
    (h : (ctx.groupTerms scope path (HasConditions.byId v g)).Yields terms t) :
    ∃ column, scope.table.resolve? "id" = some column ∧
      columnDemand scope.token? column ⟨.compared, path, g.conditions.length, none⟩ <:+:
        Term.whereText terms ∧
      (⟨.compared, path, g.conditions.length, none⟩, v) ∈ t.bound := by
  obtain ⟨leaves, t₁, others, t₂, hleaves, -, rfl, rfl⟩ := groupTerms_yields h
  obtain ⟨f, u, hf, hpart, hbound⟩ := conditionTerms_member hleaves
  rw [Nat.zero_add] at hf
  obtain ⟨column, hcolumn, rfl, rfl⟩ := conditionText_byId_yields hf
  refine ⟨column, hcolumn, hpart.trans (Term.infix_whereText_left leaves others), ?_⟩
  exact List.mem_append_left _ (hbound (List.mem_singleton_self _))

/-- Conditions that ask for an `id` and nothing else are this demand. -/
theorem groupTerms_onlyId {column : String} (hcolumn : scope.table.resolve? "id" = some column) :
    (ctx.groupTerms scope path (HasConditions.byId v .empty)).Yields
      [.leaf .and (columnDemand scope.token? column ⟨.compared, path, 0, none⟩)]
      ⟨[], [(⟨.compared, path, 0, none⟩, v)]⟩ := by
  have htext : (ctx.conditionText scope path 0 "id" (.compare .equal v)).run = _ :=
    conditionText_byId
  rw [hcolumn] at htext
  have hterms : (ctx.conditionTerms scope path 0 [⟨.and, "id", .compare .equal v⟩]).run =
      .ok ([.leaf .and (columnDemand scope.token? column ⟨.compared, path, 0, none⟩)],
        ⟨[], [(⟨.compared, path, 0, none⟩, v)]⟩) := by
    rw [conditionTerms, run_bind, htext]
    rfl
  change (ctx.groupTerms scope path ⟨[⟨.and, "id", .compare .equal v⟩], []⟩).run = _
  rw [groupTerms, run_bind, hterms]
  rfl

/-- A table of which a name stands for a column has columns to show. -/
theorem allColumns_ne_nil {name column : String} (h : scope.table.resolve? name = some column) :
    allColumns scope [] ≠ [] := by
  have hcolumns : scope.table.columns ≠ [] := by
    intro hempty
    simp [Table.resolve?, Table.columnOf?, Table.hasColumn, hempty] at h
  simpa [allColumns] using hcolumns

/-- A deletion that asks for an `id` and nothing else. -/
theorem delete_onlyId {table column : String} {d : Table} (hd : ctx.schema.table table = .ok d)
    (hcolumn : d.resolve? "id" = some column) :
    (ctx.delete (HasConditions.byId v .empty) table).Yields
      (.text ("DELETE FROM " ++ table ++ " WHERE ") ::
        columnDemand none column ⟨.compared, (Path.ofRoot 0).child "dt", 0, none⟩ ++ [.text ""])
      ⟨[], [(⟨.compared, (Path.ofRoot 0).child "dt", 0, none⟩, v)]⟩ := by
  have htail : writeTail ctx.dialect "delete" table [] none = .ok [.text ""] := by
    rw [writeTail]
    cases ctx.dialect <;> rfl
  simp only [delete, bind_yields, ofExcept_yields]
  refine ⟨d, _, _, ⟨hd, rfl⟩, ⟨_, _, .empty,
    groupTerms_onlyId hcolumn, ?_, rfl⟩, rfl⟩
  simp only [List.isEmpty_cons, Bool.false_eq_true, if_false, bind_yields, ofExcept_yields,
    pure_yields]
  exact ⟨_, _, _, ⟨htail, rfl⟩, ⟨rfl, rfl⟩, rfl⟩

/-- A query with columns and conditions only is resolved to its columns, its table and the terms of
its conditions. -/
theorem compoundSelect_alone {table : String} {d : Table} {token : Token} (own : Option String)
    {items : List SelectItem} {conditions : ConditionGroup} {shown : List Fragment}
    {terms : List Term} {t u : Trace} (hd : ctx.schema.table table = .ok d)
    (hshown : (ctx.shownColumns ⟨table, some token, d⟩ { columns := items }).Yields shown t)
    (hne : shown ≠ []) (hterms : (ctx.groupTerms ⟨table, some token, d⟩ ((Path.ofRoot 0).child "tl")
      conditions).Yields terms u) :
    (ctx.compoundSelect table (.ofRoot 0)
        ⟨own, token, { columns := items }, conditions, [], []⟩).Yields
      (.text "SELECT " :: Fragment.join ", " shown ++ .text " FROM " :: .table table token ::
        if (combineWhere ctx.root [Term.whereText terms]).isEmpty then []
        else .text " WHERE " :: combineWhere ctx.root [Term.whereText terms])
      (⟨[token], []⟩ ++ (t ++ u)) := by
  have hlists : (ctx.collect ⟨table, some token, d⟩ { columns := items }
      ((Path.ofRoot 0).child "gh")
      (ctx.shownColumns ⟨table, some token, d⟩ { columns := items }) .everything).Yields
      ⟨shown, [], [], []⟩ t := by
    refine bind_yields.mpr ⟨shown, t, .empty, hshown, ?_, (Trace.append_empty t).symm⟩
    rfl
  have hparts : (ctx.selectParts table (.ofRoot 0) .everything
      ⟨own, token, { columns := items }, conditions, [], []⟩).Yields
      (ctx.assemble table token ⟨shown, [], [], []⟩ .empty terms) (⟨[token], []⟩ ++ (t ++ u)) := by
    rw [selectParts]
    refine bind_yields.mpr ⟨_, _, _, openScope_yields.mpr ⟨d, hd, rfl, rfl⟩, ?_, rfl⟩
    refine bind_yields.mpr ⟨_, t, u, hlists, ?_, rfl⟩
    refine bind_yields.mpr ⟨.empty, .empty, u, rfl, ?_, rfl⟩
    exact bind_yields.mpr ⟨terms, u, .empty, hterms, rfl, (Trace.append_empty u).symm⟩
  have hparts : (ctx.shownParts table (.ofRoot 0)
      ⟨own, token, { columns := items }, conditions, [], []⟩).Yields
      (ctx.assemble table token ⟨shown, [], [], []⟩ .empty terms) (⟨[token], []⟩ ++ (t ++ u)) := by
    refine bind_yields.mpr ⟨_, _, .empty, hparts, ?_, (Trace.append_empty _).symm⟩
    refine bind_yields.mpr ⟨(), .empty, .empty, requireColumns_yields.mpr ⟨?_, rfl⟩, rfl, rfl⟩
    exact List.append_ne_nil_of_left_ne_nil hne []
  have hselect : (ctx.assemble table token ⟨shown, [], [], []⟩ .empty terms).select =
      .text "SELECT " :: Fragment.join ", " shown ++ .text " FROM " :: .table table token ::
        if (combineWhere ctx.root [Term.whereText terms]).isEmpty then []
        else .text " WHERE " :: combineWhere ctx.root [Term.whereText terms] := by
    have hlists : (⟨shown, [], [], []⟩ ++ Joined.empty.collected : Collected) =
        ⟨shown, [], [], []⟩ := congrArg (Collected.mk · [] [] []) (List.append_nil shown)
    simp only [assemble, hlists, SelectParts.select, SelectParts.body, SelectParts.clause]
    simp [Joined.empty]
  refine bind_yields.mpr ⟨_, _, .empty, hparts, ?_, (Trace.append_empty _).symm⟩
  exact bind_yields.mpr ⟨[], .empty, .empty, rfl, pure_yields.mpr ⟨hselect.symm, rfl⟩, rfl⟩

/-- A query that asks for an `id` and nothing else shows all columns of its table. -/
theorem compoundSelect_onlyId {table column : String} {d : Table} {token : Token}
    (own : Option String) (hd : ctx.schema.table table = .ok d)
    (hcolumn : d.resolve? "id" = some column) :
    (ctx.compoundSelect table (.ofRoot 0) (HasConditions.byId v (.new token own))).Yields
      (.text "SELECT " :: Fragment.join ", " (allColumns ⟨table, some token, d⟩ []) ++
        .text " FROM " :: .table table token :: .text " WHERE " ::
          columnDemand (some token) column ⟨.compared, (Path.ofRoot 0).child "tl", 0, none⟩)
      ⟨[token], [(⟨.compared, (Path.ofRoot 0).child "tl", 0, none⟩, v)]⟩ := by
  have hcolumns : allColumns ⟨table, some token, d⟩ [] ≠ [] := allColumns_ne_nil hcolumn
  have hterms : (ctx.groupTerms ⟨table, some token, d⟩ ((Path.ofRoot 0).child "tl")
      (HasConditions.byId v .empty)).Yields _ _ := groupTerms_onlyId hcolumn
  have hcondition : combineWhere ctx.root [Term.whereText [.leaf .and (columnDemand (some token)
      column ⟨.compared, (Path.ofRoot 0).child "tl", 0, none⟩)]] =
      columnDemand (some token) column ⟨.compared, (Path.ofRoot 0).child "tl", 0, none⟩ := rfl
  have hshown : (ctx.shownColumns ⟨table, some token, d⟩ {}).Yields
      (allColumns ⟨table, some token, d⟩ []) .empty := rfl
  have hquery := compoundSelect_alone own hd hshown hcolumns hterms
  rw [hcondition] at hquery
  exact hquery

/-- The conditions of a query stand in its `SELECT`, with its branches or without. -/
theorem infix_ownConditions {table : String} {token : Token} {own : Collected} {added : Joined}
    (terms : List Term) (branches : Fragment) : Term.whereText terms <:+:
      compound (ctx.assemble table token own added terms).select branches := by
  have hcondition := Fragment.infix_combineWhere ctx.root
    (List.mem_cons_self (a := Term.whereText terms) (l := added.conditions))
  have hselect := (infix_condition (ctx.assemble table token own added terms)).trans (infix_body _)
  exact (hcondition.trans hselect).trans (infix_select _ branches)

end Context

namespace Compiler

variable {c : Compiler} {table : String} {d : Table} {draft : Draft} {id : Value}

/-- The place of the value in a query that asks for an `id` behind its other conditions. -/
def queryIdSlot (q : Query) : Slot :=
  ⟨.compared, (Path.ofRoot 0).child "tl", q.conditions.conditions.length, none⟩

/-- The place of the value in a deletion that asks for an `id` behind its other conditions. -/
def deletionIdSlot (x : Delete) : Slot :=
  ⟨.compared, (Path.ofRoot 0).child "dt", x.conditions.conditions.length, none⟩

/-- A query that asks for an `id` demands a value of the column for this field. -/
theorem selectDraft_byId {q : Query} (hd : c.schema.table table = .ok d)
    (h : c.selectDraft (HasConditions.byId id q) table = .ok draft) :
    ∃ column, d.resolve? "id" = some column ∧
      draft.DemandsValue (some q.token) column (queryIdSlot q) id := by
  obtain ⟨ctx, f, hctx, hf, hdraft⟩ := selectDraft_eq_ok h
  obtain ⟨-, rfl⟩ := context_eq_ok hctx
  obtain ⟨parts, t₁, branches, t₂, hparts, -, -, rfl, htrace⟩ := Context.compoundSelect_yields hf
  obtain ⟨own, token, clauses, conditions, joins, unions⟩ := q
  obtain ⟨d', lists, u₁, added, u₂, terms, u₃, hd', -, -, hterms, rfl, rfl⟩ :=
    Context.selectParts_yields hparts
  obtain rfl : d' = d := Except.ok.inj (hd'.symm.trans hd)
  obtain ⟨column, hcolumn, hpart, hbound⟩ := Context.groupTerms_byId hterms
  refine ⟨column, hcolumn, ?_, ?_⟩
  · rw [hdraft]
    exact (hpart.trans (Context.infix_ownConditions _ branches)).trans
      (List.prefix_append _ _).isInfix
  · rw [htrace]
    exact List.mem_append_left _
      (List.mem_append_right _ (List.mem_append_right _ (List.mem_append_right _ hbound)))

/-- A deletion that asks for an `id` demands a value of the column for this field. -/
theorem deleteDraft_byId {x : Delete} (hd : c.schema.table table = .ok d)
    (h : c.deleteDraft (HasConditions.byId id x) table = .ok draft) :
    ∃ column, d.resolve? "id" = some column ∧
      draft.DemandsValue none column (deletionIdSlot x) id := by
  obtain ⟨ctx, hctx, hdelete⟩ := deleteDraft_eq_ok h
  obtain ⟨-, rfl⟩ := context_eq_ok hctx
  obtain ⟨d', terms, hd', hterms, hf⟩ := Context.delete_yields hdelete
  obtain rfl : d' = d := Except.ok.inj (hd'.symm.trans hd)
  obtain ⟨column, hcolumn, hpart, hbound⟩ := Context.groupTerms_byId hterms
  refine ⟨column, hcolumn, ?_, hbound⟩
  rw [hf]
  exact hpart.trans ((List.infix_cons (List.infix_refl _)).trans (List.prefix_append _ _).isInfix)

/-- A query that asks for an `id` and nothing else reads all columns of the rows with a value in the
column for this field. -/
theorem select_onlyId {column : String} (token : Token) (own : Option String)
    (hd : c.schema.table table = .ok d) (hcolumn : d.resolve? "id" = some column) :
    ∃ columns, c.select (HasConditions.byId id (.new token own)) table = .ok
      ⟨selectionSql columns (table ++ " t0") ("t0." ++ column)
          ((queryIdSlot (.new token own)).marker c.root),
        .ofBound [(queryIdSlot (.new token own), id)]⟩ := by
  have hselect : ((c.contextOf (HasConditions.byId id (.new token own)) table).compoundSelect table
      (.ofRoot 0) (HasConditions.byId id (.new token own))).run = _ :=
    Context.compoundSelect_onlyId own hd hcolumn
  have hctx : c.queryContext (HasConditions.byId id (.new token own)) table =
      .ok (c.contextOf (HasConditions.byId id (.new token own)) table) := rfl
  refine ⟨(Fragment.join ", " (Context.allColumns ⟨table, some token, d⟩ [])).render c.root
    (.ofMentions [token]), ?_⟩
  rw [select, selectDraft, hctx]
  simp only [bind, Except.bind, hselect]
  refine congrArg (fun sql => Except.ok (Statement.mk sql _)) ?_
  have hlimit : Dialect.limitClause
      (HasConditions.byId id (Query.new token own)).clauses.limit = "" := rfl
  have hsource : " t0" = " " ++ "t0" := by decide
  have hqualifier : "t0." = "t0" ++ "." := by decide
  rw [hlimit, render, render_append_blank]
  change _ = "SELECT " ++ _ ++ " FROM " ++ (table ++ " t0") ++ " WHERE " ++ ("t0." ++ column) ++
    " = " ++ _
  simp only [hsource, hqualifier, Fragment.render_append, Fragment.render_text_cons,
    Fragment.render_table_cons, render_columnDemand_some, render_columnDemand_none,
    Aliases.text_ofMentions_singleton, List.cons_append, String.append_assoc]
  rfl

/-- A deletion that asks for an `id` and nothing else. -/
theorem delete_onlyId {column : String} (hd : c.schema.table table = .ok d)
    (hcolumn : d.resolve? "id" = some column) :
    c.delete (HasConditions.byId id .empty) table = .ok
      ⟨deletionSql table column ((deletionIdSlot .empty).marker c.root),
        .ofBound [(deletionIdSlot .empty, id)]⟩ := by
  let ctx : Context := ⟨c.schema, c.dialect, c.root, []⟩
  have hdraft : c.deleteDraft (HasConditions.byId id .empty) table = .ok (_, _) :=
    ctx.delete_onlyId hd hcolumn
  rw [delete, hdraft]
  refine congrArg (fun sql => Except.ok (Statement.mk sql _)) ?_
  rw [render, render_append_blank, Fragment.render_text_cons, render_columnDemand_none]
  change _ = "DELETE FROM " ++ table ++ " WHERE " ++ column ++ " = " ++ _
  simp only [String.append_assoc]
  rfl

/-- The demand on a column named `id` is the text that is asked for. -/
theorem idCondition_eq (front marker : String) :
    front ++ " WHERE id = " ++ marker = front ++ " WHERE " ++ "id" ++ " = " ++ marker := by
  have hcondition : " WHERE id = " = " WHERE " ++ "id" ++ " = " := by decide
  calc front ++ " WHERE id = " ++ marker
      = front ++ (" WHERE " ++ "id" ++ " = ") ++ marker :=
        congrArg (front ++ · ++ marker) hcondition
    _ = _ := by simp only [String.append_assoc]

/-- A deletion written by hand compares the column `id`. -/
theorem deleteById_eq (root table : String) (id : Value) : deleteById root table id =
    ⟨deletionSql table "id" (idSlot.marker root), .ofBound [(idSlot, id)]⟩ :=
  congrArg (Statement.mk · _) (idCondition_eq ("DELETE FROM " ++ table) (idSlot.marker root))

/-- A query written by hand compares the column `id`. -/
theorem selectById_eq (root table : String) (d : Table) (id : Value) :
    ∃ columns, selectById root table d id =
      ⟨selectionSql columns table "id" (idSlot.marker root), .ofBound [(idSlot, id)]⟩ :=
  ⟨_, congrArg (Statement.mk · _) (idCondition_eq ("SELECT " ++ ", ".intercalate (d.columns.map
    fun c => if c.field = c.column then c.column else c.column ++ " AS " ++ c.field) ++ " FROM " ++
    table) (idSlot.marker root))⟩

/-- Two ways to find the rows with an `id`. The statements written by hand are made for every table
and compare its column `id`. A query or a deletion that asks for an `id`, whatever else it asks for,
compares the column that the description of the table gives for the field `id`, or is refused if
there is none; and nothing else is needed for it to be compiled. -/
theorem by_id_columns (c : Compiler) {table : String} {d : Table}
    (hd : c.schema.table table = .ok d) (id : Value) :
    deleteById c.root table id =
      ⟨deletionSql table "id" (idSlot.marker c.root), .ofBound [(idSlot, id)]⟩ ∧
    (∃ columns, selectById c.root table d id =
      ⟨selectionSql columns table "id" (idSlot.marker c.root), .ofBound [(idSlot, id)]⟩) ∧
    (∀ q s, c.select (HasConditions.byId id q) table = .ok s → ∃ column draft,
      d.resolve? "id" = some column ∧
      c.selectDraft (HasConditions.byId id q) table = .ok draft ∧ s = c.finish draft ∧
      draft.DemandsValue (some q.token) column (queryIdSlot q) id) ∧
    (∀ x s, c.delete (HasConditions.byId id x) table = .ok s → ∃ column draft,
      d.resolve? "id" = some column ∧
      c.deleteDraft (HasConditions.byId id x) table = .ok draft ∧ s = c.finish draft ∧
      draft.DemandsValue none column (deletionIdSlot x) id) ∧
    (∀ column, d.resolve? "id" = some column →
      c.delete (HasConditions.byId id .empty) table = .ok
        ⟨deletionSql table column ((deletionIdSlot .empty).marker c.root),
          .ofBound [(deletionIdSlot .empty, id)]⟩ ∧
      ∀ token own, ∃ columns, c.select (HasConditions.byId id (.new token own)) table = .ok
        ⟨selectionSql columns (table ++ " t0") ("t0." ++ column)
            ((queryIdSlot (.new token own)).marker c.root),
          .ofBound [(queryIdSlot (.new token own), id)]⟩) ∧
    (d.resolve? "id" = none →
      (∀ q, ∃ e, c.select (HasConditions.byId id q) table = .error e) ∧
      ∀ x, ∃ e, c.delete (HasConditions.byId id x) table = .error e) := by
  have hselect : ∀ q s, c.select (HasConditions.byId id q) table = .ok s → ∃ column draft,
      d.resolve? "id" = some column ∧
      c.selectDraft (HasConditions.byId id q) table = .ok draft ∧ s = c.finish draft ∧
      draft.DemandsValue (some q.token) column (queryIdSlot q) id := by
    intro q s h
    obtain ⟨draft, hdraft, h⟩ := except_bind_eq_ok.mp h
    obtain ⟨column, hcolumn, hdemand⟩ := selectDraft_byId hd hdraft
    exact ⟨column, draft, hcolumn, hdraft, (Except.ok.inj h).symm, hdemand⟩
  have hdelete : ∀ x s, c.delete (HasConditions.byId id x) table = .ok s → ∃ column draft,
      d.resolve? "id" = some column ∧
      c.deleteDraft (HasConditions.byId id x) table = .ok draft ∧ s = c.finish draft ∧
      draft.DemandsValue none column (deletionIdSlot x) id := by
    intro x s h
    obtain ⟨draft, hdraft, h⟩ := except_bind_eq_ok.mp h
    obtain ⟨column, hcolumn, hdemand⟩ := deleteDraft_byId hd hdraft
    exact ⟨column, draft, hcolumn, hdraft, (Except.ok.inj h).symm, hdemand⟩
  refine ⟨deleteById_eq c.root table id, selectById_eq c.root table d id, hselect, hdelete,
    fun column hcolumn => ⟨delete_onlyId hd hcolumn,
      fun token own => select_onlyId token own hd hcolumn⟩,
    fun hunknown => ⟨fun q => ?_, fun x => ?_⟩⟩
  · cases h : c.select (HasConditions.byId id q) table with
    | error e => exact ⟨e, rfl⟩
    | ok s =>
      obtain ⟨column, -, hcolumn, -⟩ := hselect q s h
      rw [hunknown] at hcolumn
      cases hcolumn
  · cases h : c.delete (HasConditions.byId id x) table with
    | error e => exact ⟨e, rfl⟩
    | ok s =>
      obtain ⟨column, -, hcolumn, -⟩ := hdelete x s h
      rw [hunknown] at hcolumn
      cases hcolumn

/-- Users have their `id` in another column, which only a compiled deletion compares. Lines of a log
have none, so they are deleted by hand only. -/
theorem renamed_by_id_columns :
    let c := new ⟨[("user", ⟨[⟨"id", "user_id"⟩, ⟨"name", "name"⟩]⟩),
      ("log", ⟨[⟨"line", "line"⟩]⟩)]⟩
    c.delete (HasConditions.byId (.int 7) .empty) "user" = .ok
      ⟨"DELETE FROM user WHERE user_id = #\x7brequest.filter.filter_v0_dt_0\x7d",
        .ofBound [(deletionIdSlot .empty, .int 7)]⟩ ∧
    deleteById c.root "user" (.int 7) =
      ⟨"DELETE FROM user WHERE id = #\x7brequest.filter.filter_v0_id_0\x7d",
        .ofBound [(idSlot, .int 7)]⟩ ∧
    (∃ e, c.delete (HasConditions.byId (.int 7) .empty) "log" = .error e) ∧
    deleteById c.root "log" (.int 7) =
      ⟨"DELETE FROM log WHERE id = #\x7brequest.filter.filter_v0_id_0\x7d",
        .ofBound [(idSlot, .int 7)]⟩ := by
  intro c
  have huser : c.schema.table "user" = .ok ⟨[⟨"id", "user_id"⟩, ⟨"name", "name"⟩]⟩ := by rfl
  have hlog : c.schema.table "log" = .ok ⟨[⟨"line", "line"⟩]⟩ := by rfl
  obtain ⟨hdeleteUser, -, -, -, hcompiled, -⟩ := by_id_columns c huser (.int 7)
  obtain ⟨hdeleteLog, -, -, -, -, hrefused⟩ := by_id_columns c hlog (.int 7)
  have hcompiledSql : deletionSql "user" "user_id" ((deletionIdSlot .empty).marker c.root) =
      "DELETE FROM user WHERE user_id = #\x7brequest.filter.filter_v0_dt_0\x7d" := by decide +kernel
  have hwritten : ∀ table : String, deletionSql table "id" (idSlot.marker c.root) =
      "DELETE FROM " ++ table ++ " WHERE id = #\x7brequest.filter.filter_v0_id_0\x7d" := by
    intro table
    have hcondition : " WHERE id = #\x7brequest.filter.filter_v0_id_0\x7d" =
        " WHERE " ++ "id" ++ " = " ++ idSlot.marker c.root := by decide +kernel
    rw [hcondition]
    change "DELETE FROM " ++ table ++ " WHERE " ++ "id" ++ " = " ++ _ = _
    simp only [String.append_assoc]
  rw [hwritten] at hdeleteUser hdeleteLog
  have hcompiled := (hcompiled "user_id" (by decide)).1
  rw [hcompiledSql] at hcompiled
  exact ⟨hcompiled, hdeleteUser, (hrefused (by decide)).2 .empty, hdeleteLog⟩

end Compiler

end DynamicSql

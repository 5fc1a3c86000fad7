import DynamicSql.Proofs.Resolve.Fields
import DynamicSql.Proofs.Statement.ById
import DynamicSql.Proofs.Statement.Joins

/-!
# Names of shown fields

A column is shown under the name of a field. The list of all columns, and the statement that reads a
row by its `id`, take the field of the pair that they show. A field that is asked for is looked up
twice, from the field to its column and from the column back to a field, so it comes back under its
own name only where it is the last field of its column (`fields_named`).
-/

namespace DynamicSql

/-- A column in a list of columns, behind a qualifier, with its field unless the two are the
same. -/
def Column.entry (qualifier : String) (p : Column) : String :=
  if p.field = p.column then qualifier ++ p.column else qualifier ++ p.column ++ " AS " ++ p.field

/-- A column under two fields makes two different entries. -/
theorem Column.entry_inj {qualifier field other column : String} :
    Column.entry qualifier ⟨field, column⟩ = Column.entry qualifier ⟨other, column⟩ ↔
      field = other := by
  refine ⟨fun h => ?_, fun h => h ▸ rfl⟩
  have hlonger : ∀ name : String,
      qualifier ++ column ++ " AS " ++ name ≠ qualifier ++ column := by
    intro name heq
    have hlength := congrArg String.length heq
    have has : " AS ".length = 4 := by decide
    simp only [String.length_append, has] at hlength
    omega
  unfold entry at h
  dsimp only at h
  split at h <;> split at h
  case isTrue.isTrue hfield hother => rw [hfield, hother]
  case isTrue.isFalse => exact absurd h.symm (hlonger other)
  case isFalse.isTrue => exact absurd h (hlonger field)
  case isFalse.isFalse => exact String.append_right_inj _ |>.mp h

/-- The text that reads columns, each behind a qualifier. -/
def readingSql (qualifier : String) (shown : List Column) (source : String) : String :=
  "SELECT " ++ ", ".intercalate (shown.map (Column.entry qualifier)) ++ " FROM " ++ source

/-- A column that is shown as a field is written as its entry behind the alias. -/
theorem render_shownAs {root : String} {aliases : Aliases} (token : Token) (p : Column) :
    (shownAs (.qualified (some token) p.column) p.column p.field).render root aliases =
      p.entry (aliases.text token ++ ".") := by
  unfold shownAs Column.entry Fragment.qualified
  split
  · rw [Fragment.render_column_cons, Fragment.render_nil, String.append_empty]
  · rw [List.singleton_append, Fragment.render_column_cons, Fragment.render_text_cons,
      Fragment.render_nil, String.append_empty, ← String.append_assoc]

/-- A field that is no reference comes back from a table as a pair: with its column, and with the
field that the table gives for this column. -/
structure Table.ComesBack (d : Table) (field : String) (p : Column) : Prop where
  plain : reference? field = none
  column : d.columnOf? field = some p.column
  field : d.fieldOf? p.column = some p.field

/-- A field comes back under its own name when no other field has its column further on. -/
theorem Table.ComesBack.field_eq_iff {d : Table} {field : String} {p : Column}
    (h : d.ComesBack field p) : p.field = field ↔
      ∃ front back, d.columns = front ++ ⟨field, p.column⟩ :: back ∧
        ∀ other ∈ back, other.column ≠ p.column := by
  rw [← fieldOf?_eq_some, h.field, Option.some.injEq]

/-- Where fields and columns come in pairs, each field comes back as its pair, and only there. -/
theorem Table.paired_iff_comesBack {d : Table}
    (hplain : ∀ p ∈ d.columns, reference? p.field = none) :
    d.Paired ↔ ∀ p ∈ d.columns, d.ComesBack p.field p := by
  rw [paired_iff]
  exact forall₂_congr fun p hp => ⟨fun h => ⟨hplain p hp, h.1, h.2⟩, fun h => ⟨h.column, h.field⟩⟩

/-- A query that asks for fields one after the other. -/
theorem Query.foldl_select (fields : List String) (token : Token) (own : Option String) :
    fields.foldl select (.new token own) =
      ⟨own, token, { columns := fields.map (⟨·, .plain, none⟩) }, .empty, [], []⟩ := by
  have hselect : ∀ items : List SelectItem, fields.foldl select
      ⟨own, token, { columns := items }, .empty, [], []⟩ =
        ⟨own, token, { columns := items ++ fields.map (⟨·, .plain, none⟩) }, .empty, [], []⟩ := by
    induction fields with
    | nil =>
      intro items
      rw [List.foldl_nil, List.map_nil, List.append_nil]
    | cons field rest ih =>
      intro items
      have hrest := ih (items ++ [⟨field, .plain, none⟩])
      rw [List.append_assoc, List.singleton_append] at hrest
      exact hrest
  exact hselect []

namespace Context

open Resolve

variable {ctx : Context} {d : Table}

/-- A field is shown as what it comes back as, in every scope of its table. -/
theorem selectItem_comesBack {field : String} {p : Column} (h : d.ComesBack field p)
    (name : String) (token? : Option Token) :
    ctx.selectItem ⟨name, token?, d⟩ ⟨field, .plain, none⟩ =
      pure (shownAs (.qualified token? p.column) p.column p.field) :=
  selectItem_own h.plain (Table.resolve?_of_columnOf? h.column) h.field

/-- Fields that are asked for are shown one by one. -/
theorem shownColumns_fields {fields : List String} {shown : List Column} (hne : fields ≠ [])
    (h : List.Forall₂ d.ComesBack fields shown) (name : String) (token? : Option Token) :
    (ctx.shownColumns ⟨name, token?, d⟩ { columns := fields.map (⟨·, .plain, none⟩) }).Yields
      (shown.map fun p => shownAs (.qualified token? p.column) p.column p.field) .empty := by
  have hitems : (fields.map (⟨·, .plain, none⟩ : String → SelectItem)).mapM
      (ctx.selectItem ⟨name, token?, d⟩) =
        pure (shown.map fun p => shownAs (.qualified token? p.column) p.column p.field) := by
    clear hne
    induction h with
    | nil => rfl
    | cons hfield _ ih =>
      rw [List.map_cons, List.mapM_cons, ih, selectItem_comesBack hfield]
      simp only [pure_bind, List.map_cons]
  have hkept : (fields.map (⟨·, .plain, none⟩ : String → SelectItem)).filter
      (fun item => !isRemoved [] ⟨name, token?, d⟩ item) = fields.map (⟨·, .plain, none⟩) := by
    rw [List.filter_eq_self]
    intro item hitem
    obtain ⟨field, -, rfl⟩ := List.mem_map.mp hitem
    unfold isRemoved
    cases d.columnOf? field <;> rfl
  have hasked : (fields.map (⟨·, .plain, none⟩ : String → SelectItem)).isEmpty = false := by
    rw [List.isEmpty_eq_false_iff]
    simpa using hne
  unfold shownColumns explicitColumns
  simp only [hasked, Bool.false_and, Bool.false_eq_true, if_false, hkept, hitems]
  rfl

end Context

namespace Compiler

variable {c : Compiler} {table : String} {d : Table}

/-- A query that shows columns and nothing else reads them from its table. -/
theorem select_alone {items : List SelectItem} {shown : List Column} (token : Token)
    (own : Option String) (hd : c.schema.table table = .ok d) (hne : shown ≠ [])
    (hshown : ∀ ctx : Context,
      (ctx.shownColumns ⟨table, some token, d⟩ { columns := items }).Yields
        (shown.map fun p => shownAs (.qualified (some token) p.column) p.column p.field) .empty) :
    c.select ⟨own, token, { columns := items }, .empty, [], []⟩ table =
      .ok ⟨readingSql "t0." shown (table ++ " t0"), .ofBound []⟩ := by
  let q : Query := ⟨own, token, { columns := items }, .empty, [], []⟩
  let entries := shown.map fun p => shownAs (.qualified (some token) p.column) p.column p.field
  -- Without conditions, the text is the columns and the table, and nothing is bound.
  have hterms : ((c.contextOf q table).groupTerms ⟨table, some token, d⟩
      ((Path.ofRoot 0).child "tl") .empty).Yields [] .empty := rfl
  have hselect : ((c.contextOf q table).compoundSelect table (.ofRoot 0) q).Yields
      (.text "SELECT " :: Fragment.join ", " entries ++ [.text " FROM ", .table table token])
      ⟨[token], []⟩ :=
    Context.compoundSelect_alone own hd (hshown (c.contextOf q table)) (by simpa using hne) hterms
  have hctx : c.queryContext q table = .ok (c.contextOf q table) := rfl
  have hdraft : c.selectDraft q table = .ok _ :=
    except_bind_eq_ok.mpr ⟨_, hctx, except_bind_eq_ok.mpr ⟨_, hselect, rfl⟩⟩
  have hentries : entries.map (Fragment.render c.root (.ofMentions [token])) =
      shown.map (Column.entry "t0.") := by
    have hqualifier : "t0." = "t0" ++ "." := by decide
    rw [List.map_map, hqualifier, ← Aliases.text_ofMentions_singleton token]
    exact List.map_congr_left fun p _ => render_shownAs token p
  have hsource : " t0" = " " ++ "t0" := by decide
  have hlimit : Dialect.limitClause none = "" := rfl
  refine except_bind_eq_ok.mpr ⟨_, hdraft, ?_⟩
  refine congrArg (fun sql => Except.ok (Statement.mk sql (.ofBound []))) ?_
  rw [render, hlimit, render_append_blank, hsource, readingSql, ← hentries, ← render_join,
    ← Aliases.text_ofMentions_singleton token]
  simp only [Fragment.render_append, Fragment.render_text_cons, Fragment.render_table_cons,
    Fragment.render_nil, List.cons_append, String.append_assoc, String.append_empty]

/-- The columns that are read by an `id` are those of the table, each under its own field. -/
theorem selectById_reading (root table : String) (d : Table) (id : Value) :
    selectById root table d id =
      ⟨readingSql "" d.columns table ++ " WHERE id = " ++ idSlot.marker root,
        .ofBound [(idSlot, id)]⟩ := by
  have hentries : (d.columns.map fun p => if p.field = p.column then p.column
      else p.column ++ " AS " ++ p.field) = d.columns.map (Column.entry "") := by
    refine List.map_congr_left fun p _ => ?_
    unfold Column.entry
    rw [String.empty_append]
  rw [selectById, hentries]
  rfl

/-- A field that is asked for is shown with its column, wherever its table stands in a statement,
and so are several fields. The name it comes back under is the last field of this column: its own
name, and that of the list of all columns and of the statement that reads a row by its `id`, exactly
if no other field has the column further on. Where fields and columns come in pairs, all columns are
shown alike, whether they are asked for or not. -/
theorem fields_named (c : Compiler) {table : String} {d : Table}
    (hd : c.schema.table table = .ok d) :
    (∀ field column, reference? field = none → d.columnOf? field = some column →
      ∃ name, d.ComesBack field ⟨name, column⟩) ∧
    (∀ field p, d.ComesBack field p →
      (∀ (ctx : Context) name token, ∃ f,
        ctx.selectItem ⟨name, some token, d⟩ ⟨field, .plain, none⟩ = pure f ∧
        ∀ root aliases, f.render root aliases = p.entry (aliases.text token ++ ".")) ∧
      ⟨field, p.column⟩ ∈ d.columns ∧
      (∀ qualifier, p.entry qualifier = Column.entry qualifier ⟨field, p.column⟩ ↔
        p.field = field) ∧
      (p.field = field ↔ ∃ front back, d.columns = front ++ ⟨field, p.column⟩ :: back ∧
        ∀ other ∈ back, other.column ≠ p.column)) ∧
    (∀ token own fields shown, fields ≠ [] → List.Forall₂ d.ComesBack fields shown →
      c.select (fields.foldl Query.select (.new token own)) table =
        .ok ⟨readingSql "t0." shown (table ++ " t0"), .ofBound []⟩) ∧
    (d.columns ≠ [] → ∀ token own, c.select (.new token own) table =
      .ok ⟨readingSql "t0." d.columns (table ++ " t0"), .ofBound []⟩) ∧
    (∀ id, selectById c.root table d id =
      ⟨readingSql "" d.columns table ++ " WHERE id = " ++ idSlot.marker c.root,
        .ofBound [(idSlot, id)]⟩) ∧
    ((∀ p ∈ d.columns, reference? p.field = none) →
      (d.Paired ↔ ∀ p ∈ d.columns, d.ComesBack p.field p)) ∧
    (d.columns ≠ [] → (∀ p ∈ d.columns, d.ComesBack p.field p) → ∀ token own,
      c.select ((d.columns.map (·.field)).foldl Query.select (.new token own)) table =
        c.select (.new token own) table) := by
  have hasked : ∀ token own fields shown, fields ≠ [] → List.Forall₂ d.ComesBack fields shown →
      c.select (fields.foldl Query.select (.new token own)) table =
        .ok ⟨readingSql "t0." shown (table ++ " t0"), .ofBound []⟩ := by
    intro token own fields shown hne hback
    have hshown : shown ≠ [] := fun hempty => hne (List.forall₂_nil_right_iff.mp (hempty ▸ hback))
    rw [Query.foldl_select]
    exact select_alone token own hd hshown fun _ => Context.shownColumns_fields hne hback _ _
  have hall : d.columns ≠ [] → ∀ token own, c.select (.new token own) table =
      .ok ⟨readingSql "t0." d.columns (table ++ " t0"), .ofBound []⟩ := by
    intro hne token own
    refine select_alone token own hd hne fun ctx => ?_
    have hkept : d.columns.filter (fun p => !([] : List String).contains p.field &&
        !([] : List String).contains p.column) = d.columns :=
      List.filter_eq_self.mpr fun _ _ => rfl
    have hshown : ctx.shownColumns ⟨table, some token, d⟩ {} =
        pure (Context.allColumns ⟨table, some token, d⟩ []) := rfl
    rw [hshown, Context.allColumns, hkept]
    rfl
  refine ⟨fun field column hplain hcolumn => ?_, fun field p hback => ⟨fun ctx name token => ?_,
    Table.mem_of_columnOf? hback.column, fun qualifier => Column.entry_inj, hback.field_eq_iff⟩,
    hasked, hall, selectById_reading c.root table d, Table.paired_iff_comesBack,
    fun hne hback token own => ?_⟩
  · obtain ⟨name, hname⟩ := Table.exists_fieldOf? (Table.mem_of_columnOf? hcolumn)
    exact ⟨name, hplain, hcolumn, hname⟩
  · exact ⟨_, Context.selectItem_comesBack hback name (some token),
      fun _ _ => render_shownAs token p⟩
  · have hfields : List.Forall₂ d.ComesBack (d.columns.map (·.field)) d.columns := by
      rw [List.forall₂_map_left_iff, List.forall₂_same]
      exact hback
    rw [hall hne, hasked token own _ _ (by simpa using hne) hfields]

/-- Of two fields with one column, only the second one comes back under its own name. -/
theorem sharedColumn_fields_named :
    let d : Table := ⟨[⟨"id", "id"⟩, ⟨"first", "name"⟩, ⟨"second", "name"⟩]⟩
    let c := new ⟨[("t", d)]⟩
    c.schema.table "t" = .ok d ∧
    c.select ((Query.new "t" none).select "first") "t" =
      .ok ⟨"SELECT t0.name AS second FROM t t0", .ofBound []⟩ ∧
    c.select ((Query.new "t" none).select "second") "t" =
      .ok ⟨"SELECT t0.name AS second FROM t t0", .ofBound []⟩ ∧
    c.select (.new "t" none) "t" =
      .ok ⟨"SELECT t0.id, t0.name AS first, t0.name AS second FROM t t0", .ofBound []⟩ ∧
    ¬d.Paired := by
  intro d c
  have hd : c.schema.table "t" = .ok d := by rfl
  obtain ⟨-, -, hasked, hall, -, hpaired, -⟩ := fields_named c hd
  have hback : ∀ field ∈ ["first", "second"], d.ComesBack field ⟨"second", "name"⟩ := by
    intro field hfield
    obtain rfl | rfl : field = "first" ∨ field = "second" := by simpa using hfield
    all_goals exact ⟨by decide, by decide, by decide⟩
  have hshown : readingSql "t0." [⟨"second", "name"⟩] ("t" ++ " t0") =
      "SELECT t0.name AS second FROM t t0" := by
    decide +kernel
  have hcolumns : readingSql "t0." d.columns ("t" ++ " t0") =
      "SELECT t0.id, t0.name AS first, t0.name AS second FROM t t0" := by
    decide +kernel
  refine ⟨hd, ?_, ?_, ?_, fun h => ?_⟩
  · rw [← hshown]
    exact hasked "t" none ["first"] _ (by simp) (.cons (hback _ (by simp)) .nil)
  · rw [← hshown]
    exact hasked "t" none ["second"] _ (by simp) (.cons (hback _ (by simp)) .nil)
  · rw [← hcolumns]
    exact hall (by simp [d]) "t" none
  · have hfirst := (hpaired (by decide)).mp h ⟨"first", "name"⟩ (by decide)
    exact absurd hfirst.field (by decide)

end Compiler

end DynamicSql

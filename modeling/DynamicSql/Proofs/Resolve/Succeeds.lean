import DynamicSql.Proofs.Resolve.Shown
import DynamicSql.Proofs.Resolve.Steps

/-!
# When resolving succeeds

For every step of resolving that holds no further query, exactly when it succeeds. No step depends
on what happened before it: several steps in a row succeed when each of them does, whatever the
former ones yielded (`Resolve.bind_succeeds_of`).
-/

namespace DynamicSql

namespace Resolve

variable {α β : Type}

/-- Resolving succeeds. -/
def Succeeds (x : Resolve α) : Prop := ∃ a t, x.Yields a t

/-- A run succeeds just if it yields something. -/
theorem exists_yields {x : Resolve α} : (∃ a t, x.Yields a t) ↔ x.Succeeds := Iff.rfl

/-- A step that does nothing succeeds. -/
theorem pure_succeeds {a : α} : (pure a : Resolve α).Succeeds ↔ True :=
  iff_true_intro ⟨a, .empty, pure_yields.mpr ⟨rfl, rfl⟩⟩

/-- A failure does not. -/
theorem fail_succeeds {e : Error} : (fail e : Resolve α).Succeeds ↔ False := by
  simp [Succeeds]

/-- A value that may be missing succeeds if it is there. -/
theorem ofOption_succeeds {e : Error} {x : Option α} :
    (ofOption e x).Succeeds ↔ ∃ a, x = some a := by
  simp [Succeeds]

/-- Binding a value succeeds. -/
theorem bound_succeeds {slot : Slot} {v : Value} : (bound slot v).Succeeds ↔ True := by
  simp [Succeeds]

/-- Two steps in a row succeed when the first one does, and the second one with its result. -/
theorem bind_succeeds {x : Resolve α} {f : α → Resolve β} :
    (x >>= f).Succeeds ↔ ∃ a, (∃ t, x.Yields a t) ∧ (f a).Succeeds := by
  constructor
  · rintro ⟨b, _, hb⟩
    obtain ⟨a, t, u, ha, hb, -⟩ := bind_yields.mp hb
    exact ⟨a, ⟨t, ha⟩, b, u, hb⟩
  · rintro ⟨a, ⟨t, ha⟩, b, u, hb⟩
    exact ⟨b, t ++ u, bind_yields.mpr ⟨a, t, u, ha, hb, rfl⟩⟩

/-- Where the second step succeeds whatever the first one yields, or fails whatever it yields, the
steps may be looked at apart. -/
theorem bind_succeeds_of {x : Resolve α} {f : α → Resolve β} {P : Prop}
    (h : ∀ a, (f a).Succeeds ↔ P) : (x >>= f).Succeeds ↔ x.Succeeds ∧ P := by
  simp only [bind_succeeds, h, exists_and_right, exists_yields]

/-- What is made of a result does not matter for success. -/
theorem map_succeeds {x : Resolve α} {f : α → β} :
    (x >>= fun a => pure (f a)).Succeeds ↔ x.Succeeds := by
  rw [bind_succeeds_of fun _ => pure_succeeds, and_true]

/-- A list is worked off just if each member is. -/
theorem mapM_succeeds {f : α → Resolve β} {xs : List α} :
    (xs.mapM f).Succeeds ↔ ∀ x ∈ xs, (f x).Succeeds := by
  induction xs with
  | nil => simp [pure_succeeds]
  | cons x xs ih =>
    rw [List.mapM_cons, bind_succeeds_of fun _ => map_succeeds, ih, List.forall_mem_cons]

end Resolve

/-- A table is described under its name. -/
theorem Schema.table_eq_ok {s : Schema} {name : String} {d : Table} :
    s.table name = .ok d ↔ s.find? name = some d := by
  unfold Schema.table
  cases s.find? name <;> simp

/-- A name stands for a column when it is that of a field or a column. -/
theorem Table.exists_resolve? {t : Table} {name : String} :
    (∃ column, t.resolve? name = some column) ↔ t.knows name = true := by
  have hfield : (t.columnOf? name).isSome = t.columns.any (·.field == name) := by
    rw [columnOf?, Option.isSome_map, Bool.eq_iff_iff, List.find?_isSome, List.any_eq_true]
    simp
  unfold resolve? knows
  rw [← hfield]
  cases t.columnOf? name with
  | some column => simp
  | none => simp

/-- Fields have columns when each is known. -/
theorem Table.exists_columns {t : Table} {fields : List String} :
    (∃ columns, List.Forall₂ (fun field column => t.resolve? field = some column) fields columns) ↔
      ∀ field ∈ fields, t.knows field = true := by
  induction fields with
  | nil => exact iff_of_true ⟨[], .nil⟩ (List.forall_mem_nil _)
  | cons field fields ih =>
    rw [List.forall_mem_cons, ← ih, ← exists_resolve?]
    constructor
    · rintro ⟨_, hcolumns⟩
      obtain ⟨column, columns, hcolumn, hcolumns, -⟩ := List.forall₂_cons_left_iff.mp hcolumns
      exact ⟨⟨column, hcolumn⟩, columns, hcolumns⟩
    · rintro ⟨⟨column, hcolumn⟩, columns, hcolumns⟩
      exact ⟨column :: columns, .cons hcolumn hcolumns⟩

namespace Context

open Resolve

variable {ctx : Context} {scope : Scope}

/-- A run behind a table that is opened succeeds if the table is known and the rest succeeds with
it. -/
theorem openScope_bind_succeeds {α : Type} {token : Token} {name : String}
    {f : Scope → Resolve α} : (ctx.openScope token name >>= f).Succeeds ↔
      ∃ d, ctx.schema.find? name = some d ∧ (f ⟨name, some token, d⟩).Succeeds := by
  simp only [bind_succeeds, openScope_yields, Schema.table_eq_ok]
  constructor
  · rintro ⟨_, ⟨_, d, hd, rfl, -⟩, hf⟩
    exact ⟨d, hd, hf⟩
  · rintro ⟨d, hd, hf⟩
    exact ⟨_, ⟨_, d, hd, rfl, rfl⟩, hf⟩

/-- A reference is found when a table has its token, and this table its field. -/
theorem findReference_succeeds {name token field : String} :
    (ctx.findReference name token field).Succeeds ↔
      ∃ d, ctx.described? (ctx.references.lookup token) = some d ∧ d.knows field = true := by
  simp only [findReference, bind_succeeds, ofOption_yields, ofExcept_yields, Schema.table_eq_ok,
    mention_yields, pure_succeeds, described?, Option.bind_eq_some_iff, ← Table.exists_resolve?]
  simp only [exists_and_left, exists_eq, and_true, exists_const]
  constructor
  · rintro ⟨table, htable, d, hd, hfield⟩
    exact ⟨d, ⟨table, htable, hd⟩, hfield⟩
  · rintro ⟨d, ⟨table, htable, hd⟩, hfield⟩
    exact ⟨table, htable, d, hd, hfield⟩

/-- What is found depends on the description of the table at hand alone. -/
theorem findColumn_succeeds {name : String} :
    (ctx.findColumn scope name).Succeeds ↔ ctx.Knows scope.table name := by
  unfold findColumn Knows
  cases reference? name with
  | some reference => exact findReference_succeeds
  | none => exact map_succeeds.trans (ofOption_succeeds.trans Table.exists_resolve?)

/-- A field resolves just if it is found. -/
theorem field_succeeds {name : String} :
    (ctx.field scope name).Succeeds ↔ ctx.Finds scope.table (.field name) :=
  map_succeeds.trans findColumn_succeeds

/-- A word that is no reference may be anything. -/
theorem lexeme_succeeds {part : Lexeme} : (ctx.lexeme scope part).Succeeds ↔
    ∀ cs, part = .word cs → (behindMark? cs).isSome → ctx.Knows scope.table (String.ofList cs) := by
  cases part with
  | delimiter c => simp [lexeme, pure_succeeds]
  | word cs =>
    simp only [lexeme]
    split
    case isTrue h => simp [field_succeeds, Finds, h]
    case isFalse h => split <;> simp [pure_succeeds, h]

/-- An expression resolves just if all references in it are found. -/
theorem expression_succeeds {text : String} :
    (ctx.expression scope text).Succeeds ↔ ctx.Finds scope.table (.expression text) := by
  unfold expression
  rw [map_succeeds, mapM_succeeds]
  simp only [lexeme_succeeds]
  constructor
  · intro h cs hcs
    exact h _ hcs cs rfl
  · rintro h part hpart cs rfl
    exact h cs hpart

/-- The compared side of a condition is a field or an expression, and resolves just if that is
found. -/
theorem comparand_succeeds {comparison : Comparison} {name : String} :
    (ctx.comparand scope comparison name).Succeeds ↔ ctx.Finds scope.table
      (if comparison.isEquality then .field name else .expression name) := by
  unfold comparand
  split
  · exact field_succeeds
  · exact expression_succeeds

/-- An empty expression looks nothing up. -/
theorem finds_of_isEmpty {description : Table} {text : String} (h : text.isEmpty = true) :
    ctx.Finds description (.expression text) := by
  obtain rfl := String.isEmpty_iff.mp h
  intro cs hcs
  cases hcs

/-- An item of the `SELECT` list resolves just if what it looks up is found. -/
theorem selectItem_succeeds {item : SelectItem} :
    (ctx.selectItem scope item).Succeeds ↔ ctx.Finds scope.table item.lookup := by
  unfold selectItem SelectItem.lookup
  cases item.aggregate with
  | plain => exact map_succeeds.trans findColumn_succeeds
  | dateFormat pattern => exact map_succeeds.trans field_succeeds
  | count =>
    dsimp only
    split
    case isTrue h => simp [pure_succeeds, finds_of_isEmpty h]
    case isFalse => exact map_succeeds.trans expression_succeeds
  | _ => exact map_succeeds.trans expression_succeeds

/-- An item of the `GROUP BY` list resolves just if its field is found. -/
theorem groupItem_succeeds {item : GroupItem} :
    (ctx.groupItem scope item).Succeeds ↔ ctx.Finds scope.table (.field item.field) :=
  map_succeeds.trans field_succeeds

/-- A condition on groups resolves just if what it compares is found. -/
theorem havingItem_succeeds {path : Path} {item : HavingItem} {i : Nat} :
    (ctx.havingItem scope path item i).Succeeds ↔
      ctx.Finds scope.table (.expression item.field) := by
  have hoperand : (ctx.havingOperand scope item).Succeeds ↔
      ctx.Finds scope.table (.expression item.field) := by
    unfold havingOperand
    cases item.operand with
    | count =>
      dsimp only
      split
      case isTrue h => simp [pure_succeeds, finds_of_isEmpty h]
      case isFalse => exact map_succeeds.trans expression_succeeds
    | plain => exact expression_succeeds
  unfold havingItem
  rw [bind_succeeds_of fun _ => map_succeeds.trans bound_succeeds, hoperand, and_true]

/-- An item of the `ORDER BY` list resolves just if what it looks up is found. -/
theorem orderItem_succeeds {item : OrderItem} :
    (ctx.orderItem scope item).Succeeds ↔ ctx.Finds scope.table item.lookup := by
  unfold orderItem
  rw [map_succeeds]
  unfold orderOperand OrderItem.lookup
  cases item.operand with
  | plain => exact field_succeeds
  | expression => exact expression_succeeds
  | _ => exact map_succeeds.trans field_succeeds

/-- The columns that are asked for are those that are kept. -/
theorem explicitColumns_eq {clauses : Clauses} : ctx.explicitColumns scope clauses =
    (clauses.kept scope.table).mapM (ctx.selectItem scope) := by
  unfold explicitColumns Clauses.kept
  split <;> rfl

/-- The columns that a query names resolve just if those that are kept are found. -/
theorem explicitColumns_succeeds {clauses : Clauses} :
    (ctx.explicitColumns scope clauses).Succeeds ↔
      ∀ item ∈ clauses.kept scope.table, ctx.Finds scope.table item.lookup := by
  simp only [explicitColumns_eq, mapM_succeeds, selectItem_succeeds]

/-- Where no column is named, none is kept. -/
theorem kept_of_columns_nil {clauses : Clauses} (h : clauses.columns = []) (description : Table) :
    clauses.kept description = [] := by
  simp [Clauses.kept, h]

/-- The columns that a query shows resolve just if the named ones among them are found. -/
theorem shownColumns_succeeds {clauses : Clauses} : (ctx.shownColumns scope clauses).Succeeds ↔
    ∀ item ∈ clauses.kept scope.table, ctx.Finds scope.table item.lookup := by
  unfold shownColumns
  split
  case isTrue h =>
    have hcolumns : clauses.columns = [] := by
      rw [Bool.and_eq_true, List.isEmpty_iff] at h
      exact h.1
    simp [pure_succeeds, kept_of_columns_nil hcolumns]
  case isFalse => exact explicitColumns_succeeds

/-- So it is for the columns of a joined query. -/
theorem joinedColumns_succeeds {clauses : Clauses} :
    (ctx.joinedColumns scope clauses).Succeeds ↔
      ∀ item ∈ clauses.kept scope.table, ctx.Finds scope.table item.lookup := by
  unfold joinedColumns
  split
  case isTrue h => simp [pure_succeeds, kept_of_columns_nil (List.isEmpty_iff.mp h)]
  case isFalse => exact explicitColumns_succeeds

/-- Clauses are resolved when all that they look up is known. -/
theorem collect_succeeds {clauses : Clauses} {path : Path} {columns : Resolve (List Fragment)}
    (hcolumns : columns.Succeeds ↔
      ∀ item ∈ clauses.kept scope.table, ctx.Finds scope.table item.lookup) :
    (ctx.collect scope clauses path columns .everything).Succeeds ↔
      ∀ l ∈ clauses.lookups scope.table, ctx.Finds scope.table l := by
  have hgroups : (clauses.groups.mapM (ctx.groupItem scope)).Succeeds ↔
      ∀ l ∈ clauses.groups.map (.field ·.field), ctx.Finds scope.table l := by
    simp only [mapM_succeeds, groupItem_succeeds, List.forall_mem_map]
  have hhavings : (clauses.havings.zipIdx.mapM fun x =>
      ctx.havingItem scope path x.1 x.2).Succeeds ↔
      ∀ l ∈ clauses.havings.map (.expression ·.field), ctx.Finds scope.table l := by
    simp only [mapM_succeeds, havingItem_succeeds, List.forall_mem_map]
    constructor
    · intro h item hitem
      obtain ⟨i, hi⟩ := List.mem_iff_getElem?.mp hitem
      exact h (item, i) (List.mem_zipIdx_iff_getElem?.mpr hi)
    · intro h x hx
      exact h x.1 (List.fst_mem_of_mem_zipIdx hx)
  have horders : (clauses.orders.mapM (ctx.orderItem scope)).Succeeds ↔
      ∀ l ∈ clauses.orders.map OrderItem.lookup, ctx.Finds scope.table l := by
    simp only [mapM_succeeds, orderItem_succeeds, List.forall_mem_map]
  unfold collect
  rw [bind_succeeds_of fun _ => bind_succeeds_of fun _ => bind_succeeds_of fun _ => map_succeeds,
    hcolumns, hgroups, hhavings, horders]
  simp only [Clauses.lookups, List.forall_mem_append, List.forall_mem_map, and_assoc]

/-- The keys of a join are resolved when they fit both tables. -/
theorem joinKeys_succeeds {parent joined : Scope} {keys : JoinKeys} :
    (ctx.joinKeys parent joined keys).Succeeds ↔ ctx.Joins parent.table joined.table keys := by
  cases keys with
  | single left right => exact pure_succeeds
  | composite pairs =>
    have hpair : ∀ pair, (ctx.keyPair parent joined pair).Succeeds ↔
        ctx.Finds parent.table (.expression pair.1) ∧
          ctx.Finds joined.table (.expression pair.2) := by
      intro pair
      unfold keyPair
      rw [bind_succeeds_of fun _ => map_succeeds, expression_succeeds, expression_succeeds]
    simp only [joinKeys, Joins]
    split
    case isTrue h => simp [fail_succeeds, List.isEmpty_iff.mp h]
    case isFalse h =>
      have hne : pairs ≠ [] := mt List.isEmpty_iff.mpr h
      rw [map_succeeds, mapM_succeeds]
      simp only [hpair, and_iff_right hne]

/-- A membership test is resolved when it is among some values and its field is known. -/
theorem membership_succeeds {field : String} {test : Membership} {v : Value} {path : Path}
    {i : Nat} : (ctx.membership scope field test v path i).Succeeds ↔
      (∃ m ms, v.members? = some (m :: ms)) ∧ ctx.Finds scope.table (.field field) := by
  have hmarkers : ∀ members : List Value, (members.zipIdx.mapM fun x =>
      Resolve.bound ⟨.compared, path, i, some x.2⟩ x.1).Succeeds ↔ True := by
    intro members
    simp only [mapM_succeeds, bound_succeeds, implies_true]
  unfold membership
  cases v.members? with
  | none => simp [bind_succeeds, ofOption_yields]
  | some members =>
    have hsome : ofOption (.nullMembership field test.text) (some members) =
        (pure members : Resolve (List Value)) := rfl
    rw [hsome, pure_bind]
    cases members with
    | nil => simp [fail_succeeds]
    | cons m ms =>
      rw [List.isEmpty_cons, if_neg Bool.false_ne_true, bind_succeeds_of fun _ =>
        map_succeeds.trans (hmarkers _), field_succeeds]
      simp

/-- Most conditions only need to look something up. -/
theorem settles_iff {description : Table} {x : Condition} (hpattern : ∀ w v, x.filter ≠ .like w v)
    (hmembers : ∀ test v, x.filter ≠ .member test v) :
    ctx.Settles description x ↔ ∀ l ∈ x.filter.lookups x.field, ctx.Finds description l := by
  constructor
  · intro h
    exact h.lookups
  · intro h
    exact ⟨h, fun w v hw => absurd hw (hpattern w v), fun test v htest =>
      absurd htest (hmembers test v)⟩

/-- A condition that holds no query is resolved when it is settled. -/
theorem simpleCondition_succeeds {connector : Connector} {field : String} {filter : Filter}
    {path : Path} {i : Nat} (hquery : ∀ test q, filter ≠ .memberOf test q) :
    (ctx.simpleCondition scope path i field filter).Succeeds ↔
      ctx.Settles scope.table ⟨connector, field, filter⟩ := by
  -- Patterns and members can fail for a value, all other filters in their lookups only.
  cases filter with
  | compare comparison v =>
    rw [settles_iff (by simp) (by simp)]
    unfold simpleCondition
    rw [bind_succeeds_of fun _ => map_succeeds.trans bound_succeeds, comparand_succeeds]
    simp [Filter.lookups]
  | compareField comparison other =>
    rw [settles_iff (by simp) (by simp)]
    unfold simpleCondition
    rw [bind_succeeds_of fun _ => map_succeeds, expression_succeeds, expression_succeeds]
    simp [Filter.lookups]
  | compareDate comparison pattern v =>
    rw [settles_iff (by simp) (by simp)]
    unfold simpleCondition
    rw [bind_succeeds_of fun _ => map_succeeds.trans bound_succeeds, field_succeeds]
    simp [Filter.lookups]
  | guard guard v =>
    rw [settles_iff (by simp) (by simp)]
    unfold simpleCondition
    rw [bind_succeeds_of fun _ => map_succeeds.trans bound_succeeds, expression_succeeds]
    simp [Filter.lookups]
  | isNull =>
    rw [settles_iff (by simp) (by simp)]
    unfold simpleCondition
    rw [map_succeeds, expression_succeeds]
    simp [Filter.lookups]
  | isNotNull =>
    rw [settles_iff (by simp) (by simp)]
    unfold simpleCondition
    rw [map_succeeds, expression_succeeds]
    simp [Filter.lookups]
  | like wildcards v =>
    have hsettles : ctx.Settles scope.table ⟨connector, field, .like wildcards v⟩ ↔
        v.isNull = false ∧ ctx.Finds scope.table (.field field) := by
      constructor
      · intro h
        exact ⟨h.pattern wildcards v rfl, h.lookups _ (by simp [Filter.lookups])⟩
      · rintro ⟨hnull, hfield⟩
        refine ⟨by simpa [Filter.lookups] using hfield, ?_, by simp⟩
        rintro _ _ ⟨⟩
        exact hnull
    rw [hsettles]
    simp only [simpleCondition]
    split
    case isTrue h => simp [fail_succeeds, h]
    case isFalse h =>
      rw [bind_succeeds_of fun _ => map_succeeds.trans bound_succeeds, field_succeeds]
      simp [h]
  | member test v =>
    have hsettles : ctx.Settles scope.table ⟨connector, field, .member test v⟩ ↔
        (∃ m ms, v.members? = some (m :: ms)) ∧ ctx.Finds scope.table (.field field) := by
      constructor
      · intro h
        exact ⟨h.members test v rfl, h.lookups _ (by simp [Filter.lookups])⟩
      · rintro ⟨hmembers, hfield⟩
        refine ⟨by simpa [Filter.lookups] using hfield, by simp, ?_⟩
        rintro _ _ ⟨⟩
        exact hmembers
    rw [hsettles]
    exact membership_succeeds
  | memberOf test q => exact absurd rfl (hquery test q)

end Context

end DynamicSql

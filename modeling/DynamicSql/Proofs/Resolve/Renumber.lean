import DynamicSql.Proofs.Resolve.Coupled
import DynamicSql.Proofs.Resolve.Operands
import DynamicSql.Proofs.Sql.Renumber

/-!
# Resolving under another number

The number of a statement is the root of all paths that it is resolved with. Under another number,
resolving takes the same steps: it ends in the same error, or in the same result after mentioning
the same tables and binding the same values, where markers and places show the other number instead
(`update_renumber`).
-/

namespace DynamicSql

/-- A path in the statement with another number. -/
def Path.renumber (n : Nat) (p : Path) : Path := ⟨n, p.segments⟩

/-- What happens while the statement with another number is resolved. -/
def Trace.renumber (n : Nat) (t : Trace) : Trace :=
  ⟨t.mentioned, t.bound.map fun b => (b.1.renumber n, b.2)⟩

/-- What happens in two steps is renumbered step by step. -/
theorem Trace.renumber_append (n : Nat) (t u : Trace) :
    (t ++ u).renumber n = t.renumber n ++ u.renumber n :=
  congrArg (Trace.mk _) List.map_append

/-- Where nothing was bound, nothing shows the number of the statement. -/
theorem Trace.renumber_of_bound_nil {n : Nat} {t : Trace} (h : t.bound = []) :
    t.renumber n = t := by
  obtain ⟨mentioned, bound⟩ := t
  obtain rfl : bound = [] := h
  rfl

/-- A fragment without markers does not show the number of the statement. -/
theorem Fragment.renumber_of_marks_nil {n : Nat} {f : Fragment} (h : f.marks = []) :
    f.renumber n = f := by
  have hpiece : ∀ piece ∈ f, piece.renumber n = piece := by
    intro piece hmem
    have hnone := List.filterMap_eq_nil_iff.mp h piece hmem
    cases piece with
    | marker slot => simp [Piece.mark?] at hnone
    | _ => rfl
  rw [renumber, List.map_congr_left hpiece, List.map_id'']
  exact fun _ => rfl

/-- Nor do several of them. -/
theorem Fragment.map_renumber_of_marks_nil {n : Nat} {fs : List Fragment}
    (h : fs.flatMap marks = []) : fs.map (renumber n) = fs := by
  rw [List.map_congr_left fun f hf => renumber_of_marks_nil (List.flatMap_eq_nil_iff.mp h f hf),
    List.map_id'']
  exact fun _ => rfl

/-- The same errors, and traces whose places show the other number in the second run. -/
def Coupling.renumber (n : Nat) : Coupling where
  errors := Eq
  traces t u := u = t.renumber n
  empty := rfl
  append ht hu := by rw [ht, hu, Trace.renumber_append]

namespace Resolve

variable {α : Type} {n : Nat}

/-- The second run is the first one under another number; `shift` gives results the number. -/
abbrev Renumbered (n : Nat) (shift : α → α) : Resolve α → Resolve α → Prop :=
  Carried (.renumber n) shift

namespace Renumbered

/-- A run that does not look at the number of the statement. -/
theorem same {shift : α → α} {x : Resolve α}
    (h : ∀ a t, x.Yields a t → shift a = a ∧ t.bound = []) : Renumbered n shift x x := by
  unfold Renumbered Carried Coupled
  cases hx : x.run with
  | error e => exact .error rfl
  | ok result =>
    obtain ⟨hshift, hbound⟩ := h result.1 result.2 hx
    exact .ok ⟨hshift.symm, (Trace.renumber_of_bound_nil hbound).symm⟩

/-- Bare fragments do not show the number of the statement. -/
theorem bare {x : Resolve Fragment} (h : ∀ f t, x.Yields f t → Bare f t) :
    Renumbered n (Fragment.renumber n) x x :=
  same fun f t hf => ⟨Fragment.renumber_of_marks_nil (h f t hf).marks, (h f t hf).bound⟩

/-- Nor do several of them. -/
theorem allBare {x : Resolve (List Fragment)} (h : ∀ fs t, x.Yields fs t → AllBare fs t) :
    Renumbered n (List.map (Fragment.renumber n)) x x :=
  same fun fs t hfs => ⟨Fragment.map_renumber_of_marks_nil (h fs t hfs).marks, (h fs t hfs).bound⟩

/-- The marker of a value shows the other number. -/
theorem bound (slot : Slot) (v : Value) :
    Renumbered n (Piece.renumber n) (Resolve.bound slot v) (Resolve.bound (slot.renumber n) v) :=
  .ok ⟨rfl, rfl⟩

end Renumbered

end Resolve

namespace Context

open Resolve

variable {ctx : Context} {scope : Scope} {n : Nat}

/-- Opening a table does not depend on the number of the statement. -/
theorem openScope_renumber (token : Token) (name : String) :
    Renumbered n id (ctx.openScope token name) (ctx.openScope token name) := by
  apply Renumbered.same
  intro scope t h
  obtain ⟨_, -, -, rfl⟩ := openScope_yields.mp h
  exact ⟨rfl, rfl⟩

/-- A value from outside does not show the number of the statement. -/
theorem ofExcept_renumber {α : Type} (x : Except Error α) :
    Renumbered n id (ofExcept x) (ofExcept x) := by
  apply Renumbered.same
  intro a t h
  obtain ⟨-, rfl⟩ := ofExcept_yields.mp h
  exact ⟨rfl, rfl⟩

/-- Nor does a value that may be missing. -/
theorem ofOption_renumber {α : Type} (e : Error) (x : Option α) :
    Renumbered n id (ofOption e x) (ofOption e x) := by
  apply Renumbered.same
  intro a t h
  obtain ⟨-, rfl⟩ := ofOption_yields.mp h
  exact ⟨rfl, rfl⟩

/-- Nor does the question whether there are columns. -/
theorem requireColumns_renumber (parts : SelectParts) (e : Error) :
    Renumbered n id (requireColumns parts e) (requireColumns (parts.renumber n) e) := by
  have hcolumns : (parts.renumber n).collected.columns.isEmpty = parts.collected.columns.isEmpty :=
    List.isEmpty_map
  unfold requireColumns
  rw [hcolumns]
  split
  · exact .fail rfl
  · exact .pure rfl

/-- A comparison shows the number in its operand and in its marker. -/
theorem renumber_comparedWith (operand : Fragment) (comparison : Comparison) (marker : Piece) :
    (comparedWith operand comparison marker).renumber n =
      comparedWith (operand.renumber n) comparison (marker.renumber n) := by
  simp [comparedWith]

/-- A condition on groups shows the other number in its marker. -/
theorem havingItem_renumber (path : Path) (item : HavingItem) (i : Nat) :
    Renumbered n (Fragment.renumber n) (ctx.havingItem scope path item i)
      (ctx.havingItem scope (path.renumber n) item i) := by
  apply (Renumbered.bare fun _ _ => havingOperand_bare).bind
  intro operand
  apply (Renumbered.bound ⟨.comparedGroup, path, i, none⟩ item.value).map
  intro marker
  exact (renumber_comparedWith operand item.comparison marker).symm

/-- What the clauses collect shows the other number in the conditions on groups only. -/
theorem collect_renumber (clauses : Clauses) (path : Path) {columns : Resolve (List Fragment)}
    (extent : Extent) (hcolumns : ∀ fs t, columns.Yields fs t → AllBare fs t) :
    Renumbered n (Collected.renumber n) (ctx.collect scope clauses path columns extent)
      (ctx.collect scope clauses (path.renumber n) columns extent) := by
  have hgroups : Renumbered n (List.map (Fragment.renumber n))
      (clauses.groups.mapM (ctx.groupItem scope)) (clauses.groups.mapM (ctx.groupItem scope)) :=
    .allBare fun _ _ => mapM_bare fun _ _ _ => groupItem_bare
  have hhavings : Renumbered n (List.map (Fragment.renumber n))
      (clauses.havings.zipIdx.mapM fun x => ctx.havingItem scope path x.1 x.2)
      (clauses.havings.zipIdx.mapM fun x => ctx.havingItem scope (path.renumber n) x.1 x.2) :=
    .mapM_same fun x _ => havingItem_renumber path x.1 x.2
  have horders : Renumbered n (List.map (Fragment.renumber n))
      (clauses.orders.mapM (ctx.orderItem scope)) (clauses.orders.mapM (ctx.orderItem scope)) :=
    .allBare fun _ _ => mapM_bare fun _ _ _ => orderItem_bare
  cases extent with
  | everything =>
    apply (Renumbered.allBare hcolumns).bind
    intro columns
    apply hgroups.bind
    intro groups
    apply hhavings.bind
    intro havings
    apply horders.map
    intro orders
    rfl
  | counting =>
    apply hgroups.bind
    intro groups
    apply hhavings.map
    intro havings
    rfl
  | conditionsOnly => exact .pure rfl

/-- A membership shows the other number in the markers of its members. -/
theorem membership_renumber (field : String) (test : Membership) (v : Value) (path : Path)
    (index : Nat) :
    Renumbered n (Fragment.renumber n) (ctx.membership scope field test v path index)
      (ctx.membership scope field test v (path.renumber n) index) := by
  apply (ofOption_renumber _ v.members?).bind
  intro members
  rw [id]
  split
  · exact .fail rfl
  · apply (Renumbered.bare fun _ _ => field_bare).bind
    intro operand
    have hmarkers : Renumbered n (List.map (Piece.renumber n))
        (members.zipIdx.mapM fun x => Resolve.bound ⟨.compared, path, index, some x.2⟩ x.1)
        (members.zipIdx.mapM fun x =>
          Resolve.bound ⟨.compared, path.renumber n, index, some x.2⟩ x.1) :=
      .mapM_same fun x _ => Renumbered.bound ⟨.compared, path, index, some x.2⟩ x.1
    apply hmarkers.map
    intro markers
    simp [Function.comp_def]

/-- A condition that holds no query shows the other number in its markers. -/
theorem simpleCondition_renumber (path : Path) (index : Nat) (field : String) (filter : Filter) :
    Renumbered n (Fragment.renumber n) (ctx.simpleCondition scope path index field filter)
      (ctx.simpleCondition scope (path.renumber n) index field filter) := by
  have hmarker : ∀ v, Renumbered n (Piece.renumber n)
      (Resolve.bound ⟨.compared, path, index, none⟩ v)
      (Resolve.bound ⟨.compared, path.renumber n, index, none⟩ v) := fun v =>
    .bound ⟨.compared, path, index, none⟩ v
  have hexpression : ∀ text, Renumbered n (Fragment.renumber n) (ctx.expression scope text)
      (ctx.expression scope text) := fun _ => .bare fun _ _ => expression_bare
  have hfield : ∀ name, Renumbered n (Fragment.renumber n) (ctx.field scope name)
      (ctx.field scope name) := fun _ => .bare fun _ _ => field_bare
  -- Operands hold no markers, so only what is bound shows the other number.
  cases filter with
  | compare comparison v =>
    apply (Renumbered.bare fun _ _ => comparand_bare).bind
    intro operand
    apply (hmarker v).map
    intro marker
    exact (renumber_comparedWith operand comparison marker).symm
  | compareField comparison other =>
    apply (hexpression field).bind
    intro left
    apply (hexpression other).map
    intro right
    simp
  | compareDate comparison pattern v =>
    apply (hfield field).bind
    intro operand
    apply (hmarker v).map
    intro marker
    rw [renumber_comparedWith, Fragment.renumber_wrap]
  | like wildcards v =>
    simp only [simpleCondition]
    split
    · exact .fail rfl
    · apply (hfield field).bind
      intro operand
      apply (hmarker (wildcards.pattern v)).map
      intro marker
      simp
  | member test v => exact membership_renumber field test v path index
  | memberOf test query => exact .fail rfl
  | guard guard v =>
    apply (hexpression field).bind
    intro operand
    apply (hmarker v).map
    intro marker
    simp
  | isNull =>
    apply (hexpression field).map
    intro operand
    simp
  | isNotNull =>
    apply (hexpression field).map
    intro operand
    simp

mutual

/-- A `SELECT` takes the same steps under every number. -/
theorem selectParts_renumber : ∀ (q : Query) (table : String) (path : Path) (extent : Extent),
    Renumbered n (SelectParts.renumber n) (ctx.selectParts table path extent q)
      (ctx.selectParts table (path.renumber n) extent q)
  | ⟨_, token, clauses, conditions, joins, _⟩, table, path, extent => by
    rw [selectParts, selectParts]
    apply (openScope_renumber token table).bind
    intro scope
    apply (collect_renumber clauses (path.child "gh") extent fun _ _ => shownColumns_bare).bind
    intro own
    apply (joined_renumber joins scope (path.child "cl") extent 0).bind
    intro added
    apply (groupTerms_renumber conditions scope (path.child "tl")).map
    intro terms
    exact (renumber_assemble ctx table token own added terms).symm

/-- Branches take the same steps under every number. -/
theorem unionBranches_renumber : ∀ (branches : List UnionBranch) (table : String) (path : Path)
    (k : Nat), Renumbered n (Fragment.renumber n) (ctx.unionBranches table path k branches)
      (ctx.unionBranches table (path.renumber n) k branches)
  | [], _, _, _ => by
    rw [unionBranches, unionBranches]
    exact .pure rfl
  | ⟨kind, ⟨own, token, clauses, conditions, joins, unions⟩⟩ :: rest, table, path, k => by
    rw [unionBranches, unionBranches]
    apply (selectParts_renumber ⟨own, token, clauses, conditions, joins, unions⟩ (own.getD table)
      (path.childAt "un" k) .everything).bind
    intro parts
    apply (requireColumns_renumber parts _).bind
    intro _
    apply (unionBranches_renumber rest table path (k + 1)).map
    intro others
    simp [SelectParts.renumber_select]

/-- So does a group. -/
theorem groupTerms_renumber : ∀ (group : ConditionGroup) (scope : Scope) (path : Path),
    Renumbered n (renumberTerms n) (ctx.groupTerms scope path group)
      (ctx.groupTerms scope (path.renumber n) group)
  | ⟨conditions, groups⟩, scope, path => by
    rw [groupTerms, groupTerms]
    apply (conditionTerms_renumber conditions scope path 0).bind
    intro leaves
    apply (subgroupTerms_renumber groups scope path 0).map
    intro others
    exact (renumberTerms_append leaves others).symm

/-- So do conditions. -/
theorem conditionTerms_renumber : ∀ (conditions : List Condition) (scope : Scope) (path : Path)
    (i : Nat), Renumbered n (renumberTerms n) (ctx.conditionTerms scope path i conditions)
      (ctx.conditionTerms scope (path.renumber n) i conditions)
  | [], _, _, _ => by
    rw [conditionTerms, conditionTerms]
    exact .pure (by rw [renumberTerms])
  | ⟨connector, field, filter⟩ :: rest, scope, path, i => by
    rw [conditionTerms, conditionTerms]
    apply (conditionText_renumber filter scope path i field).bind
    intro text
    apply (conditionTerms_renumber rest scope path (i + 1)).map
    intro others
    rw [renumberTerms, Term.renumber]

/-- A condition that holds a query shows the other number in the query, too. -/
theorem conditionText_renumber : ∀ (filter : Filter) (scope : Scope) (path : Path) (i : Nat)
    (field : String), Renumbered n (Fragment.renumber n)
      (ctx.conditionText scope path i field filter)
      (ctx.conditionText scope (path.renumber n) i field filter)
  | .memberOf test ⟨some table, token, clauses, conditions, joins, unions⟩, scope, path, i, field =>
    by
    rw [conditionText, conditionText]
    apply (Renumbered.bare fun _ _ => field_bare).bind
    intro operand
    apply (selectParts_renumber ⟨some table, token, clauses, conditions, joins, unions⟩ table
      (path.childAt "s" i) .everything).bind
    intro parts
    apply (requireColumns_renumber parts _).bind
    intro _
    apply (unionBranches_renumber unions table (path.childAt "s" i) 0).map
    intro branches
    simp [SelectParts.renumber_select, renumber_compound]
  | .memberOf test ⟨none, _, _, _, _, _⟩, _, _, _, field =>
    .fail rfl
  | .compare comparison v, _, path, i, field =>
    simpleCondition_renumber path i field (.compare comparison v)
  | .compareField comparison other, _, path, i, field =>
    simpleCondition_renumber path i field (.compareField comparison other)
  | .compareDate comparison pattern v, _, path, i, field =>
    simpleCondition_renumber path i field (.compareDate comparison pattern v)
  | .like wildcards v, _, path, i, field =>
    simpleCondition_renumber path i field (.like wildcards v)
  | .member test v, _, path, i, field => simpleCondition_renumber path i field (.member test v)
  | .guard guard v, _, path, i, field => simpleCondition_renumber path i field (.guard guard v)
  | .isNull, _, path, i, field => simpleCondition_renumber path i field .isNull
  | .isNotNull, _, path, i, field => simpleCondition_renumber path i field .isNotNull

/-- So do the groups of a group. -/
theorem subgroupTerms_renumber : ∀ (groups : List Subgroup) (scope : Scope) (path : Path)
    (j : Nat), Renumbered n (renumberTerms n) (ctx.subgroupTerms scope path j groups)
      (ctx.subgroupTerms scope (path.renumber n) j groups)
  | [], _, _, _ => by
    rw [subgroupTerms, subgroupTerms]
    exact .pure (by rw [renumberTerms])
  | ⟨connector, group⟩ :: rest, scope, path, j => by
    rw [subgroupTerms, subgroupTerms]
    apply (groupTerms_renumber group scope (path.childAt "ot" j)).bind
    intro terms
    apply (subgroupTerms_renumber rest scope path (j + 1)).map
    intro others
    rw [isEmpty_renumberTerms]
    split
    · rfl
    · rw [renumberTerms, Term.renumber]

/-- So do joins. -/
theorem joined_renumber : ∀ (joins : List Join) (parent : Scope) (path : Path) (extent : Extent)
    (l : Nat), Renumbered n (Joined.renumber n) (ctx.joined parent path extent l joins)
      (ctx.joined parent (path.renumber n) extent l joins)
  | [], _, _, _, _ => by
    rw [joined, joined]
    exact .pure rfl
  | ⟨keys, ⟨some table, token, clauses, conditions, joins, _⟩, on⟩ :: rest, parent, path, extent,
    l => by
    rw [joined, joined, joinedQuery, joinedQuery]
    refine Carried.bind (?_ : Renumbered n (Joined.renumber n) _ _) fun first => ?_
    · apply (openScope_renumber token table).bind
      intro scope
      apply (Renumbered.bare fun _ _ => joinKeys_bare).bind
      intro keyText
      apply (collect_renumber clauses (path.childAt "gh" l) extent
        fun _ _ => joinedColumns_bare).bind
      intro own
      apply (groupTerms_renumber on scope (path.childAt "ofl" l)).bind
      intro extra
      apply (groupTerms_renumber conditions scope (path.childAt "fl" l)).bind
      intro terms
      apply (joined_renumber joins scope (path.childAt "j" l) extent 0).map
      intro inner
      rw [Joined.renumber_append, renumber_attach]
    · apply (joined_renumber rest parent path extent (l + 1)).map
      intro others
      exact (Joined.renumber_append first others).symm
  | ⟨keys, ⟨none, _, _, _, _, _⟩, on⟩ :: rest, parent, path, extent, l => by
    rw [joined, joined, joinedQuery, joinedQuery]
    refine Carried.bind (φ := Joined.renumber n) (.fail rfl) fun first => ?_
    apply (joined_renumber rest parent path extent (l + 1)).map
    intro others
    exact (Joined.renumber_append first others).symm

end

/-- Assignments show the other number in their markers. -/
theorem assignments_renumber (qualify : Bool) (path : Path) (i : Nat) (sets : List Assignment) :
    Renumbered n (List.map (Fragment.renumber n)) (assignments scope qualify path i sets)
      (assignments scope qualify (path.renumber n) i sets) := by
  induction sets generalizing i with
  | nil => exact .pure rfl
  | cons a rest ih =>
    rw [assignments, assignments]
    apply (ofExcept_renumber _).bind
    intro column
    apply (Renumbered.bound ⟨.assigned, path, i, none⟩ a.value).bind
    intro marker
    apply (ih (i + 1)).map
    intro others
    have htarget : ∀ token?,
        (Fragment.qualified token? column).renumber n = .qualified token? column :=
      fun token? => Fragment.renumber_of_marks_nil (Fragment.marks_qualified token? column)
    rw [List.map_cons, renumber_assignmentText, htarget]
    rfl

/-- The tail of a writing statement binds no value. -/
theorem writeTail_renumber (d : Dialect) (statement table : String) (orders : List Fragment)
    (limit : Option UInt64) :
    Renumbered n (Fragment.renumber n) (ofExcept (writeTail d statement table orders limit))
      (ofExcept (writeTail d statement table (orders.map (Fragment.renumber n)) limit)) := by
  unfold writeTail
  rw [List.isEmpty_map]
  cases d.checkBounds statement table (!orders.isEmpty) limit with
  | error e => exact .error rfl
  | ok _ =>
    apply Carried.pure
    rw [Fragment.renumber_append, renumber_clause]
    rfl

/-- An update takes the same steps under every number. -/
theorem update_renumber (u : Update) (table : String) (path : Path) :
    Renumbered n (Fragment.renumber n) (ctx.update u table path)
      (ctx.update u table (path.renumber n)) := by
  unfold update
  apply (openScope_renumber u.token table).bind
  intro scope
  apply (joined_renumber u.joins scope (path.child "cl") .conditionsOnly 0).bind
  intro added
  apply (assignments_renumber (!u.joins.isEmpty) (path.child "u") 0 u.sets).bind
  intro sets
  apply (groupTerms_renumber u.conditions scope (path.child "ut")).bind
  intro terms
  rw [isEmpty_renumberTerms]
  split
  · exact .fail rfl
  · have horders : Renumbered n (List.map (Fragment.renumber n))
        (u.orders.mapM (ctx.orderItem scope)) (u.orders.mapM (ctx.orderItem scope)) :=
      .allBare fun _ _ => mapM_bare fun _ _ _ => orderItem_bare
    apply horders.bind
    intro orders
    apply (writeTail_renumber ctx.dialect "update" table orders u.limit).map
    intro tail
    simp [renumber_combineWhere, Term.renumber_whereText, Joined.renumber]

end Context

end DynamicSql

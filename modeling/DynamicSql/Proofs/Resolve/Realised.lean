import DynamicSql.Proofs.Resolve.Operands

/-!
# A resolved query shows its landmarks

The main statement is `selectParts_shows`: the marks in the text of a resolved query are those of
its landmarks, in their order, and its trace accounts for them. The trace follows the order of
resolving, so it binds the values of the landmarks up to a permutation.
-/

namespace DynamicSql

open Landmark (mark tokens values)

/-- A trace binds exactly the values among landmarks, and mentions all of their tables. -/
structure Accounts (t : Trace) (ls : List Landmark) : Prop where
  bound : t.bound.Perm (values ls)
  mentioned : tokens ls ⊆ t.mentioned

namespace Accounts

variable {t u : Trace} {a b : List Landmark}

/-- Where nothing is bound, there is nothing to account for. -/
theorem of_bound_eq_nil (h : t.bound = []) : Accounts t [] :=
  ⟨by rw [h]; exact .nil, List.nil_subset _⟩

/-- A mention accounts for a table. -/
theorem mention (token : Token) : Accounts ⟨[token], []⟩ [.table token] :=
  ⟨.nil, List.Subset.refl _⟩

/-- Traces account for landmarks part by part. -/
theorem append (h : Accounts t a) (k : Accounts u b) : Accounts (t ++ u) (a ++ b) := by
  constructor
  · rw [Landmark.values_append, Trace.bound_append]
    exact h.bound.append k.bound
  · rw [Landmark.tokens_append, Trace.mentioned_append]
    exact List.append_subset.mpr ⟨List.subset_append_of_subset_left _ h.mentioned,
      List.subset_append_of_subset_right _ k.mentioned⟩

/-- The order of the landmarks does not matter to a trace. -/
theorem perm (h : Accounts t a) (hab : a.Perm b) : Accounts t b :=
  ⟨h.bound.trans (hab.filterMap _), fun _ hmem => h.mentioned ((hab.filterMap _).mem_iff.mpr hmem)⟩

end Accounts

/-- Marks are those of landmarks, in their order, and a trace accounts for these. -/
structure Shows (marks : List (Token ⊕ Slot)) (t : Trace) (ls : List Landmark) : Prop where
  marks_eq : marks = ls.map mark
  accounts : Accounts t ls

namespace Shows

variable {m n : List (Token ⊕ Slot)} {t u : Trace} {a b : List Landmark}

/-- What is shown one after the other shows landmarks one after the other. -/
theorem append (h : Shows m t a) (k : Shows n u b) : Shows (m ++ n) (t ++ u) (a ++ b) :=
  ⟨by rw [h.marks_eq, k.marks_eq, List.map_append], h.accounts.append k.accounts⟩

/-- What a bare fragment adds is nothing. -/
theorem of_bare {f : Fragment} (h : Bare f t) : Shows f.marks t [] :=
  ⟨h.marks, .of_bound_eq_nil h.bound⟩

/-- A bare fragment may stand in front. -/
theorem bare_append {f : Fragment} (h : Bare f t) (k : Shows n u b) :
    Shows (f.marks ++ n) (t ++ u) b :=
  (of_bare h).append k

/-- A value is bound, and its marker stands in the text. -/
theorem value (slot : Slot) (v : Value) : Shows [.inr slot] ⟨[], [(slot, v)]⟩ [.value slot v] :=
  ⟨rfl, .refl _, List.nil_subset _⟩

end Shows

/-- Only the conditions on groups among the lists of a query bring anything in. -/
structure Collected.OnlyHavings (lists : Collected) : Prop where
  columns : lists.columns.flatMap Fragment.marks = []
  groups : lists.groups.flatMap Fragment.marks = []
  orders : lists.orders.flatMap Fragment.marks = []

/-- Collected lists bring in conditions on groups only if their parts do. -/
theorem Collected.OnlyHavings.append {a b : Collected} (ha : a.OnlyHavings) (hb : b.OnlyHavings) :
    (a ++ b).OnlyHavings where
  columns := by
    change (a.columns ++ b.columns).flatMap _ = []
    rw [List.flatMap_append, ha.columns, hb.columns, List.nil_append]
  groups := by
    change (a.groups ++ b.groups).flatMap _ = []
    rw [List.flatMap_append, ha.groups, hb.groups, List.nil_append]
  orders := by
    change (a.orders ++ b.orders).flatMap _ = []
    rw [List.flatMap_append, ha.orders, hb.orders, List.nil_append]

/-- The parts of a `SELECT` show landmarks in the body only. -/
structure SelectParts.Shows (parts : SelectParts) (t : Trace) (ls : List Landmark) : Prop where
  body : DynamicSql.Shows parts.body.marks t ls
  columns : parts.collected.columns.flatMap Fragment.marks = []
  orders : parts.collected.orders.flatMap Fragment.marks = []

/-- Joins show landmarks, part by part. -/
structure Joined.Shows (added : Joined) (t : Trace) (ls : JoinLandmarks) : Prop where
  source : added.text.marks = ls.source.map mark
  conditions : added.conditions.flatMap Fragment.marks = ls.conditions.map mark
  havings : added.collected.havings.flatMap Fragment.marks = ls.havings.map mark
  lists : added.collected.OnlyHavings
  accounts : Accounts t ls.all

/-- Whether an extent takes conditions on groups. -/
def Extent.grouped : Extent → Bool
  | .everything | .counting => true
  | .conditionsOnly => false

/-- Joins show their landmarks join by join. -/
theorem Joined.Shows.append {a b : Joined} {t u : Trace} {ls ks : JoinLandmarks}
    (h : a.Shows t ls) (k : b.Shows u ks) : (a ++ b).Shows (t ++ u) (ls ++ ks) where
  source := by
    change Fragment.marks (a.text ++ b.text) = (ls.source ++ ks.source).map mark
    rw [Fragment.marks_append, h.source, k.source, List.map_append]
  conditions := by
    change (a.conditions ++ b.conditions).flatMap _ = (ls.conditions ++ ks.conditions).map mark
    rw [List.flatMap_append, h.conditions, k.conditions, List.map_append]
  havings := by
    change (a.collected.havings ++ b.collected.havings).flatMap _ =
      (ls.havings ++ ks.havings).map mark
    rw [List.flatMap_append, h.havings, k.havings, List.map_append]
  lists := h.lists.append k.lists
  accounts := (h.accounts.append k.accounts).perm (JoinLandmarks.all_append_perm ls ks)

/-- A whole `SELECT` shows what its body shows. -/
theorem SelectParts.Shows.select {parts : SelectParts} {t : Trace} {ls : List Landmark}
    (h : parts.Shows t ls) : DynamicSql.Shows parts.select.marks t ls := by
  have hmarks : parts.select.marks = parts.body.marks := by
    unfold Fragment.marks
    rw [filterMap_select mark?_reading]
    change parts.collected.columns.flatMap Fragment.marks ++ _ ++
      parts.collected.orders.flatMap Fragment.marks = _
    rw [h.columns, h.orders, List.nil_append, List.append_nil]
  rw [hmarks]
  exact h.body

namespace Context

open Resolve

variable {ctx : Context} {scope : Scope} {f : Fragment} {t : Trace}

/-- A list of resolved parts shows the landmarks of each, one after the other. -/
theorem mapM_shows {α : Type} {step : α → Resolve Fragment} {landmarks : α → List Landmark}
    {xs : List α} {fs : List Fragment}
    (hstep : ∀ x f t, (step x).Yields f t → Shows f.marks t (landmarks x))
    (h : (xs.mapM step).Yields fs t) :
    Shows (fs.flatMap Fragment.marks) t (xs.flatMap landmarks) := by
  induction xs generalizing fs t with
  | nil =>
    obtain ⟨rfl, rfl⟩ := mapM_nil_yields.mp h
    exact ⟨rfl, .of_bound_eq_nil rfl⟩
  | cons x xs ih =>
    obtain ⟨f, t₁, fs, t₂, hf, hfs, rfl, rfl⟩ := mapM_cons_yields.mp h
    rw [List.flatMap_cons, List.flatMap_cons]
    exact (hstep x f t₁ hf).append (ih hfs)

/-- Values bound in a row have their markers in a row. -/
theorem mapM_bound_yields {α : Type} {slot : α → Slot} {value : α → Value} {xs : List α}
    {markers : List Piece} (h : (xs.mapM fun x => bound (slot x) (value x)).Yields markers t) :
    Shows (Fragment.marks (Fragment.join ", " (markers.map ([·])))) t
      (xs.map fun x => .value (slot x) (value x)) := by
  rw [Fragment.marks_join]
  induction xs generalizing markers t with
  | nil =>
    obtain ⟨rfl, rfl⟩ := mapM_nil_yields.mp h
    exact ⟨rfl, .of_bound_eq_nil rfl⟩
  | cons x xs ih =>
    obtain ⟨piece, t₁, markers, t₂, hpiece, hmarkers, rfl, rfl⟩ := mapM_cons_yields.mp h
    obtain ⟨rfl, rfl⟩ := bound_yields.mp hpiece
    exact (Shows.value (slot x) (value x)).append (ih hmarkers)

/-- A condition on groups shows the place of its value. -/
theorem havingItem_shows {path : Path} {item : HavingItem} {i : Nat}
    (h : (ctx.havingItem scope path item i).Yields f t) :
    Shows f.marks t [.value ⟨.comparedGroup, path, i, none⟩ item.value] := by
  simp only [havingItem, bind_yields, bound_yields, pure_yields] at h
  obtain ⟨operand, t₁, _, hoperand, ⟨_, _, _, ⟨rfl, rfl⟩, ⟨rfl, rfl⟩, rfl⟩, rfl⟩ := h
  rw [Trace.append_empty, comparedWith, Fragment.marks_append]
  exact Shows.bare_append (havingOperand_bare hoperand) (Shows.value _ item.value)

/-- Conditions on groups show the places of their values in their order. -/
theorem havings_shows {path : Path} {havings : List HavingItem} {fs : List Fragment}
    (h : (havings.zipIdx.mapM fun (item, i) => ctx.havingItem scope path item i).Yields fs t) :
    Shows (fs.flatMap Fragment.marks) t (havingLandmarks true path havings) := by
  have hstep : ∀ (x : HavingItem × Nat) f t, (ctx.havingItem scope path x.1 x.2).Yields f t →
      Shows f.marks t [.value ⟨.comparedGroup, path, x.2, none⟩ x.1.value] :=
    fun _ _ _ => havingItem_shows
  have hshows := mapM_shows hstep h
  rwa [← List.map_eq_flatMap] at hshows

/-- The lists of a query show the values of its conditions on groups. -/
theorem collect_shows {clauses : Clauses} {path : Path} {columns : Resolve (List Fragment)}
    {extent : Extent} {lists : Collected}
    (hcolumns : ∀ fs t, columns.Yields fs t → AllBare fs t)
    (h : (ctx.collect scope clauses path columns extent).Yields lists t) :
    Shows (lists.havings.flatMap Fragment.marks) t
      (havingLandmarks extent.grouped path clauses.havings) ∧ lists.OnlyHavings := by
  cases extent with
  | everything =>
    simp only [collect, bind_yields, pure_yields] at h
    obtain ⟨cs, t₁, _, hcs, ⟨gs, t₂, _, hgs, ⟨hs, t₃, _, hhs, ⟨os, t₄, _, hos, ⟨rfl, rfl⟩, rfl⟩,
      rfl⟩, rfl⟩, rfl⟩ := h
    have hc := hcolumns cs t₁ hcs
    have hg := mapM_bare (fun _ _ _ => groupItem_bare) hgs
    have hh := havings_shows hhs
    have ho := mapM_bare (fun _ _ _ => orderItem_bare) hos
    refine ⟨⟨hh.marks_eq, ?_⟩, hc.marks, hg.marks, ho.marks⟩
    rw [Trace.append_empty]
    have hsum := (Accounts.of_bound_eq_nil hc.bound).append
      ((Accounts.of_bound_eq_nil hg.bound).append
        (hh.accounts.append (Accounts.of_bound_eq_nil ho.bound)))
    rwa [List.append_nil] at hsum
  | counting =>
    simp only [collect, bind_yields, pure_yields] at h
    obtain ⟨gs, t₂, _, hgs, ⟨hs, t₃, _, hhs, ⟨rfl, rfl⟩, rfl⟩, rfl⟩ := h
    have hg := mapM_bare (fun _ _ _ => groupItem_bare) hgs
    have hh := havings_shows hhs
    refine ⟨⟨hh.marks_eq, ?_⟩, rfl, hg.marks, rfl⟩
    rw [Trace.append_empty]
    exact (Accounts.of_bound_eq_nil hg.bound).append hh.accounts
  | conditionsOnly =>
    obtain ⟨rfl, rfl⟩ := pure_yields.mp h
    exact ⟨⟨rfl, .of_bound_eq_nil rfl⟩, rfl, rfl, rfl⟩

/-- A condition without a query shows its value, if it has one. -/
theorem simpleCondition_shows {path : Path} {i : Nat} {field : String} {filter : Filter}
    (h : (ctx.simpleCondition scope path i field filter).Yields f t) :
    Shows f.marks t (filter.landmarks path i) := by
  cases filter with
  | compare comparison v =>
    simp only [simpleCondition, bind_yields, bound_yields, pure_yields] at h
    obtain ⟨operand, t₁, _, hoperand, ⟨_, _, _, ⟨rfl, rfl⟩, ⟨rfl, rfl⟩, rfl⟩, rfl⟩ := h
    rw [Trace.append_empty, comparedWith, Fragment.marks_append, Filter.landmarks]
    exact Shows.bare_append (comparand_bare hoperand) (Shows.value _ v)
  | compareField comparison other =>
    simp only [simpleCondition, bind_yields, pure_yields] at h
    obtain ⟨left, t₁, _, hleft, ⟨right, t₂, _, hright, ⟨rfl, rfl⟩, rfl⟩, rfl⟩ := h
    rw [Trace.append_empty, Fragment.marks_append, Fragment.marks_text_cons, Filter.landmarks]
    exact Shows.bare_append (expression_bare hleft) (Shows.of_bare (expression_bare hright))
  | compareDate comparison pattern v =>
    simp only [simpleCondition, bind_yields, bound_yields, pure_yields] at h
    obtain ⟨operand, t₁, _, hoperand, ⟨_, _, _, ⟨rfl, rfl⟩, ⟨rfl, rfl⟩, rfl⟩, rfl⟩ := h
    rw [Trace.append_empty, comparedWith, Fragment.marks_append, Fragment.marks_wrap,
      Filter.landmarks]
    exact Shows.bare_append (field_bare hoperand) (Shows.value _ v)
  | like wildcards v =>
    simp only [simpleCondition] at h
    split at h
    · exact absurd h fail_yields
    · simp only [bind_yields, bound_yields, pure_yields] at h
      obtain ⟨operand, t₁, _, hoperand, ⟨_, _, _, ⟨rfl, rfl⟩, ⟨rfl, rfl⟩, rfl⟩, rfl⟩ := h
      rw [Trace.append_empty, Fragment.marks_append, Filter.landmarks]
      exact Shows.bare_append (field_bare hoperand) (Shows.value _ _)
  | member test v =>
    simp only [simpleCondition, membership, bind_yields, ofOption_yields] at h
    obtain ⟨members, _, _, ⟨hmembers, rfl⟩, h, rfl⟩ := h
    split at h
    · exact absurd h fail_yields
    · simp only [bind_yields, pure_yields] at h
      obtain ⟨operand, t₁, _, hoperand, ⟨markers, t₂, _, hmarkers, ⟨rfl, rfl⟩, rfl⟩, rfl⟩ := h
      rw [Trace.append_empty, Trace.empty_append, Fragment.marks_append,
        Fragment.marks_text_cons, Fragment.marks_parens, Filter.landmarks, hmembers]
      exact Shows.bare_append (field_bare hoperand) (mapM_bound_yields hmarkers)
  | memberOf test query => exact absurd h fail_yields
  | guard guard v =>
    simp only [simpleCondition, bind_yields, bound_yields, pure_yields] at h
    obtain ⟨operand, t₁, _, hoperand, ⟨_, _, _, ⟨rfl, rfl⟩, ⟨rfl, rfl⟩, rfl⟩, rfl⟩ := h
    rw [Trace.append_empty, Fragment.marks_append, Filter.landmarks]
    exact Shows.bare_append (expression_bare hoperand) (Shows.value _ v)
  | isNull =>
    exact Shows.of_bare (map_bare (fun _ _ => expression_bare) (fun _ => by simp) h)
  | isNotNull =>
    exact Shows.of_bare (map_bare (fun _ _ => expression_bare) (fun _ => by simp) h)

/-- What stands between `FROM` and `HAVING` is a table with its joins, the conditions and the
conditions on groups. -/
theorem assemble_shows {table : String} {token : Token} {lists : Collected} {added : Joined}
    {terms : List Term} {havings conditions : List Landmark} {joins : JoinLandmarks}
    {t₁ t₂ t₃ : Trace}
    (hlists : Shows (lists.havings.flatMap Fragment.marks) t₁ havings ∧ lists.OnlyHavings)
    (hadded : added.Shows t₂ joins) (hterms : Shows (Term.leaves terms).marks t₃ conditions) :
    (ctx.assemble table token lists added terms).Shows (⟨[token], []⟩ ++ (t₁ ++ (t₂ ++ t₃)))
      (.table token :: joins.source ++ conditions ++ joins.conditions ++ havings ++
        joins.havings) := by
  have honly : (ctx.assemble table token lists added terms).collected.OnlyHavings :=
    hlists.2.append hadded.lists
  refine ⟨⟨?_, ?_⟩, honly.columns, honly.orders⟩
  · have hbody : (ctx.assemble table token lists added terms).body.marks =
        .inl token :: added.text.marks ++
          ((Term.leaves terms).marks ++ added.conditions.flatMap Fragment.marks) ++
          (lists.havings ++ added.collected.havings).flatMap Fragment.marks := by
      unfold Fragment.marks
      rw [filterMap_body mark?_reading, filterMap_assemble_source, filterMap_assemble_condition
        mark?_reading]
      change _ ++ (ctx.assemble table token lists added terms).collected.groups.flatMap
        Fragment.marks ++ _ = _
      rw [honly.groups, List.append_nil]
      rfl
    rw [hbody, hadded.source, hterms.marks_eq, hadded.conditions, List.flatMap_append,
      hlists.1.marks_eq, hadded.havings]
    simp only [List.map_append, List.map_cons, mark, List.append_assoc, List.cons_append]
  · have hsum := (Accounts.mention token).append
      (hlists.1.accounts.append (hadded.accounts.append hterms.accounts))
    refine hsum.perm ?_
    -- The lists are resolved before the joins, and the joins before the conditions.
    simp only [JoinLandmarks.all, List.cons_append, List.nil_append]
    refine .cons _ ?_
    rw [← Multiset.coe_eq_coe]
    simp only [← Multiset.coe_add]
    abel

/-- A join shows its table and its `ON` conditions, and hands over the rest. -/
theorem attach_shows {table : String} {token : Token} {keys : Fragment} {lists : Collected}
    {extra terms : List Term} {on conditions havings : List Landmark} {t₁ t₂ t₃ t₄ : Trace}
    (hkeys : Bare keys t₁)
    (hlists : Shows (lists.havings.flatMap Fragment.marks) t₂ havings ∧ lists.OnlyHavings)
    (hextra : Shows (Term.leaves extra).marks t₃ on)
    (hterms : Shows (Term.leaves terms).marks t₄ conditions) :
    (ctx.attach table token keys lists extra terms).Shows
      (⟨[token], []⟩ ++ (t₁ ++ (t₂ ++ (t₃ ++ t₄)))) ⟨.table token :: on, conditions, havings⟩ where
  source := by
    unfold Fragment.marks
    rw [filterMap_attach_text mark?_reading]
    change .inl token :: (keys.marks ++ (Term.leaves extra).marks) = _
    rw [hkeys.marks, hextra.marks_eq]
    rfl
  conditions := by
    unfold Fragment.marks
    rw [filterMap_attach_conditions mark?_reading]
    exact hterms.marks_eq
  havings := hlists.1.marks_eq
  lists := hlists.2
  accounts := by
    have hsum := (Accounts.mention token).append ((Accounts.of_bound_eq_nil hkeys.bound).append
      (hlists.1.accounts.append (hextra.accounts.append hterms.accounts)))
    refine hsum.perm ?_
    simp only [JoinLandmarks.all, List.cons_append, List.nil_append]
    refine .cons _ ?_
    rw [← Multiset.coe_eq_coe]
    simp only [← Multiset.coe_add]
    abel

mutual

/-- A resolved query shows its landmarks, provided that conditions on groups are wanted. -/
theorem selectParts_shows : ∀ (q : Query) {table : String} {path : Path} {extent : Extent}
    {parts : SelectParts} {t : Trace}, extent.grouped = true →
    (ctx.selectParts table path extent q).Yields parts t → parts.Shows t (q.landmarks path)
  | ⟨_, token, clauses, conditions, joins, _⟩, table, path, extent, _, _, hgrouped, h => by
    obtain ⟨d, lists, t₁, added, t₂, terms, t₃, -, hlists, hadded, hterms, rfl, rfl⟩ :=
      selectParts_yields h
    have hhavings := collect_shows (fun _ _ => shownColumns_bare) hlists
    have hjoins := joined_shows joins hadded
    rw [hgrouped] at hhavings hjoins
    exact assemble_shows hhavings hjoins (groupTerms_shows conditions hterms)

/-- A resolved union shows the landmarks of its branches. -/
theorem unionBranches_shows : ∀ (branches : List UnionBranch) {table : String} {path : Path}
    {k : Nat} {f : Fragment} {t : Trace}, (ctx.unionBranches table path k branches).Yields f t →
    Shows f.marks t (branchLandmarks path k branches)
  | [], _, _, _, _, _, h => by
    obtain ⟨rfl, rfl⟩ := pure_yields.mp h
    exact ⟨rfl, .of_bound_eq_nil rfl⟩
  | ⟨_, q⟩ :: rest, _, _, _, _, _, h => by
    obtain ⟨parts, t₁, others, t₂, hparts, -, hothers, rfl, rfl⟩ := unionBranches_cons_yields h
    have hfirst := (selectParts_shows q rfl hparts).select
    have hrest := unionBranches_shows rest hothers
    rw [branchLandmarks]
    simpa using hfirst.append hrest

/-- A resolved group shows the landmarks of its conditions. -/
theorem groupTerms_shows : ∀ (group : ConditionGroup) {scope : Scope} {path : Path}
    {terms : List Term} {t : Trace}, (ctx.groupTerms scope path group).Yields terms t →
    Shows (Term.leaves terms).marks t (group.landmarks path)
  | ⟨conditions, groups⟩, _, _, _, _, h => by
    obtain ⟨leaves, t₁, others, t₂, hleaves, hothers, rfl, rfl⟩ := groupTerms_yields h
    rw [Term.leaves_append, Fragment.marks_append, ConditionGroup.landmarks]
    exact (conditionTerms_shows conditions hleaves).append (subgroupTerms_shows groups hothers)

/-- Resolved conditions show their landmarks. -/
theorem conditionTerms_shows : ∀ (conditions : List Condition) {scope : Scope} {path : Path}
    {i : Nat} {terms : List Term} {t : Trace},
    (ctx.conditionTerms scope path i conditions).Yields terms t →
    Shows (Term.leaves terms).marks t (conditionLandmarks path i conditions)
  | [], _, _, _, _, _, h => by
    obtain ⟨rfl, rfl⟩ := pure_yields.mp h
    exact ⟨rfl, .of_bound_eq_nil rfl⟩
  | ⟨_, _, filter⟩ :: rest, _, _, _, _, _, h => by
    obtain ⟨text, t₁, others, t₂, htext, hothers, rfl, rfl⟩ := conditionTerms_cons_yields h
    rw [Term.leaves, Fragment.marks_append, conditionLandmarks]
    exact (conditionText_shows filter htext).append (conditionTerms_shows rest hothers)

/-- A resolved condition shows its value, or the landmarks of its query. -/
theorem conditionText_shows : ∀ (filter : Filter) {scope : Scope} {path : Path} {i : Nat}
    {field : String} {f : Fragment} {t : Trace},
    (ctx.conditionText scope path i field filter).Yields f t →
    Shows f.marks t (filter.landmarks path i)
  | .memberOf _ ⟨some _, token, clauses, conditions, joins, unions⟩, _, _, _, _, _, _, h => by
    obtain ⟨operand, t₁, parts, t₂, branches, t₃, hoperand, hparts, -, hbranches, rfl, rfl⟩ :=
      conditionText_memberOf_yields h
    have hselect := (selectParts_shows ⟨some _, token, clauses, conditions, joins, unions⟩ rfl
      hparts).select
    have hunion := unionBranches_shows unions hbranches
    have hcompound : (compound parts.select branches).marks =
        parts.select.marks ++ branches.marks := filterMap_compound mark?_reading _ _
    rw [Fragment.marks_append, Fragment.marks_text_cons, Fragment.marks_parens,
      Fragment.marks_append, hcompound, Filter.landmarks]
    simpa using Shows.bare_append (field_bare hoperand) (hselect.append hunion)
  | .memberOf _ ⟨none, _, _, _, _, _⟩, _, _, _, _, _, _, h => absurd h fail_yields
  | .compare _ _, _, _, _, _, _, _, h => simpleCondition_shows h
  | .compareField _ _, _, _, _, _, _, _, h => simpleCondition_shows h
  | .compareDate _ _ _, _, _, _, _, _, _, h => simpleCondition_shows h
  | .like _ _, _, _, _, _, _, _, h => simpleCondition_shows h
  | .member _ _, _, _, _, _, _, _, h => simpleCondition_shows h
  | .guard _ _, _, _, _, _, _, _, h => simpleCondition_shows h
  | .isNull, _, _, _, _, _, _, h => simpleCondition_shows h
  | .isNotNull, _, _, _, _, _, _, h => simpleCondition_shows h

/-- Resolved groups show their landmarks. -/
theorem subgroupTerms_shows : ∀ (groups : List Subgroup) {scope : Scope} {path : Path} {j : Nat}
    {terms : List Term} {t : Trace}, (ctx.subgroupTerms scope path j groups).Yields terms t →
    Shows (Term.leaves terms).marks t (subgroupLandmarks path j groups)
  | [], _, _, _, _, _, h => by
    obtain ⟨rfl, rfl⟩ := pure_yields.mp h
    exact ⟨rfl, .of_bound_eq_nil rfl⟩
  | ⟨_, group⟩ :: rest, _, _, _, _, _, h => by
    obtain ⟨inner, t₁, others, t₂, hinner, hothers, rfl, rfl⟩ := subgroupTerms_cons_yields h
    have hfirst := groupTerms_shows group hinner
    have hrest := subgroupTerms_shows rest hothers
    rw [subgroupLandmarks]
    -- A group that leaves no term has no marks, so leaving it out loses nothing.
    cases inner with
    | nil => exact hfirst.append hrest
    | cons term terms => simpa [Term.leaves, Term.text] using hfirst.append hrest

/-- Resolved joins show their landmarks, each before the joins inside it. -/
theorem joined_shows : ∀ (joins : List Join) {parent : Scope} {path : Path} {extent : Extent}
    {l : Nat} {added : Joined} {t : Trace}, (ctx.joined parent path extent l joins).Yields added t →
    added.Shows t (joinLandmarks extent.grouped path l joins)
  | [], _, _, _, _, _, _, h => by
    obtain ⟨rfl, rfl⟩ := pure_yields.mp h
    exact ⟨rfl, rfl, rfl, ⟨rfl, rfl, rfl⟩, .of_bound_eq_nil rfl⟩
  | ⟨_, ⟨_, token, _, conditions, joins, _⟩, on⟩ :: rest, _, _, _, _, _, _, h => by
    obtain ⟨table, d, keyText, t₁, lists, t₂, extra, t₃, terms, t₄, inner, t₅, others, t₆, -, -,
      hkeys, hlists, hextra, hterms, hinner, hothers, rfl, rfl⟩ := joined_cons_yields h
    have hattached : (ctx.attach table token keyText lists extra terms).Shows _ _ :=
      attach_shows (joinKeys_bare hkeys) (collect_shows (fun _ _ => joinedColumns_bare) hlists)
        (groupTerms_shows on hextra) (groupTerms_shows conditions hterms)
    have hall := (hattached.append (joined_shows joins hinner)).append (joined_shows rest hothers)
    rw [joinLandmarks]
    simpa only [Trace.append_assoc] using hall

end

/-- A query with its unions shows all of its landmarks. -/
theorem compoundSelect_shows {table : String} {path : Path} {q : Query} {f : Fragment}
    (h : (ctx.compoundSelect table path q).Yields f t) :
    Shows f.marks t (q.allLandmarks path) := by
  obtain ⟨parts, t₁, branches, t₂, hparts, -, hbranches, rfl, rfl⟩ := compoundSelect_yields h
  have hcompound : (compound parts.select branches).marks =
      parts.select.marks ++ branches.marks := filterMap_compound mark?_reading _ _
  rw [hcompound]
  exact (selectParts_shows q rfl hparts).select.append (unionBranches_shows q.unions hbranches)

end Context

end DynamicSql

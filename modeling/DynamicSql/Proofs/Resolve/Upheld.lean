import DynamicSql.Proofs.Resolve.Invariant
import DynamicSql.Proofs.Resolve.Names

/-!
# What holds of all resolved fragments

The induction over queries is done once, for any property that resolving upholds: it holds of
whatever a query resolves to if the names in the query are admitted and its tables are opened.
-/

namespace DynamicSql

namespace Context.Invariant

open Fragment Resolve

variable {ctx : Context} {admitted : String → Prop} {opened : Token → String → Prop}
  {mentioned : Token → Prop} {seen : Scope → Prop} {P : Fragment → Prop}
  (I : ctx.Invariant admitted opened mentioned seen P)

include I

section Scope

variable {scope : Scope} (hscope : seen scope)

include hscope

/-- A field that is admitted is resolved with the property. -/
theorem field {name : String} (hname : admitted name) :
    (ctx.field scope name).EnsuresWithin mentioned P :=
  .bind (I.find hscope hname) fun _ hfound => .pure hfound.1

/-- So is the compared side of a condition. -/
theorem comparand {comparison : Comparison} {name : String} (hname : admitted name) :
    (ctx.comparand scope comparison name).EnsuresWithin mentioned P := by
  unfold Context.comparand
  split
  · exact I.field hscope hname
  · exact I.expression hscope hname

/-- So is an item of the `SELECT` list, whose alias is admitted, too. -/
theorem selectItem {item : SelectItem}
    (hitem : ∀ s ∈ item.field :: item.alias?.toList, admitted s) :
    (ctx.selectItem scope item).EnsuresWithin mentioned P := by
  obtain ⟨hfield, halias⟩ := List.forall_mem_cons.mp hitem
  have halias : ∀ s ∈ item.alias?, admitted s := fun s hs => halias s (Option.mem_toList.mpr hs)
  have hexpression := I.expression hscope hfield
  unfold Context.selectItem
  split
  case h_1 =>
    refine .bind (I.find hscope hfield) fun found hfound => .pure ?_
    refine I.shownAs ?_ hfound.1
    cases h : item.alias? with
    | none => exact hfound.2
    | some name => exact I.shownName (halias name h)
  case h_2 =>
    split
    · exact .pure (I.named halias (I.fixed _ (by decide)))
    · exact .bind hexpression fun f hf => .pure
        (I.named halias (I.enclose "count" "distinct " "" (by decide) (by decide) .nil hf))
  case h_3 | h_4 =>
    exact .bind hexpression fun f hf => .pure
      (I.named halias (I.call (by decide) (I.nullDefault hf)))
  case h_5 | h_6 | h_7 =>
    exact .bind hexpression fun f hf => .pure (I.named halias (I.call (by decide) hf))
  case h_8 pattern _ =>
    exact .bind (I.field hscope hfield) fun f hf => .pure (I.named halias (I.dateFormat pattern hf))
  case h_9 => exact .bind hexpression fun f hf => .pure (I.named halias hf)

/-- So are the columns that a query names. -/
theorem explicitColumns {clauses : Clauses} (hnames : ∀ s ∈ clauses.names, admitted s) :
    (ctx.explicitColumns scope clauses).EnsuresWithin mentioned fun fs => ∀ f ∈ fs, P f := by
  unfold Context.explicitColumns
  split
  · exact .pure (List.forall_mem_nil _)
  · refine .mapM fun item hitem => I.selectItem hscope fun s hs => hnames s ?_
    simp only [Clauses.names, List.mem_append]
    exact .inl (.inl (.inl (List.mem_flatMap_of_mem (List.mem_filter.mp hitem).1 hs)))

/-- The columns of a table are shown with the property. -/
theorem allColumns (removed : List String) : ∀ f ∈ Context.allColumns scope removed, P f := by
  intro f hf
  obtain ⟨c, hc, rfl⟩ := List.mem_map.mp hf
  obtain ⟨hcolumn, hfield⟩ := I.columns hscope c (List.mem_filter.mp hc).1
  exact I.shownAs hfield hcolumn

/-- So are the columns that a query shows, whether it names any or not. -/
theorem shownColumns {clauses : Clauses} (hnames : ∀ s ∈ clauses.names, admitted s) :
    (ctx.shownColumns scope clauses).EnsuresWithin mentioned fun fs => ∀ f ∈ fs, P f := by
  unfold Context.shownColumns
  split
  · exact .pure (I.allColumns hscope clauses.removed)
  · exact I.explicitColumns hscope hnames

/-- So are the columns that a joined query shows. -/
theorem joinedColumns {clauses : Clauses} (hnames : ∀ s ∈ clauses.names, admitted s) :
    (ctx.joinedColumns scope clauses).EnsuresWithin mentioned fun fs => ∀ f ∈ fs, P f := by
  unfold Context.joinedColumns
  split
  · exact .pure (List.forall_mem_nil _)
  · exact I.explicitColumns hscope hnames

/-- So is an item of the `GROUP BY` list. -/
theorem groupItem {item : GroupItem} (hfield : admitted item.field) :
    (ctx.groupItem scope item).EnsuresWithin mentioned P := by
  refine .bind (I.field hscope hfield) fun f hf => .pure ?_
  split
  case h_1 pattern _ => exact I.dateFormat pattern hf
  case h_2 => exact hf

/-- So is an item of the `ORDER BY` list. -/
theorem orderItem {item : OrderItem} (hfield : admitted item.field) :
    (ctx.orderItem scope item).EnsuresWithin mentioned P := by
  have hplain := I.field hscope hfield
  have hdirection : Balanced (" " ++ item.direction.text).toList := by
    cases item.direction <;> decide
  have hoperand : (ctx.orderOperand scope item).EnsuresWithin mentioned P := by
    unfold Context.orderOperand
    split
    case h_1 => exact hplain
    case h_2 | h_3 =>
      exact .bind hplain fun f hf => .pure (I.call (by decide) (I.nullDefault hf))
    case h_4 => exact .bind hplain fun f hf => .pure (I.call (by decide) hf)
    case h_5 => exact I.expression hscope hfield
  exact .bind hoperand fun f hf => .pure (I.append hf (I.fixed _ hdirection))

omit hscope in
/-- The marker of a value has the property. -/
theorem bound {slot : Slot} {v : Value} :
    (Resolve.bound slot v).EnsuresWithin mentioned fun piece => P [piece] :=
  .bound (I.marker slot)

/-- A condition on groups is resolved with the property. -/
theorem havingItem {path : Path} {item : HavingItem} {i : Nat} (hfield : admitted item.field) :
    (ctx.havingItem scope path item i).EnsuresWithin mentioned P := by
  have hexpression := I.expression hscope hfield
  have hoperand : (ctx.havingOperand scope item).EnsuresWithin mentioned P := by
    unfold Context.havingOperand
    split
    · split
      · exact .pure (I.fixed _ (by decide))
      · exact .bind hexpression fun f hf => .pure (I.call (by decide) hf)
    · exact hexpression
  refine .bind hoperand fun operand hoperand => ?_
  exact .bind I.bound fun marker hmarker => .pure (I.comparedWith hoperand hmarker)

/-- The lists of a query have a property where its columns have it. -/
theorem collect {clauses : Clauses} {path : Path} {columns : Resolve (List Fragment)}
    {extent : Extent} (hnames : ∀ s ∈ clauses.names, admitted s)
    (hcolumns : columns.EnsuresWithin mentioned fun fs => ∀ f ∈ fs, P f) :
    (ctx.collect scope clauses path columns extent).EnsuresWithin mentioned (Collected.All P) := by
  simp only [Clauses.names, List.forall_mem_append, List.forall_mem_map] at hnames
  obtain ⟨⟨⟨-, hgroups⟩, hhavings⟩, horders⟩ := hnames
  have hgs : (clauses.groups.mapM (ctx.groupItem scope)).EnsuresWithin mentioned fun fs =>
      ∀ f ∈ fs, P f :=
    .mapM fun item hitem => I.groupItem hscope (hgroups item hitem)
  have hhs : (clauses.havings.zipIdx.mapM fun x =>
      ctx.havingItem scope path x.1 x.2).EnsuresWithin mentioned fun fs => ∀ f ∈ fs, P f :=
    .mapM fun x hx => I.havingItem hscope (hhavings x.1 (List.fst_mem_of_mem_zipIdx hx))
  cases extent with
  | everything =>
    refine .bind hcolumns fun cs hcs => .bind hgs fun gs hgs => .bind hhs fun hs hhs => ?_
    refine .bind (.mapM fun item hitem => I.orderItem hscope (horders item hitem))
      fun os hos => ?_
    exact .pure ⟨hcs, hgs, hhs, hos⟩
  | counting =>
    refine .bind hgs fun gs hgs => .bind hhs fun hs hhs => .pure ?_
    exact ⟨List.forall_mem_nil _, hgs, hhs, List.forall_mem_nil _⟩
  | conditionsOnly => exact .pure .empty

/-- So is a membership in a list of values. -/
theorem membership {field : String} {test : Membership} {v : Value} {path : Path} {i : Nat}
    (hfield : admitted field) :
    (ctx.membership scope field test v path i).EnsuresWithin mentioned P := by
  have htest : Balanced (" " ++ test.text ++ " ").toList := by cases test <;> decide
  refine .bind .trivially fun members _ => ?_
  split
  · exact .fail
  · refine .bind (I.field hscope hfield) fun operand hoperand => ?_
    refine .bind (.mapM fun _ _ => I.bound) fun markers hmarkers => .pure ?_
    have hlist : P (Fragment.join ", " (markers.map ([·]))) :=
      I.join (by decide) (List.forall_mem_map.mpr hmarkers)
    exact I.append hoperand (I.text_cons htest (I.parens hlist))

/-- So is a condition that holds no query. -/
theorem simpleCondition {path : Path} {i : Nat} {field : String} {filter : Filter}
    (hfield : admitted field) (hfilter : ∀ s ∈ filter.names, admitted s) :
    (ctx.simpleCondition scope path i field filter).EnsuresWithin mentioned P := by
  have hplain := I.field hscope hfield
  have hexpression := I.expression hscope hfield
  -- What is found has the property, so has what is bound, and all else is fixed text.
  cases filter with
  | compare comparison v =>
    refine .bind (I.comparand hscope hfield) fun operand hoperand => ?_
    exact .bind I.bound fun marker hmarker => .pure (I.comparedWith hoperand hmarker)
  | compareField comparison other =>
    have hsign : Balanced (" " ++ comparison.text ++ " ").toList := by cases comparison <;> decide
    have hother : admitted other := hfilter other List.mem_cons_self
    refine .bind hexpression fun left hleft => ?_
    refine .bind (I.expression hscope hother) fun right hright => .pure ?_
    exact I.append hleft (I.text_cons hsign hright)
  | compareDate comparison pattern v =>
    refine .bind hplain fun operand hoperand => ?_
    exact .bind I.bound fun marker hmarker => .pure
      (I.comparedWith (I.dateFormat pattern hoperand) hmarker)
  | like wildcards v =>
    simp only [Context.simpleCondition]
    split
    · exact .fail
    · refine .bind hplain fun operand hoperand => .bind I.bound fun marker hmarker => .pure ?_
      exact I.append hoperand (I.text_cons (by decide) hmarker)
  | member test v => exact I.membership hscope hfield
  | memberOf test query => exact .fail
  | guard guard v =>
    have hsign : Balanced (" " ++ guard.sign ++ " ").toList := by cases guard <;> decide
    have hzero : Balanced (" " ++ guard.comparison.text ++ " 0").toList := by
      cases guard <;> decide
    refine .bind hexpression fun operand hoperand => ?_
    refine .bind I.bound fun marker hmarker => .pure ?_
    exact I.append hoperand (I.text_cons hsign (I.cons hmarker (I.fixed _ hzero)))
  | isNull =>
    exact .bind hexpression fun f hf => .pure (I.append hf (I.fixed _ (by decide)))
  | isNotNull =>
    exact .bind hexpression fun f hf => .pure (I.append hf (I.fixed _ (by decide)))

/-- So are the keys of a join, the single ones and the pairs of expressions. -/
theorem joinKeys {parent : Scope} {keys : JoinKeys} (hparent : seen parent)
    (hkeys : ∀ s ∈ keys.texts, admitted s) :
    (ctx.joinKeys parent scope keys).EnsuresWithin mentioned P := by
  have hequal : Balanced " = ".toList := by decide
  cases keys with
  | single left right =>
    have hleft : admitted left := hkeys left List.mem_cons_self
    have hright : admitted right := hkeys right (List.mem_cons_of_mem left List.mem_cons_self)
    exact .pure (I.append (I.key hparent hleft) (I.text_cons hequal (I.key hscope hright)))
  | composite pairs =>
    simp only [Context.joinKeys]
    split
    · exact .fail
    · refine .bind (.mapM fun pair hpair => ?_) fun parts hparts =>
        .pure (I.join (by decide) hparts)
      have hpair : ∀ s ∈ [pair.1, pair.2], admitted s := fun s hs =>
        hkeys s (List.mem_flatMap_of_mem hpair hs)
      obtain ⟨hleft, hright⟩ := List.forall_mem_cons.mp hpair
      refine .bind (I.expression hparent hleft) fun left hleft => ?_
      refine .bind (I.expression hscope (hright _ List.mem_cons_self)) fun right hright => ?_
      exact .pure (I.append hleft (I.text_cons hequal hright))

end Scope

/-- The token of an opened table is mentioned. -/
theorem openScope {token : Token} {name : String} (hopened : opened token name) :
    (ctx.openScope token name).EnsuresWithin mentioned fun scope =>
      seen scope ∧ mentioned token := by
  refine .bind .mention fun _ htoken => ?_
  exact .bind (.ofExcept fun d hd => I.scope hopened htoken hd) fun d hd => .pure ⟨hd, htoken⟩

set_option linter.unusedSectionVars false in
mutual

/-- A `SELECT` has a property in all of its parts, where its names are admitted and its tables are
opened. -/
theorem selectParts : ∀ (q : Query) {table : String} {path : Path} {extent : Extent},
    (∀ s ∈ q.names, admitted s) → opened q.token table →
    (∀ r ∈ q.conditions.references ++ joinReferences q.joins, opened r.1 r.2) →
    (ctx.selectParts table path extent q).EnsuresWithin mentioned (SelectParts.All P)
  | ⟨_, _, clauses, conditions, joins, _⟩, _, _, _, hnames, hopened, hrefs => by
    simp only [Query.names, List.forall_mem_append] at hnames hrefs
    obtain ⟨⟨⟨hclauses, hconditions⟩, hjoins⟩, -⟩ := hnames
    rw [Context.selectParts]
    refine .bind (I.openScope hopened) fun scope ⟨hscope, htoken⟩ => ?_
    refine .bind (I.collect hscope hclauses (I.shownColumns hscope hclauses)) fun own hown => ?_
    refine .bind (joined joins hscope hjoins hrefs.2) fun added hadded => ?_
    refine .bind (groupTerms conditions hscope hconditions hrefs.1) fun terms hterms => ?_
    exact .pure (I.assemble hopened htoken hown hadded hterms)

/-- So are branches whose names are admitted and whose tables are opened. -/
theorem unionBranches : ∀ (branches : List UnionBranch) {table : String} {path : Path} {k : Nat},
    (∀ s ∈ branchNames branches, admitted s) →
    (∀ r ∈ branchReferences table branches, opened r.1 r.2) →
    (ctx.unionBranches table path k branches).EnsuresWithin mentioned P
  | [], _, _, _, _, _ => .pure I.nil
  | ⟨kind, ⟨own, token, clauses, conditions, joins, unions⟩⟩ :: rest, table, _, _, hnames,
      hrefs => by
    simp only [branchNames, branchReferences, Query.branchReferences, List.forall_mem_append,
      List.forall_mem_cons, List.cons_append] at hnames hrefs
    obtain ⟨hopened, ⟨⟨hconditions, hjoins⟩, -⟩, hrest⟩ := hrefs
    have hkind : Balanced kind.text.toList := by cases kind <;> decide
    rw [Context.unionBranches]
    refine .bind (selectParts ⟨own, token, clauses, conditions, joins, unions⟩ hnames.1 hopened
      (List.forall_mem_append.mpr ⟨hconditions, hjoins⟩)) fun parts hparts => ?_
    refine .bind .trivially fun _ _ => ?_
    refine .bind (unionBranches rest hnames.2 hrest) fun others hothers => .pure ?_
    exact I.append (I.text_cons hkind (I.parens (I.limit (I.select hparts) _))) hothers

/-- So is a group. -/
theorem groupTerms : ∀ (g : ConditionGroup) {scope : Scope} {path : Path}, seen scope →
    (∀ s ∈ g.names, admitted s) → (∀ r ∈ g.references, opened r.1 r.2) →
    (ctx.groupTerms scope path g).EnsuresWithin mentioned (Term.AllOf P)
  | ⟨conditions, groups⟩, _, _, hscope, hnames, hrefs => by
    simp only [ConditionGroup.names, ConditionGroup.references, List.forall_mem_append]
      at hnames hrefs
    rw [Context.groupTerms]
    refine .bind (conditionTerms conditions hscope hnames.1 hrefs.1) fun leaves hleaves => ?_
    refine .bind (subgroupTerms groups hscope hnames.2 hrefs.2) fun others hothers => ?_
    exact .pure (hleaves.append hothers)

/-- So are conditions. -/
theorem conditionTerms : ∀ (conditions : List Condition) {scope : Scope} {path : Path} {i : Nat},
    seen scope → (∀ s ∈ conditionNames conditions, admitted s) →
    (∀ r ∈ conditionReferences conditions, opened r.1 r.2) →
    (ctx.conditionTerms scope path i conditions).EnsuresWithin mentioned (Term.AllOf P)
  | [], _, _, _, _, _, _ => .pure trivial
  | ⟨_, field, filter⟩ :: rest, _, _, _, hscope, hnames, hrefs => by
    simp only [conditionNames, conditionReferences, List.forall_mem_append, List.forall_mem_cons,
      List.cons_append] at hnames hrefs
    obtain ⟨hfield, hfilter, hrest⟩ := hnames
    rw [Context.conditionTerms]
    refine .bind (conditionText filter hscope hfield hfilter hrefs.1) fun text htext => ?_
    refine .bind (conditionTerms rest hscope hrest hrefs.2) fun others hothers => ?_
    exact .pure ⟨htext, hothers⟩

/-- So is a single condition, with a query inside it or without. -/
theorem conditionText : ∀ (filter : Filter) {scope : Scope} {path : Path} {i : Nat}
    {field : String}, seen scope → admitted field → (∀ s ∈ filter.names, admitted s) →
    (∀ r ∈ filter.references, opened r.1 r.2) →
    (ctx.conditionText scope path i field filter).EnsuresWithin mentioned P
  | .memberOf test ⟨some table, token, clauses, conditions, joins, unions⟩, _, _, _, _, hscope,
      hfield, hnames, hrefs => by
    simp only [Filter.references, Query.ownReferences, List.forall_mem_append,
      List.forall_mem_cons, List.cons_append] at hrefs
    obtain ⟨hopened, ⟨hconditions, hjoins⟩, hunions⟩ := hrefs
    have hunionNames : ∀ s ∈ branchNames unions, admitted s := fun s hs => hnames s (by
      rw [Filter.names, Query.names]
      exact List.mem_append_right _ hs)
    have htest : Balanced (" " ++ test.text ++ " ").toList := by cases test <;> decide
    rw [Context.conditionText]
    refine .bind (I.field hscope hfield) fun operand hoperand => ?_
    refine .bind (selectParts ⟨some table, token, clauses, conditions, joins, unions⟩ hnames
      hopened (List.forall_mem_append.mpr ⟨hconditions, hjoins⟩)) fun parts hparts => ?_
    refine .bind .trivially fun _ _ => ?_
    refine .bind (unionBranches unions hunionNames hunions) fun branches hbranches => .pure ?_
    exact I.append hoperand (I.text_cons htest
      (I.parens (I.limit (I.compound (I.select hparts) hbranches) _)))
  | .memberOf _ ⟨none, _, _, _, _, _⟩, _, _, _, _, _, _, _, _ => .fail
  | .compare _ _, _, _, _, _, hscope, hfield, hnames, _
  | .compareField _ _, _, _, _, _, hscope, hfield, hnames, _
  | .compareDate _ _ _, _, _, _, _, hscope, hfield, hnames, _
  | .like _ _, _, _, _, _, hscope, hfield, hnames, _
  | .member _ _, _, _, _, _, hscope, hfield, hnames, _
  | .guard _ _, _, _, _, _, hscope, hfield, hnames, _
  | .isNull, _, _, _, _, hscope, hfield, hnames, _
  | .isNotNull, _, _, _, _, hscope, hfield, hnames, _ =>
    I.simpleCondition hscope hfield hnames

/-- So are the groups of a group. -/
theorem subgroupTerms : ∀ (groups : List Subgroup) {scope : Scope} {path : Path} {j : Nat},
    seen scope → (∀ s ∈ subgroupNames groups, admitted s) →
    (∀ r ∈ subgroupReferences groups, opened r.1 r.2) →
    (ctx.subgroupTerms scope path j groups).EnsuresWithin mentioned (Term.AllOf P)
  | [], _, _, _, _, _, _ => .pure trivial
  | ⟨connector, group⟩ :: rest, _, _, _, hscope, hnames, hrefs => by
    simp only [subgroupNames, subgroupReferences, List.forall_mem_append] at hnames hrefs
    rw [Context.subgroupTerms]
    refine .bind (groupTerms group hscope hnames.1 hrefs.1) fun terms hterms => ?_
    refine .bind (subgroupTerms rest hscope hnames.2 hrefs.2) fun others hothers => .pure ?_
    split
    · exact hothers
    · exact ⟨hterms, hothers⟩

/-- So is all that joins add. -/
theorem joined : ∀ (joins : List Join) {parent : Scope} {path : Path} {extent : Extent} {l : Nat},
    seen parent → (∀ s ∈ joinNames joins, admitted s) →
    (∀ r ∈ joinReferences joins, opened r.1 r.2) →
    (ctx.joined parent path extent l joins).EnsuresWithin mentioned (Joined.All P)
  | [], _, _, _, _, _, _, _ => .pure ⟨I.nil, .empty, List.forall_mem_nil _⟩
  | ⟨_, ⟨none, _, _, _, _, _⟩, _⟩ :: _, _, _, _, _, _, _, _ => by
    rw [Context.joined, Context.joinedQuery]
    exact .bind (P := fun _ => False) .fail fun _ h => h.elim
  | ⟨keys, ⟨some table, token, clauses, conditions, joins, unions⟩, on⟩ :: rest, _, _, _, _,
      hparent, hnames, hrefs => by
    simp only [joinNames, Query.names, joinReferences, Query.ownReferences,
      List.forall_mem_append, List.forall_mem_cons, List.cons_append] at hnames hrefs
    obtain ⟨⟨⟨hkeys, ⟨⟨hclauses, hconditions⟩, hinner⟩, -⟩, hon⟩, hrest⟩ := hnames
    obtain ⟨hopened, ⟨⟨⟨hconditionRefs, hinnerRefs⟩, -⟩, honRefs⟩, hrestRefs⟩ := hrefs
    rw [Context.joined, Context.joinedQuery]
    refine .bind (P := Joined.All P) ?_ fun first hfirst => ?_
    · refine .bind (I.openScope hopened) fun scope ⟨hscope, htoken⟩ => ?_
      refine .bind (I.joinKeys hscope hparent hkeys) fun keys hkeys => ?_
      refine .bind (I.collect hscope hclauses (I.joinedColumns hscope hclauses)) fun own hown => ?_
      refine .bind (groupTerms on hscope hon honRefs) fun extra hextra => ?_
      refine .bind (groupTerms conditions hscope hconditions hconditionRefs)
        fun terms hterms => ?_
      refine .bind (joined joins hscope hinner hinnerRefs) fun inner hinner => .pure ?_
      exact I.joined_append (I.attach hopened htoken hkeys hown hextra hterms) hinner
    · exact .bind (joined rest hparent hrest hrestRefs) fun others hothers =>
        .pure (I.joined_append hfirst hothers)

end

/-- A query with its unions has a property, where its names are admitted and its tables are
opened. -/
theorem compoundSelect {q : Query} {table : String} {path : Path}
    (hnames : ∀ s ∈ q.names, admitted s) (hrefs : ∀ r ∈ q.references table, opened r.1 r.2) :
    (ctx.compoundSelect table path q).EnsuresWithin mentioned P := by
  obtain ⟨own, token, clauses, conditions, joins, unions⟩ := q
  simp only [Query.references, List.forall_mem_append, List.forall_mem_cons, List.cons_append]
    at hrefs
  obtain ⟨hopened, ⟨hconditions, hjoins⟩, hunions⟩ := hrefs
  have hunionNames : ∀ s ∈ branchNames unions, admitted s := fun s hs => hnames s (by
    rw [Query.names]
    exact List.mem_append_right _ hs)
  refine .bind (P := SelectParts.All P) ?_ fun parts hparts => ?_
  · refine .bind (I.selectParts ⟨own, token, clauses, conditions, joins, unions⟩ hnames hopened
      (List.forall_mem_append.mpr ⟨hconditions, hjoins⟩)) fun parts hparts => ?_
    exact .bind .trivially fun _ _ => .pure hparts
  · refine .bind (I.unionBranches unions hunionNames hunions) fun branches hbranches => ?_
    exact .pure (I.compound (I.select hparts) hbranches)

end Context.Invariant

end DynamicSql

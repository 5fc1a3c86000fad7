import DynamicSql.Proofs.Resolve.Compounds
import DynamicSql.Proofs.Resolve.Demands

/-!
# The meaning of the text behind `WHERE`

What a query demands of its rows is written as one condition. Read back from its text, the condition
has the conditions of the groups for leaves, in their order, and for all truth values of these it
has the value of all groups together (`selectParts_means`).
-/

namespace DynamicSql

namespace Context

open Fragment Resolve

/-- A condition says what groups demand: there is none if the groups hold no condition, and
otherwise its text is read as a formula over all conditions of the groups, which has the value of
all groups together. -/
structure Means (ctx : Context) (aliases : Aliases) (condition : Fragment)
    (groups : List (Place × ConditionGroup)) : Prop where
  distinct : (leavesOf groups).Nodup
  absent : condition = [] ↔ ∀ x ∈ groups, x.2.isLeafless = true
  writes : ∀ leaf ∈ leavesOf groups, ctx.Writes leaf
  read : condition ≠ [] → ∃ F : Formula Leaf,
    readCondition (condition.render ctx.root aliases).toList =
      F.map (fun leaf => ((ctx.written leaf).render ctx.root aliases).toList) ∧
    F.atoms = leavesOf groups ∧ ∀ ρ, F.value ρ = holdAll ρ groups

/-- Names from outside that leave the text around them as it is. -/
structure PlainNames (ctx : Context) (names : List String) : Prop where
  root : Plain ctx.root.toList
  schema : ctx.schema.Sound
  references : ∀ r ∈ ctx.references, Balanced r.1.toList ∧ Balanced r.2.toList
  names : ∀ s ∈ names, ctx.schema.Admits s

instance (ctx : Context) : DecidablePred ctx.PlainNames := fun names =>
  decidable_of_iff (Plain _ ∧ ctx.schema.Sound ∧
      (∀ r ∈ ctx.references, Balanced r.1.toList ∧ Balanced r.2.toList) ∧
      ∀ s ∈ names, ctx.schema.Admits s)
    ⟨fun ⟨hroot, hschema, hreferences, hnames⟩ => ⟨hroot, hschema, hreferences, hnames⟩,
      fun ⟨hroot, hschema, hreferences, hnames⟩ => ⟨hroot, hschema, hreferences, hnames⟩⟩

variable {ctx : Context} {names : List String}

/-- Among plain names, all names are plain. -/
theorem PlainNames.mono {others : List String} (h : ctx.PlainNames names)
    (hothers : others ⊆ names) : ctx.PlainNames others :=
  ⟨h.root, h.schema, h.references, fun s hs => h.names s (hothers hs)⟩

/-- The columns in the scope of a place are columns of the schema. -/
theorem scopeAt_columns_subset (place : Place) :
    (ctx.scopeAt place).table.columns ⊆ ctx.schema.columns := by
  unfold scopeAt
  cases h : ctx.schema.table place.table with
  | error e => exact List.nil_subset _
  | ok d => exact Schema.columns_subset h

/-- A leaf is written as an atom. -/
theorem PlainNames.atomic (h : ctx.PlainNames names) {leaf : Leaf}
    (hleaf : leaf.Within names ctx.references) (hwrites : ctx.Writes leaf) :
    (ctx.written leaf).Always ctx.root Atomic := by
  obtain ⟨hfield, hnames, hrefs⟩ := hleaf
  obtain ⟨t, hwritten⟩ := hwrites
  exact conditionText_atomic h.root h.schema (fun r hr => (h.references r hr).1)
    (scopeAt_columns_subset leaf.place) (h.names _ hfield) (fun s hs => h.names s (hnames hs))
    (fun r hr => (h.references r (hrefs hr)).2) _ t hwritten

/-- The demands of several groups, put together, say what the groups demand. -/
theorem combineWhere_means {groups : List (Place × ConditionGroup)} (aliases : Aliases)
    (hdistinct : (leavesOf groups).Nodup) (hwrites : ∀ F ∈ formulas groups, ctx.WritesAll F)
    (hatomic : ∀ leaf ∈ leavesOf groups, ctx.Writes leaf →
      (ctx.written leaf).Always ctx.root Atomic)
    (hlettered : (combineWhere ctx.root
      ((formulas groups).map (Formula.text ctx.written))).Lettered) :
    ctx.Means aliases
      (combineWhere ctx.root ((formulas groups).map (Formula.text ctx.written))) groups := by
  have hleaf : ∀ F ∈ formulas groups, ∀ leaf ∈ F.atoms, leaf ∈ leavesOf groups := by
    intro F hF leaf hleaf
    rw [← formulas_atoms]
    exact List.mem_flatMap_of_mem hF hleaf
  have hatoms : ∀ {aliasOf : Token → String}, Numbered aliasOf → ∀ F ∈ formulas groups,
      ∀ leaf ∈ F.atoms, Atomic ((ctx.written leaf).chars ctx.root aliasOf) := by
    intro aliasOf halias F hF leaf hmem
    refine hatomic leaf (hleaf F hF leaf hmem) (hwrites F hF leaf hmem) aliasOf halias ?_
    have hwhole := infix_combineWhere ctx.root
      (List.mem_map_of_mem (f := Formula.text ctx.written) hF)
    exact fun slot hslot => hlettered slot (hwhole.subset (Formula.mem_text hmem hslot))
  have hvisible : ∀ F ∈ formulas groups, F.text ctx.written ≠ [] :=
    fun F hF => (hwrites F hF).visible.ne_nil
  by_cases hnone : formulas groups = []
  · rw [hnone]
    refine ⟨hdistinct, ⟨fun _ => (formulas_eq_nil_iff groups).mp hnone, fun _ => rfl⟩, ?_,
      fun hne => absurd rfl hne⟩
    intro leaf hmem
    rw [← formulas_atoms, hnone] at hmem
    cases hmem
  -- Put together, the formulas are one formula, whose text is the condition.
  obtain ⟨G, hG, hcondition, hGatoms, hvalue⟩ :=
    Formula.exists_conjunction ctx.written hnone hvisible (hatoms numbered_outline)
  have hmem : ∀ leaf ∈ G.atoms, ∃ F ∈ formulas groups, leaf ∈ F.atoms := by
    intro leaf hleaf
    exact List.mem_flatMap.mp (hGatoms ▸ hleaf)
  have hGwrites : ctx.WritesAll G := by
    intro leaf hleaf
    obtain ⟨F, hF, hleaf⟩ := hmem leaf hleaf
    exact hwrites F hF leaf hleaf
  have hGatomic : ∀ leaf ∈ G.atoms,
      Atomic ((ctx.written leaf).chars ctx.root aliases.text) := by
    intro leaf hleaf
    obtain ⟨F, hF, hleaf⟩ := hmem leaf hleaf
    exact hatoms aliases.numbered F hF leaf hleaf
  rw [formulas_atoms] at hGatoms
  rw [← hcondition]
  refine ⟨hdistinct, ⟨fun hempty => absurd hempty hGwrites.visible.ne_nil, fun hall => ?_⟩,
    fun leaf hleaf => hGwrites leaf (hGatoms ▸ hleaf), fun _ => ⟨G, ?_, hGatoms, fun ρ => ?_⟩⟩
  · exact absurd ((formulas_eq_nil_iff groups).mpr hall) hnone
  · simp only [render, String.toList_ofList]
    exact Formula.readCondition_of_ofItems? ctx.written hG hGatomic
  · rw [hvalue, formulas_all]

section Conditions

variable {table : String} {token : Token} {d : Table} {path : Path} {tag : String}
  {conditions : ConditionGroup} {joins : List Join} {terms : List Term} {parent : Scope}
  {extent : Extent} {added : Joined} {t u : Trace}

/-- The own conditions of a query and those of its joins are written as one condition: the texts of
what the groups demand, put together. -/
theorem conditions_written (hd : ctx.schema.table table = .ok d)
    (hterms : (ctx.groupTerms ⟨table, some token, d⟩ (path.child tag) conditions).Yields terms t)
    (hadded : (ctx.joined parent (path.child "cl") extent 0 joins).Yields added u) :
    combineWhere ctx.root (Term.whereText terms :: added.conditions) =
      combineWhere ctx.root ((formulas (demands table token (path.child tag) (path.child "cl")
        conditions joins)).map (Formula.text ctx.written)) ∧
      ∀ F ∈ formulas (demands table token (path.child tag) (path.child "cl") conditions joins),
        ctx.WritesAll F := by
  rw [← scopeAt_eq ⟨table, some token, path.child tag⟩ hd] at hterms
  obtain ⟨hjoined, hjoinedWrite⟩ := joined_written joins hadded
  rw [demands, formulas_cons, hjoined]
  obtain ⟨rfl, hnone⟩ | ⟨-, F, hF, hwhere, hwrites⟩ := groupTerms_formula hterms
  · rw [hnone]
    exact ⟨combineWhere_nil_cons _, hjoinedWrite⟩
  · rw [hF, hwhere]
    exact ⟨rfl, List.forall_mem_cons.mpr ⟨hwrites, hjoinedWrite⟩⟩

/-- The own conditions of a query and those of its joins, put together, say what the groups
demand. -/
theorem conditions_means (aliases : Aliases) (hletters : tag.toList.all Char.isAlpha)
    (htag : tag ≠ "cl") (hd : ctx.schema.table table = .ok d)
    (hterms : (ctx.groupTerms ⟨table, some token, d⟩ (path.child tag) conditions).Yields terms t)
    (hadded : (ctx.joined parent (path.child "cl") extent 0 joins).Yields added u)
    (h : ctx.PlainNames (conditions.names ++ joinNames joins))
    (hreferences : conditions.references ++ joinReferences joins ⊆ ctx.references)
    (hlettered : (combineWhere ctx.root (Term.whereText terms :: added.conditions)).Lettered) :
    ctx.Means aliases (combineWhere ctx.root (Term.whereText terms :: added.conditions))
      (demands table token (path.child tag) (path.child "cl") conditions joins) := by
  obtain ⟨hcondition, hwrites⟩ := conditions_written hd hterms hadded
  rw [hcondition] at hlettered ⊢
  refine combineWhere_means aliases (leavesOf_demands_nodup table token path hletters htag _ _)
    hwrites (fun leaf hleaf hleafWrites => h.atomic (.mono ?_ (List.Subset.refl _) hreferences)
      hleafWrites) hlettered
  rw [demands, leavesOf_cons] at hleaf
  obtain hleaf | hleaf := List.mem_append.mp hleaf
  · exact (conditions.leaves_within _ leaf hleaf).mono (List.subset_append_left _ _)
      (List.subset_append_left _ _)
  · exact (joinedLeaves_within joins hadded leaf hleaf).mono (List.subset_append_right _ _)
      (List.subset_append_right _ _)

end Conditions

/-- The condition of a `SELECT` is written as the texts of what its query demands, put together. -/
theorem selectParts_condition {q : Query} {table : String} {path : Path} {extent : Extent}
    {parts : SelectParts} {t : Trace}
    (hparts : (ctx.selectParts table path extent q).Yields parts t) :
    parts.condition = combineWhere ctx.root ((formulas (demands table q.token (path.child "tl")
      (path.child "cl") q.conditions q.joins)).map (Formula.text ctx.written)) := by
  obtain ⟨own, token, clauses, conditions, joins, unions⟩ := q
  obtain ⟨d, lists, t₁, added, t₂, terms, t₃, hd, -, hadded, hterms, rfl, -⟩ :=
    selectParts_yields hparts
  exact (conditions_written hd hterms hadded).1

/-- The condition of a `SELECT` says what its query demands. -/
theorem selectParts_means {q : Query} {table : String} {path : Path} {extent : Extent}
    {parts : SelectParts} {t : Trace} (aliases : Aliases)
    (hparts : (ctx.selectParts table path extent q).Yields parts t)
    (h : ctx.PlainNames (q.conditions.names ++ joinNames q.joins))
    (hreferences : q.conditions.references ++ joinReferences q.joins ⊆ ctx.references)
    (hlettered : parts.condition.Lettered) :
    ctx.Means aliases parts.condition
      (demands table q.token (path.child "tl") (path.child "cl") q.conditions q.joins) := by
  obtain ⟨own, token, clauses, conditions, joins, unions⟩ := q
  obtain ⟨d, lists, t₁, added, t₂, terms, t₃, hd, -, hadded, hterms, rfl, -⟩ :=
    selectParts_yields hparts
  exact conditions_means aliases (by decide) (by decide) hd hterms hadded h hreferences hlettered

end Context

end DynamicSql

import DynamicSql.Proofs.Resolve.Infix
import DynamicSql.Proofs.Resolve.Names
import DynamicSql.Proofs.Resolve.Omitted

/-!
# Queries that are shown with their unions

The query that a statement is made for and the queries in conditions are shown with their unions.
Each of them stands in the text as a whole, wherever its condition is, and the values that it binds
are among those of the statement (`compoundSelect_holds`). The unions of its branches are left out
(`nested_omitted`).
-/

namespace DynamicSql

mutual

/-- The queries below a query that are shown with their unions, each with its table. The branches of
the query itself are not looked at. -/
def Query.compounds : Query → List (String × Query)
  | ⟨_, _, _, conditions, joins, _⟩ => conditions.compounds ++ joinCompounds joins

/-- The queries below a group of conditions that are shown with their unions. -/
def ConditionGroup.compounds : ConditionGroup → List (String × Query)
  | ⟨conditions, groups⟩ => conditionCompounds conditions ++ subgroupCompounds groups

/-- The queries below conditions that are shown with their unions. -/
def conditionCompounds : List Condition → List (String × Query)
  | [] => []
  | ⟨_, _, filter⟩ :: rest => filter.compounds ++ conditionCompounds rest

/-- The query of a condition, and those below it and its branches. -/
def Filter.compounds : Filter → List (String × Query)
  | .memberOf _ ⟨some table, token, clauses, conditions, joins, unions⟩ =>
    (table, ⟨some table, token, clauses, conditions, joins, unions⟩) ::
      Query.compounds ⟨some table, token, clauses, conditions, joins, unions⟩ ++
      branchCompounds unions
  | _ => []

/-- The queries below groups that are shown with their unions. -/
def subgroupCompounds : List Subgroup → List (String × Query)
  | [] => []
  | ⟨_, group⟩ :: rest => group.compounds ++ subgroupCompounds rest

/-- The queries below joins that are shown with their unions. The joined queries are not among
them. -/
def joinCompounds : List Join → List (String × Query)
  | [] => []
  | ⟨_, query, on⟩ :: rest => query.compounds ++ on.compounds ++ joinCompounds rest

/-- The queries below branches that are shown with their unions. The branches are not among them. -/
def branchCompounds : List UnionBranch → List (String × Query)
  | [] => []
  | ⟨_, query⟩ :: rest => query.compounds ++ branchCompounds rest

end

/-- The queries that are shown with their unions where a query over a table is. -/
def Query.allCompounds (table : String) (q : Query) : List (String × Query) :=
  (table, q) :: q.compounds ++ branchCompounds q.unions

/-- The branches of a query's branches. -/
def Query.nested (q : Query) : List Query :=
  q.unions.flatMap fun branch => branch.query.unions.map (·.query)

/-- The branches of branches are left out of the branches. -/
theorem nested_subset_branchOmitted (branches : List UnionBranch) :
    (branches.flatMap fun branch => branch.query.unions.map (·.query)) ⊆
      branchOmitted branches := by
  induction branches with
  | nil => exact List.nil_subset _
  | cons branch rest ih =>
    obtain ⟨kind, own, token, clauses, conditions, joins, unions⟩ := branch
    rw [List.flatMap_cons, branchOmitted]
    refine List.append_subset.mpr ⟨?_, List.subset_append_of_subset_right _ ih⟩
    exact List.subset_append_of_subset_left _ (List.subset_append_left _ _)

mutual

/-- The queries that the compounds of a query hold are among those that it leaves out. -/
theorem Query.nested_omitted : ∀ (q : Query), ∀ x ∈ q.compounds, x.2.nested ⊆ q.omitted
  | ⟨_, _, _, conditions, joins, _⟩, x, hx => by
    rw [Query.compounds, List.mem_append] at hx
    rw [Query.omitted]
    obtain hx | hx := hx
    · exact List.subset_append_of_subset_left _ (conditions.nested_omitted x hx)
    · exact List.subset_append_of_subset_right _ (joinNested_omitted joins x hx)

/-- So it is for a group. -/
theorem ConditionGroup.nested_omitted : ∀ (g : ConditionGroup), ∀ x ∈ g.compounds,
    x.2.nested ⊆ g.omitted
  | ⟨conditions, groups⟩, x, hx => by
    rw [ConditionGroup.compounds, List.mem_append] at hx
    rw [ConditionGroup.omitted]
    obtain hx | hx := hx
    · exact List.subset_append_of_subset_left _ (conditionNested_omitted conditions x hx)
    · exact List.subset_append_of_subset_right _ (subgroupNested_omitted groups x hx)

/-- So it is for conditions. -/
theorem conditionNested_omitted : ∀ (conditions : List Condition),
    ∀ x ∈ conditionCompounds conditions, x.2.nested ⊆ conditionOmitted conditions
  | [], _, hx => absurd hx List.not_mem_nil
  | ⟨_, _, filter⟩ :: rest, x, hx => by
    rw [conditionCompounds, List.mem_append] at hx
    rw [conditionOmitted]
    obtain hx | hx := hx
    · exact List.subset_append_of_subset_left _ (filter.nested_omitted x hx)
    · exact List.subset_append_of_subset_right _ (conditionNested_omitted rest x hx)

/-- So it is for a query inside a condition. -/
theorem Filter.nested_omitted : ∀ (filter : Filter), ∀ x ∈ filter.compounds,
    x.2.nested ⊆ filter.omitted
  | .memberOf _ ⟨some table, token, clauses, conditions, joins, unions⟩, x, hx => by
    rw [Filter.compounds, List.mem_append, List.mem_cons] at hx
    rw [Filter.omitted]
    obtain (rfl | hx) | hx := hx
    · exact List.subset_append_of_subset_right _ (nested_subset_branchOmitted unions)
    · exact List.subset_append_of_subset_left _ (Query.nested_omitted _ x hx)
    · exact List.subset_append_of_subset_right _ (branchNested_omitted unions x hx)
  | .memberOf _ ⟨none, _, _, _, _, _⟩, _, hx | .compare _ _, _, hx | .compareField _ _, _, hx
  | .compareDate _ _ _, _, hx | .like _ _, _, hx | .member _ _, _, hx | .guard _ _, _, hx
  | .isNull, _, hx | .isNotNull, _, hx => absurd hx List.not_mem_nil

/-- So it is for the groups in a group. -/
theorem subgroupNested_omitted : ∀ (groups : List Subgroup), ∀ x ∈ subgroupCompounds groups,
    x.2.nested ⊆ subgroupOmitted groups
  | [], _, hx => absurd hx List.not_mem_nil
  | ⟨_, group⟩ :: rest, x, hx => by
    rw [subgroupCompounds, List.mem_append] at hx
    rw [subgroupOmitted]
    obtain hx | hx := hx
    · exact List.subset_append_of_subset_left _ (group.nested_omitted x hx)
    · exact List.subset_append_of_subset_right _ (subgroupNested_omitted rest x hx)

/-- So it is for joins. -/
theorem joinNested_omitted : ∀ (joins : List Join), ∀ x ∈ joinCompounds joins,
    x.2.nested ⊆ joinOmitted joins
  | [], _, hx => absurd hx List.not_mem_nil
  | ⟨_, ⟨own, token, clauses, conditions, joins, unions⟩, on⟩ :: rest, x, hx => by
    rw [joinCompounds, List.mem_append, List.mem_append] at hx
    rw [joinOmitted]
    obtain (hx | hx) | hx := hx
    · have hquery := Query.nested_omitted _ x hx
      exact List.subset_append_of_subset_left _ (List.subset_append_of_subset_left _
        (List.subset_append_of_subset_right _ hquery))
    · exact List.subset_append_of_subset_left _ (List.subset_append_of_subset_right _
        (on.nested_omitted x hx))
    · exact List.subset_append_of_subset_right _ (joinNested_omitted rest x hx)

/-- So it is for branches. -/
theorem branchNested_omitted : ∀ (branches : List UnionBranch), ∀ x ∈ branchCompounds branches,
    x.2.nested ⊆ branchOmitted branches
  | [], _, hx => absurd hx List.not_mem_nil
  | ⟨_, ⟨own, token, clauses, conditions, joins, unions⟩⟩ :: rest, x, hx => by
    rw [branchCompounds, List.mem_append] at hx
    rw [branchOmitted]
    obtain hx | hx := hx
    · have hquery := Query.nested_omitted _ x hx
      exact List.subset_append_of_subset_left _ (List.subset_append_of_subset_right _ hquery)
    · exact List.subset_append_of_subset_right _ (branchNested_omitted rest x hx)

end

/-- The branches of branches are left out of a statement. -/
theorem Query.nested_allOmitted {table : String} {q : Query} :
    ∀ x ∈ q.allCompounds table, x.2.nested ⊆ q.allOmitted := by
  intro x hx
  rw [allCompounds, List.mem_append, List.mem_cons] at hx
  obtain (rfl | hx) | hx := hx
  · exact List.subset_append_of_subset_right _ (nested_subset_branchOmitted q.unions)
  · exact List.subset_append_of_subset_left _ (q.nested_omitted x hx)
  · exact List.subset_append_of_subset_right _ (branchNested_omitted q.unions x hx)

namespace Context

open Resolve

variable {ctx : Context} {x : String × Query} {f g : Fragment} {t u : Trace}

/-- A query with its unions, taken from its parts. -/
theorem compoundSelect_of_yields {table : String} {path : Path} {q : Query} {parts : SelectParts}
    {branches : Fragment} {t₁ t₂ : Trace}
    (hparts : (ctx.selectParts table path .everything q).Yields parts t₁)
    (hshown : parts.collected.columns ≠ [])
    (hbranches : (ctx.unionBranches table path 0 q.unions).Yields branches t₂) :
    (ctx.compoundSelect table path q).Yields (compound parts.select branches) (t₁ ++ t₂) := by
  simp only [compoundSelect, shownParts, bind_yields, pure_yields, requireColumns_yields]
  exact ⟨parts, t₁, t₂, ⟨parts, t₁, .empty, hparts, ⟨(), .empty, .empty, ⟨hshown, rfl⟩,
    ⟨rfl, rfl⟩, rfl⟩, by rw [Trace.append_empty]⟩, ⟨branches, t₂, .empty, hbranches, ⟨rfl, rfl⟩,
    by rw [Trace.append_empty]⟩, rfl⟩

/-- A query with its unions begins with a word or a parenthesis. -/
theorem compoundSelect_solid {table : String} {path : Path} {q : Query}
    (h : (ctx.compoundSelect table path q).Yields f t) : f.Solid := by
  obtain ⟨parts, t₁, branches, t₂, -, -, -, rfl, -⟩ := compoundSelect_yields h
  unfold compound
  split
  · exact Fragment.solid_text_cons (by decide) (by decide)
  · exact Fragment.solid_text_cons (by decide) (by decide)

/-- A query over a table stands in a fragment with its unions, and what it binds was bound. -/
def Holds (ctx : Context) (x : String × Query) (f : Fragment) (t : Trace) : Prop :=
  ∃ path body t', (ctx.compoundSelect x.1 path x.2).Yields body t' ∧ body <:+: f ∧
    t'.bound ⊆ t.bound

namespace Holds

/-- A query stands in all that its place stands in, and what it binds stays bound. -/
theorem mono (h : ctx.Holds x f t) (hf : f <:+: g) (ht : t.bound ⊆ u.bound) :
    ctx.Holds x g u := by
  obtain ⟨path, body, t', hbody, hinfix, hbound⟩ := h
  exact ⟨path, body, t', hbody, hinfix.trans hf, List.Subset.trans hbound ht⟩

/-- What stands in a part of a fragment stands in the fragment. -/
theorem within (h : ctx.Holds x f t) (hf : f <:+: g) : ctx.Holds x g t :=
  h.mono hf (List.Subset.refl _)

/-- It stays so when more happens behind. -/
theorem inLeft (h : ctx.Holds x f t) (u : Trace) : ctx.Holds x f (t ++ u) :=
  h.mono (List.infix_refl _) (List.subset_append_left _ _)

/-- It stays so when more happened in front. -/
theorem inRight (h : ctx.Holds x f u) (t : Trace) : ctx.Holds x f (t ++ u) :=
  h.mono (List.infix_refl _) (List.subset_append_right _ _)

/-- The extra conditions of a join keep the queries in them whole. -/
theorem appendOn (h : ctx.Holds x g t) (root : String) (keys : Fragment) :
    ctx.Holds x (DynamicSql.appendOn root keys g) t := by
  obtain ⟨path, body, t', hbody, hinfix, hbound⟩ := h
  exact ⟨path, body, t', hbody, (compoundSelect_solid hbody).infix_appendOn root keys hinfix,
    hbound⟩

end Holds

/-- A query over a table stands, with its unions, in what joins add. -/
def HoldsJoined (ctx : Context) (x : String × Query) (added : Joined) (t : Trace) : Prop :=
  ∃ f ∈ added.text :: added.conditions, ctx.Holds x f t

namespace HoldsJoined

variable {a b : Joined}

/-- What stands in what some joins add stands in what these and more joins add. -/
theorem left (h : ctx.HoldsJoined x a t) : ctx.HoldsJoined x (a ++ b) t := by
  obtain ⟨f, hf, h⟩ := h
  obtain rfl | hf := List.mem_cons.mp hf
  · exact ⟨_, List.mem_cons_self, h.within (List.prefix_append _ _).isInfix⟩
  · exact ⟨f, List.mem_cons_of_mem _ (List.mem_append_left _ hf), h⟩

/-- So does what stands in the later ones. -/
theorem right (h : ctx.HoldsJoined x b t) : ctx.HoldsJoined x (a ++ b) t := by
  obtain ⟨f, hf, h⟩ := h
  obtain rfl | hf := List.mem_cons.mp hf
  · exact ⟨_, List.mem_cons_self, h.within (List.suffix_append _ _).isInfix⟩
  · exact ⟨f, List.mem_cons_of_mem _ (List.mem_append_right _ hf), h⟩

/-- It stays so when more was bound. -/
theorem later (h : ctx.HoldsJoined x a t) (ht : t.bound ⊆ u.bound) : ctx.HoldsJoined x a u := by
  obtain ⟨f, hf, h⟩ := h
  exact ⟨f, hf, h.mono (List.infix_refl f) ht⟩

/-- The conditions of a joined query are handed on. -/
theorem attach_conditions {table : String} {token : Token} {keys : Fragment} {own : Collected}
    {extra terms : List Term} (h : ctx.Holds x (Term.whereText terms) t) :
    ctx.HoldsJoined x (ctx.attach table token keys own extra terms) t := by
  by_cases hempty : Term.whereText terms = []
  · exact ⟨_, List.mem_cons_self, h.within (hempty ▸ List.nil_infix)⟩
  · refine ⟨_, List.mem_cons_of_mem _ ?_, h⟩
    simp [attach, hempty]

/-- The extra conditions of a join stand behind its keys. -/
theorem attach_extra {table : String} {token : Token} {keys : Fragment} {own : Collected}
    {extra terms : List Term} (h : ctx.Holds x (Term.whereText extra) t) :
    ctx.HoldsJoined x (ctx.attach table token keys own extra terms) t := by
  have hon := (h.within (Term.infix_onText extra)).appendOn ctx.root keys
  refine ⟨_, List.mem_cons_self, (hon.within (Fragment.infix_parens _)).within ?_⟩
  exact List.infix_cons (List.infix_cons (List.infix_cons (List.infix_refl _)))

end HoldsJoined

/-- What stands in the `SELECT` of a query or in its branches stands in the query with its
unions. -/
theorem holds_compound {q : Query} {table : String} {path : Path} {parts : SelectParts}
    {branches : Fragment} {t₁ t₂ : Trace}
    (hquery : (ctx.compoundSelect table path q).Yields (compound parts.select branches) (t₁ ++ t₂))
    (hx : (x = (table, q) ∨ (ctx.Holds x parts.body t₁ ∧
        Query.Within q.names (q.conditions.references ++ joinReferences q.joins) x)) ∨
      (ctx.Holds x branches t₂ ∧
        Query.Within (branchNames q.unions) (branchReferences table q.unions) x)) :
    ctx.Holds x (compound parts.select branches) (t₁ ++ t₂) ∧
      Query.Within q.names (q.references table) x := by
  obtain (rfl | ⟨hholds, hwithin⟩) | ⟨hholds, hwithin⟩ := hx
  · exact ⟨⟨path, _, _, hquery, List.infix_refl _, List.Subset.refl _⟩, List.Subset.refl _,
      List.Subset.refl _⟩
  · obtain ⟨own, token, clauses, conditions, joins, unions⟩ := q
    refine ⟨(hholds.inLeft t₂).within ((infix_body parts).trans (infix_select _ branches)), ?_⟩
    refine hwithin.mono (List.Subset.refl _) fun r hr => ?_
    exact List.mem_append_left _ (List.mem_cons_of_mem _ hr)
  · obtain ⟨own, token, clauses, conditions, joins, unions⟩ := q
    refine ⟨(hholds.inRight t₁).within (infix_branches parts.select branches), ?_⟩
    exact hwithin.mono (List.subset_append_right _ _) (List.subset_append_right _ _)

mutual

/-- The queries in the conditions and joins of a `SELECT` stand behind its columns. -/
theorem selectParts_holds : ∀ (q : Query) {table : String} {path : Path} {extent : Extent}
    {parts : SelectParts} {t : Trace}, (ctx.selectParts table path extent q).Yields parts t →
    ∀ x ∈ q.compounds, ctx.Holds x parts.body t ∧
      Query.Within q.names (q.conditions.references ++ joinReferences q.joins) x
  | ⟨_, token, clauses, conditions, joins, _⟩, table, path, _, _, _, h, x, hx => by
    obtain ⟨d, lists, t₁, added, t₂, terms, t₃, -, -, hadded, hterms, rfl, rfl⟩ :=
      selectParts_yields h
    rw [Query.compounds, List.mem_append] at hx
    have hcondition : ∀ {f : Fragment}, f ∈ Term.whereText terms :: added.conditions →
        f <:+: (ctx.assemble table token lists added terms).body := fun hf =>
      (Fragment.infix_combineWhere ctx.root hf).trans
        (infix_condition (ctx.assemble table token lists added terms))
    obtain hx | hx := hx
    · obtain ⟨hholds, hwithin⟩ := groupTerms_holds conditions hterms x hx
      refine ⟨(((hholds.within (hcondition List.mem_cons_self)).inRight _).inRight _).inRight _, ?_⟩
      exact hwithin.mono (by intro s hs; simp [Query.names, hs]) (List.subset_append_left _ _)
    · obtain ⟨⟨f, hf, hholds⟩, hwithin⟩ := joined_holds joins hadded x hx
      have hbody : f <:+: (ctx.assemble table token lists added terms).body := by
        obtain rfl | hf := List.mem_cons.mp hf
        · exact (List.infix_cons (List.infix_refl _)).trans
            (infix_source (ctx.assemble table token lists added terms))
        · exact hcondition (List.mem_cons_of_mem _ hf)
      refine ⟨(((hholds.within hbody).inLeft _).inRight _).inRight _, ?_⟩
      exact hwithin.mono (by intro s hs; simp [Query.names, hs]) (List.subset_append_right _ _)

/-- The queries in branches stand in their text. -/
theorem unionBranches_holds : ∀ (branches : List UnionBranch) {table : String} {path : Path}
    {k : Nat} {f : Fragment} {t : Trace}, (ctx.unionBranches table path k branches).Yields f t →
    ∀ x ∈ branchCompounds branches, ctx.Holds x f t ∧
      Query.Within (branchNames branches) (branchReferences table branches) x
  | [], _, _, _, _, _, _, _, hx => absurd hx List.not_mem_nil
  | ⟨kind, q⟩ :: rest, _, _, _, _, _, h, x, hx => by
    obtain ⟨parts, t₁, others, t₂, hparts, -, hothers, rfl, rfl⟩ := unionBranches_cons_yields h
    rw [branchCompounds, List.mem_append] at hx
    obtain hx | hx := hx
    · obtain ⟨hholds, hwithin⟩ := selectParts_holds q hparts x hx
      have hbranch := (infix_body parts).trans (infix_branch kind _ q.clauses.limit)
      refine ⟨(hholds.inLeft t₂).within (hbranch.trans (List.prefix_append _ others).isInfix), ?_⟩
      obtain ⟨hnames, hreferences⟩ := branch_subset (b := ⟨kind, q⟩) List.mem_cons_self _
      exact hwithin.mono hnames hreferences
    · obtain ⟨hholds, hwithin⟩ := unionBranches_holds rest hothers x hx
      refine ⟨(hholds.inRight t₁).within (List.suffix_append _ others).isInfix, ?_⟩
      exact hwithin.mono (List.subset_append_right _ _) (List.subset_append_right _ _)

/-- The queries in a group stand in its condition. -/
theorem groupTerms_holds : ∀ (group : ConditionGroup) {scope : Scope} {path : Path}
    {terms : List Term} {t : Trace}, (ctx.groupTerms scope path group).Yields terms t →
    ∀ x ∈ group.compounds, ctx.Holds x (Term.whereText terms) t ∧
      Query.Within group.names group.references x
  | ⟨conditions, groups⟩, _, _, _, _, h, x, hx => by
    obtain ⟨leaves, t₁, others, t₂, hleaves, hothers, rfl, rfl⟩ := groupTerms_yields h
    rw [ConditionGroup.compounds, List.mem_append] at hx
    obtain hx | hx := hx
    · obtain ⟨hholds, hwithin⟩ := conditionTerms_holds conditions hleaves x hx
      refine ⟨(hholds.inLeft t₂).within (Term.infix_whereText_left leaves others), ?_⟩
      exact hwithin.mono (List.subset_append_left _ _) (List.subset_append_left _ _)
    · obtain ⟨hholds, hwithin⟩ := subgroupTerms_holds groups hothers x hx
      refine ⟨(hholds.inRight t₁).within (Term.infix_whereText_right leaves others), ?_⟩
      exact hwithin.mono (List.subset_append_right _ _) (List.subset_append_right _ _)

/-- So do those in conditions. -/
theorem conditionTerms_holds : ∀ (conditions : List Condition) {scope : Scope} {path : Path}
    {i : Nat} {terms : List Term} {t : Trace},
    (ctx.conditionTerms scope path i conditions).Yields terms t →
    ∀ x ∈ conditionCompounds conditions, ctx.Holds x (Term.whereText terms) t ∧
      Query.Within (conditionNames conditions) (conditionReferences conditions) x
  | [], _, _, _, _, _, _, _, hx => absurd hx List.not_mem_nil
  | ⟨connector, _, filter⟩ :: rest, _, _, _, _, _, h, x, hx => by
    obtain ⟨text, t₁, others, t₂, htext, hothers, rfl, rfl⟩ := conditionTerms_cons_yields h
    rw [conditionCompounds, List.mem_append] at hx
    obtain hx | hx := hx
    · obtain ⟨hholds, hwithin⟩ := conditionText_holds filter htext x hx
      refine ⟨(hholds.inLeft t₂).within (List.prefix_append text _).isInfix, ?_⟩
      exact hwithin.mono (by intro s hs; simp [conditionNames, hs]) (List.subset_append_left _ _)
    · obtain ⟨hholds, hwithin⟩ := conditionTerms_holds rest hothers x hx
      refine ⟨(hholds.inRight t₁).within (Term.infix_whereText_cons _ others), ?_⟩
      exact hwithin.mono (by intro s hs; simp [conditionNames, hs]) (List.subset_append_right _ _)

/-- The query of a condition stands in the condition, and so does what it holds. -/
theorem conditionText_holds : ∀ (filter : Filter) {scope : Scope} {path : Path} {i : Nat}
    {field : String} {f : Fragment} {t : Trace},
    (ctx.conditionText scope path i field filter).Yields f t →
    ∀ x ∈ filter.compounds, ctx.Holds x f t ∧ Query.Within filter.names filter.references x
  | .memberOf test ⟨some table, token, clauses, conditions, joins, unions⟩, _, path, i, _, _, _,
    h, x, hx => by
    obtain ⟨operand, t₁, parts, t₂, branches, t₃, -, hparts, hshown, hbranches, rfl, rfl⟩ :=
      conditionText_memberOf_yields h
    rw [Filter.compounds, List.mem_append, List.mem_cons] at hx
    -- The query stands in parentheses behind the operand and the test.
    have hinside : compound parts.select branches <:+:
        operand ++ Piece.text (" " ++ test.text ++ " ") :: Fragment.parens
          (compound parts.select branches ++ [.text (Dialect.limitClause clauses.limit)]) := by
      refine List.IsInfix.trans ?_ (List.suffix_append operand _).isInfix
      refine List.infix_cons (List.IsInfix.trans ?_ (Fragment.infix_parens _))
      exact (List.prefix_append _ _).isInfix
    have hquery := compoundSelect_of_yields hparts hshown hbranches
    have hbelow := hx.imp (Or.imp_right (selectParts_holds _ hparts x))
      (unionBranches_holds unions hbranches x)
    obtain ⟨hholds, hwithin⟩ := holds_compound hquery hbelow
    exact ⟨(hholds.within hinside).inRight t₁, hwithin⟩
  | .memberOf _ ⟨none, _, _, _, _, _⟩, _, _, _, _, _, _, _, _, hx
  | .compare _ _, _, _, _, _, _, _, _, _, hx | .compareField _ _, _, _, _, _, _, _, _, _, hx
  | .compareDate _ _ _, _, _, _, _, _, _, _, _, hx | .like _ _, _, _, _, _, _, _, _, _, hx
  | .member _ _, _, _, _, _, _, _, _, _, hx | .guard _ _, _, _, _, _, _, _, _, _, hx
  | .isNull, _, _, _, _, _, _, _, _, hx | .isNotNull, _, _, _, _, _, _, _, _, hx =>
    absurd hx List.not_mem_nil

/-- So do those in the groups of a group. -/
theorem subgroupTerms_holds : ∀ (groups : List Subgroup) {scope : Scope} {path : Path} {j : Nat}
    {terms : List Term} {t : Trace}, (ctx.subgroupTerms scope path j groups).Yields terms t →
    ∀ x ∈ subgroupCompounds groups, ctx.Holds x (Term.whereText terms) t ∧
      Query.Within (subgroupNames groups) (subgroupReferences groups) x
  | [], _, _, _, _, _, _, _, hx => absurd hx List.not_mem_nil
  | ⟨connector, group⟩ :: rest, _, _, _, _, _, h, x, hx => by
    obtain ⟨inner, t₁, others, t₂, hinner, hothers, rfl, rfl⟩ := subgroupTerms_cons_yields h
    rw [subgroupCompounds, List.mem_append] at hx
    obtain hx | hx := hx
    · obtain ⟨hholds, hwithin⟩ := groupTerms_holds group hinner x hx
      refine ⟨(hholds.inLeft t₂).within ?_,
        hwithin.mono (List.subset_append_left _ _) (List.subset_append_left _ _)⟩
      split
      case isTrue hempty => exact List.isEmpty_iff.mp hempty ▸ List.nil_infix
      case isFalse =>
        exact (Fragment.infix_parens _).trans (List.prefix_append _ _).isInfix
    · obtain ⟨hholds, hwithin⟩ := subgroupTerms_holds rest hothers x hx
      refine ⟨(hholds.inRight t₁).within ?_,
        hwithin.mono (List.subset_append_right _ _) (List.subset_append_right _ _)⟩
      split
      · exact List.infix_refl _
      · exact Term.infix_whereText_cons _ others

/-- The extra conditions of a join stand behind `ON`, and its other conditions are handed on. -/
theorem joined_holds : ∀ (joins : List Join) {parent : Scope} {path : Path} {extent : Extent}
    {l : Nat} {added : Joined} {t : Trace},
    (ctx.joined parent path extent l joins).Yields added t →
    ∀ x ∈ joinCompounds joins, ctx.HoldsJoined x added t ∧
      Query.Within (joinNames joins) (joinReferences joins) x
  | [], _, _, _, _, _, _, _, _, hx => absurd hx List.not_mem_nil
  | ⟨_, ⟨_, token, clauses, conditions, joins, unions⟩, on⟩ :: rest, _, path, _, l, _, _,
    h, x, hx => by
    obtain ⟨table, d, keyText, t₁, lists, t₂, extra, t₃, terms, t₄, inner, t₅, others, t₆, rfl, -,
      -, -, hextra, hterms, hinner, hothers, rfl, rfl⟩ := joined_cons_yields h
    rw [joinCompounds, Query.compounds, List.mem_append, List.mem_append, List.mem_append] at hx
    obtain ((hx | hx) | hx) | hx := hx
    · obtain ⟨hholds, hwithin⟩ := groupTerms_holds conditions hterms x hx
      refine ⟨(HoldsJoined.attach_conditions hholds).left.left.later (by intro b hb; simp [hb]),
        hwithin.mono (fun s hs => ?_) fun r hr => ?_⟩
      · simp [joinNames, Query.names, hs]
      · simp [joinReferences, Query.ownReferences, hr]
    · obtain ⟨hholds, hwithin⟩ := joined_holds joins hinner x hx
      refine ⟨hholds.right.left.later (by intro b hb; simp [hb]),
        hwithin.mono (fun s hs => ?_) fun r hr => ?_⟩
      · simp [joinNames, Query.names, hs]
      · simp [joinReferences, Query.ownReferences, hr]
    · obtain ⟨hholds, hwithin⟩ := groupTerms_holds on hextra x hx
      refine ⟨(HoldsJoined.attach_extra hholds).left.left.later (by intro b hb; simp [hb]),
        hwithin.mono (fun s hs => ?_) fun r hr => ?_⟩
      · simp [joinNames, hs]
      · simp [joinReferences, hr]
    · obtain ⟨hholds, hwithin⟩ := joined_holds rest hothers x hx
      refine ⟨hholds.right.later (by intro b hb; simp [hb]), ?_⟩
      exact hwithin.mono (List.subset_append_right _ _) (List.subset_append_right _ _)

end

/-- The queries below a query that are shown with their unions stand in its text, and have no names
and tables but those of the query. -/
theorem compoundSelect_holds {q : Query} {table : String} {path : Path}
    (h : (ctx.compoundSelect table path q).Yields f t) :
    ∀ x ∈ q.allCompounds table, ctx.Holds x f t ∧
      Query.Within q.names (q.references table) x := by
  intro x hx
  rw [Query.allCompounds, List.mem_append, List.mem_cons] at hx
  obtain ⟨parts, t₁, branches, t₂, hparts, -, hbranches, rfl, rfl⟩ := compoundSelect_yields h
  have hbelow := hx.imp (Or.imp_right (selectParts_holds q hparts x))
    (unionBranches_holds q.unions hbranches x)
  exact holds_compound h hbelow

/-- Each branch stands behind its keyword, in parentheses and with its own limit, and what it binds
is bound. -/
theorem unionBranches_infix {branches : List UnionBranch} {table : String} {path : Path} {k : Nat}
    (h : (ctx.unionBranches table path k branches).Yields f t) :
    ∀ b ∈ branches, ∃ path parts t',
      (ctx.selectParts (b.query.table.getD table) path .everything b.query).Yields parts t' ∧
      Piece.text b.kind.text :: Fragment.parens
        (parts.select ++ [.text (Dialect.limitClause b.query.clauses.limit)]) <:+: f ∧
      t'.bound ⊆ t.bound := by
  induction branches generalizing k f t with
  | nil => exact List.forall_mem_nil _
  | cons branch rest ih =>
    obtain ⟨kind, q⟩ := branch
    obtain ⟨parts, t₁, others, t₂, hparts, -, hothers, rfl, rfl⟩ := unionBranches_cons_yields h
    refine List.forall_mem_cons.mpr ⟨?_, fun b hb => ?_⟩
    · exact ⟨_, parts, t₁, hparts, (List.prefix_append _ others).isInfix,
        List.subset_append_left _ _⟩
    · obtain ⟨path, parts, t', hparts, hinfix, hbound⟩ := ih hothers b hb
      exact ⟨path, parts, t', hparts, hinfix.trans (List.suffix_append _ others).isInfix,
        List.subset_append_of_subset_right _ hbound⟩

end Context

end DynamicSql

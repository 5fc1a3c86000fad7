import DynamicSql.Proofs.Resolve.Claims
import DynamicSql.Proofs.Resolve.Reachable

/-!
# Queries that are left out

Tables are collected for the unions of every query, but only two kinds of queries are shown with
their unions: the one that a statement is made for, and those in conditions. The branches of the
unions of joined queries, and those of the unions of branches, are collected and left out. Together
with the tables that are shown, the tables below these branches make up all that were collected
(`compoundSelect_splits`).
-/

namespace DynamicSql

open Landmark (tokens)

mutual

/-- The queries that are left out where a query is shown without its unions. -/
def Query.omitted : Query → List Query
  | ⟨_, _, _, conditions, joins, _⟩ => conditions.omitted ++ joinOmitted joins

/-- The queries that are left out of a group of conditions. -/
def ConditionGroup.omitted : ConditionGroup → List Query
  | ⟨conditions, groups⟩ => conditionOmitted conditions ++ subgroupOmitted groups

/-- The queries that are left out of conditions. -/
def conditionOmitted : List Condition → List Query
  | [] => []
  | ⟨_, _, filter⟩ :: rest => filter.omitted ++ conditionOmitted rest

/-- The queries that are left out of a condition. Its own query is shown with its unions. -/
def Filter.omitted : Filter → List Query
  | .memberOf _ ⟨own, token, clauses, conditions, joins, unions⟩ =>
    Query.omitted ⟨own, token, clauses, conditions, joins, unions⟩ ++ branchOmitted unions
  | _ => []

/-- The queries that are left out of groups. -/
def subgroupOmitted : List Subgroup → List Query
  | [] => []
  | ⟨_, group⟩ :: rest => group.omitted ++ subgroupOmitted rest

/-- The queries that are left out of joins, among them the unions of the joined queries. -/
def joinOmitted : List Join → List Query
  | [] => []
  | ⟨_, ⟨own, token, clauses, conditions, joins, unions⟩, on⟩ :: rest =>
    unions.map (·.query) ++ Query.omitted ⟨own, token, clauses, conditions, joins, unions⟩ ++
      on.omitted ++ joinOmitted rest

/-- The queries that are left out of the branches of a union, among them the unions of the
branches. -/
def branchOmitted : List UnionBranch → List Query
  | [] => []
  | ⟨_, ⟨own, token, clauses, conditions, joins, unions⟩⟩ :: rest =>
    unions.map (·.query) ++ Query.omitted ⟨own, token, clauses, conditions, joins, unions⟩ ++
      branchOmitted rest

end

/-- The queries that are left out where a query is shown with its unions. -/
def Query.allOmitted (q : Query) : List Query := q.omitted ++ branchOmitted q.unions

/-- The tokens of the tables below queries that are left out. -/
def omittedTokens (omitted : List Query) : List Token := omitted.flatMap Query.tokens

/-- Queries leave out tables list by list. -/
@[simp] theorem omittedTokens_append (a b : List Query) :
    omittedTokens (a ++ b) = omittedTokens a ++ omittedTokens b := List.flatMap_append

/-- The tables of the branches of a union are those below their queries. -/
theorem omittedTokens_branches (branches : List UnionBranch) (table : String) :
    omittedTokens (branches.map (·.query)) = (branchReferences table branches).map (·.1) := by
  rw [branchReferences_tokens, omittedTokens, List.flatMap_map]

/-- Collected tables are those among landmarks and those that are left out. -/
def Splits (ls : List Landmark) (omitted : List Query) (references : List (Token × String)) :
    Prop :=
  (references.map (·.1)).Perm (tokens ls ++ omittedTokens omitted)

namespace Splits

variable {a b : List Landmark} {m n : List Query} {r s : List (Token × String)}

/-- Where no table is brought in, none was collected. -/
theorem of_tokens_eq_nil (h : tokens a = []) : Splits a [] [] := by
  rw [Splits, h]
  exact .nil

/-- Collected tables are split list by list. -/
theorem append (ha : Splits a m r) (hb : Splits b n s) : Splits (a ++ b) (m ++ n) (r ++ s) := by
  unfold Splits at *
  rw [List.map_append, Landmark.tokens_append, omittedTokens_append]
  refine (ha.append hb).trans ?_
  rw [← Multiset.coe_eq_coe]
  simp only [← Multiset.coe_add]
  abel

/-- The order of landmarks does not matter for what is split. -/
theorem perm (h : Splits a m r) (hab : a.Perm b) : Splits b m r :=
  h.trans ((hab.filterMap _).append_right _)

/-- A table is among those that are shown. -/
theorem table_cons (token : Token) (table : String) (h : Splits a m r) :
    Splits (.table token :: a) m ((token, table) :: r) := h.cons token

/-- What is collected for branches that are left out. -/
theorem omit_branches (h : Splits a m r) (branches : List UnionBranch) (table : String) :
    Splits a (branches.map (·.query) ++ m) (branchReferences table branches ++ r) := by
  unfold Splits at *
  rw [List.map_append, omittedTokens_append, omittedTokens_branches branches table]
  refine (h.append_left _).trans ?_
  rw [← Multiset.coe_eq_coe]
  simp only [← Multiset.coe_add]
  abel

/-- Nor does the order of the collected tables. -/
theorem perm_references (h : Splits a m r) (hrs : r.Perm s) : Splits a m s :=
  ((hrs.map _).symm).trans h

end Splits

namespace Context

open Resolve

variable {ctx : Context}

mutual

/-- The tables of a resolved query without its unions. -/
theorem selectParts_splits : ∀ (q : Query) {table : String} {path : Path} {extent : Extent}
    {parts : SelectParts} {t : Trace}, (ctx.selectParts table path extent q).Yields parts t →
    Splits (q.landmarks path) q.omitted
      ((q.token, table) :: q.conditions.references ++ joinReferences q.joins)
  | ⟨_, token, clauses, conditions, joins, _⟩, table, path, _, _, _, h => by
    obtain ⟨d, lists, t₁, added, t₂, terms, t₃, -, -, hadded, hterms, rfl, rfl⟩ :=
      selectParts_yields h
    have hconditions := groupTerms_splits conditions hterms
    have hjoins := joined_splits joins true hadded
    have hhavings := Splits.of_tokens_eq_nil
      (tokens_havingLandmarks true (path.child "gh") clauses.havings)
    have hall := ((hconditions.append hjoins).append hhavings).table_cons token table
    rw [Query.landmarks, Query.omitted]
    simp only [List.append_nil] at hall
    refine hall.perm ?_
    rw [← Multiset.coe_eq_coe]
    simp only [List.cons_append, JoinLandmarks.all, ← Multiset.cons_coe, ← Multiset.coe_add]
    congr 1
    abel

/-- The tables of resolved branches. -/
theorem unionBranches_splits : ∀ (branches : List UnionBranch) {table : String} {path : Path}
    {k : Nat} {f : Fragment} {t : Trace}, (ctx.unionBranches table path k branches).Yields f t →
    Splits (branchLandmarks path k branches) (branchOmitted branches)
      (branchReferences table branches)
  | [], _, _, _, _, _, _ => .of_tokens_eq_nil rfl
  | ⟨_, q⟩ :: rest, table, path, k, _, _, h => by
    obtain ⟨parts, t₁, others, t₂, hparts, -, hothers, rfl, rfl⟩ := unionBranches_cons_yields h
    have hfirst := selectParts_splits q hparts
    have hrest := unionBranches_splits rest hothers
    obtain ⟨own, token, clauses, conditions, joins, unions⟩ := q
    have hall := (hfirst.omit_branches unions (own.getD table)).append hrest
    rw [branchLandmarks, branchReferences, Query.branchReferences, branchOmitted]
    exact hall.perm_references (List.perm_append_comm.append_right _)

/-- The tables collected from a group are those that its condition shows and those that it leaves
out. -/
theorem groupTerms_splits : ∀ (group : ConditionGroup) {scope : Scope} {path : Path}
    {terms : List Term} {t : Trace}, (ctx.groupTerms scope path group).Yields terms t →
    Splits (group.landmarks path) group.omitted group.references
  | ⟨conditions, groups⟩, _, _, _, _, h => by
    obtain ⟨leaves, t₁, others, t₂, hleaves, hothers, rfl, rfl⟩ := groupTerms_yields h
    rw [ConditionGroup.landmarks, ConditionGroup.references, ConditionGroup.omitted]
    exact (conditionTerms_splits conditions hleaves).append (subgroupTerms_splits groups hothers)

/-- So it is for conditions. -/
theorem conditionTerms_splits : ∀ (conditions : List Condition) {scope : Scope} {path : Path}
    {i : Nat} {terms : List Term} {t : Trace},
    (ctx.conditionTerms scope path i conditions).Yields terms t →
    Splits (conditionLandmarks path i conditions) (conditionOmitted conditions)
      (conditionReferences conditions)
  | [], _, _, _, _, _, _ => .of_tokens_eq_nil rfl
  | ⟨_, _, filter⟩ :: rest, _, _, _, _, _, h => by
    obtain ⟨text, t₁, others, t₂, htext, hothers, rfl, rfl⟩ := conditionTerms_cons_yields h
    rw [conditionLandmarks, conditionReferences, conditionOmitted]
    exact (conditionText_splits filter htext).append (conditionTerms_splits rest hothers)

/-- The query of a condition is shown with its unions. -/
theorem conditionText_splits : ∀ (filter : Filter) {scope : Scope} {path : Path} {i : Nat}
    {field : String} {f : Fragment} {t : Trace},
    (ctx.conditionText scope path i field filter).Yields f t →
    Splits (filter.landmarks path i) filter.omitted filter.references
  | .memberOf _ ⟨some table, token, clauses, conditions, joins, unions⟩, _, _, _, _, _, _, h => by
    obtain ⟨operand, t₁, parts, t₂, branches, t₃, -, hparts, -, hbranches, rfl, rfl⟩ :=
      conditionText_memberOf_yields h
    have hselect := selectParts_splits ⟨some table, token, clauses, conditions, joins, unions⟩
      hparts
    rw [Filter.landmarks, Filter.references, Query.ownReferences, Filter.omitted]
    exact hselect.append (unionBranches_splits unions hbranches)
  | .memberOf _ ⟨none, _, _, _, _, _⟩, _, _, _, _, _, _, h => absurd h fail_yields
  | .member _ v, _, _, _, _, _, _, _ => by
    rw [Filter.landmarks]
    exact .of_tokens_eq_nil (tokens_map_value _ _ _)
  | .compare _ _, _, _, _, _, _, _, _ | .compareField _ _, _, _, _, _, _, _, _
  | .compareDate _ _ _, _, _, _, _, _, _, _ | .like _ _, _, _, _, _, _, _, _
  | .guard _ _, _, _, _, _, _, _, _ | .isNull, _, _, _, _, _, _, _
  | .isNotNull, _, _, _, _, _, _, _ => .of_tokens_eq_nil rfl

/-- So it is for the groups in a group. -/
theorem subgroupTerms_splits : ∀ (groups : List Subgroup) {scope : Scope} {path : Path} {j : Nat}
    {terms : List Term} {t : Trace}, (ctx.subgroupTerms scope path j groups).Yields terms t →
    Splits (subgroupLandmarks path j groups) (subgroupOmitted groups) (subgroupReferences groups)
  | [], _, _, _, _, _, _ => .of_tokens_eq_nil rfl
  | ⟨_, group⟩ :: rest, _, _, _, _, _, h => by
    obtain ⟨inner, t₁, others, t₂, hinner, hothers, rfl, rfl⟩ := subgroupTerms_cons_yields h
    rw [subgroupLandmarks, subgroupReferences, subgroupOmitted]
    exact (groupTerms_splits group hinner).append (subgroupTerms_splits rest hothers)

/-- The unions of joined queries are left out. -/
theorem joined_splits : ∀ (joins : List Join) (grouped : Bool) {parent : Scope} {path : Path}
    {extent : Extent} {l : Nat} {added : Joined} {t : Trace},
    (ctx.joined parent path extent l joins).Yields added t →
    Splits (joinLandmarks grouped path l joins).all (joinOmitted joins) (joinReferences joins)
  | [], _, _, _, _, _, _, _, _ => .of_tokens_eq_nil rfl
  | ⟨_, ⟨_, token, clauses, conditions, joins, unions⟩, on⟩ :: rest, grouped, _, path, _, l, _, _,
    h => by
    obtain ⟨table, d, keyText, t₁, lists, t₂, extra, t₃, terms, t₄, inner, t₅, others, t₆, rfl, -,
      -, -, hextra, hterms, hinner, hothers, rfl, rfl⟩ := joined_cons_yields h
    have hon := groupTerms_splits on hextra
    have hconditions := groupTerms_splits conditions hterms
    have hjoins := joined_splits joins grouped hinner
    have hrest := joined_splits rest grouped hothers
    have hhavings := Splits.of_tokens_eq_nil
      (tokens_havingLandmarks grouped (path.childAt "gh" l) clauses.havings)
    have hquery := ((((hconditions.append hhavings).append hjoins).table_cons token
      table).omit_branches unions table).append hon
    have hall := hquery.append hrest
    rw [joinLandmarks, joinReferences, Query.ownReferences, joinOmitted, Query.omitted]
    simp only [List.append_nil] at hall
    refine (hall.perm ?_).perm_references ?_
    · refine List.Perm.trans ?_ (((JoinLandmarks.all_append_perm _ _).append_right _).trans
        (JoinLandmarks.all_append_perm _ _))
      rw [← Multiset.coe_eq_coe]
      simp only [List.cons_append, JoinLandmarks.all, ← Multiset.cons_coe, ← Multiset.coe_add]
      congr 1
      abel
    · refine List.Perm.append_right _ (List.Perm.append_right _ ?_)
      exact List.perm_append_comm

end

/-- All tables that are collected for a query with its unions are shown or left out. -/
theorem compoundSelect_splits {q : Query} {table : String} {path : Path} {f : Fragment} {t : Trace}
    (h : (ctx.compoundSelect table path q).Yields f t) :
    Splits (q.allLandmarks path) q.allOmitted (q.references table) := by
  obtain ⟨parts, t₁, branches, t₂, hparts, -, hbranches, -⟩ := compoundSelect_yields h
  have hselect := selectParts_splits q hparts
  have hunion := unionBranches_splits q.unions hbranches
  cases q
  rw [Query.allLandmarks, Query.references, Query.allOmitted]
  exact hselect.append hunion

end Context

end DynamicSql

import DynamicSql.Proofs.Resolve.Infix
import DynamicSql.Proofs.Resolve.Joins

/-!
# A group of conditions in its two clauses

A group of conditions is written behind `WHERE`, or behind the keys of a join. Both texts are put
together from left to right, from the conditions of the group and then from its groups, each of
which is written as behind `WHERE`. They differ where the first thing written is a group: behind
the keys of a join, it keeps its connector (`Context.groupText_modes`).
-/

namespace DynamicSql

/-- The clause that a group of conditions is written for. -/
inductive ClauseMode where
  | whereClause
  | onClause
deriving DecidableEq

namespace ClauseMode

/-- The text of terms in a clause. -/
def text : ClauseMode → List Term → Fragment
  | whereClause => Term.whereText
  | onClause => Term.onText

/-- Put a group behind what is written, in parentheses and behind its connector. Where nothing is
written yet, the connector is left out, but not behind the keys of a join. -/
def addGroup (mode : ClauseMode) (written : Fragment) (group : Connector × Fragment) : Fragment :=
  if written.isEmpty && mode = whereClause then group.2.parens
  else written ++ .text group.1.text :: group.2.parens

/-- Conditions one after the other, each but the first behind its connector. -/
def joinConditions : List (Connector × Fragment) → Fragment
  | [] => []
  | first :: rest => first.2 ++ rest.flatMap fun x => .text x.1.text :: x.2

/-- The conditions of a group, and behind them the groups in it that have a text. -/
def assemble (mode : ClauseMode) (conditions groups : List (Connector × Fragment)) : Fragment :=
  (groups.filter (!·.2.isEmpty)).foldl mode.addGroup (joinConditions conditions)

/-- The connector of the first group that has a text. -/
def leading (groups : List (Connector × Fragment)) : Fragment :=
  match groups.find? (!·.2.isEmpty) with
  | some group => [.text group.1.text]
  | none => []

variable {mode : ClauseMode} {written : Fragment} {conditions groups : List (Connector × Fragment)}

/-- Behind something written, a group is added with its connector in front, in either clause. -/
theorem addGroup_of_ne_nil (h : written ≠ []) (group : Connector × Fragment) :
    mode.addGroup written group = written ++ .text group.1.text :: group.2.parens := by
  have hempty : written.isEmpty = false := List.isEmpty_eq_false_iff.mpr h
  rw [addGroup, hempty]
  rfl

/-- Where something is written, each further group stands behind its connector, in both clauses. -/
theorem foldl_addGroup (h : written ≠ []) (groups : List (Connector × Fragment)) :
    groups.foldl mode.addGroup written =
      written ++ groups.flatMap fun x => .text x.1.text :: x.2.parens := by
  induction groups generalizing written with
  | nil => simp
  | cons group rest ih =>
    rw [List.foldl_cons, addGroup_of_ne_nil h, ih (List.append_ne_nil_of_left_ne_nil h _),
      List.flatMap_cons, List.append_assoc]

/-- Where nothing is written, the first group decides whether something is. -/
theorem foldl_addGroup_nil (first : Connector × Fragment) (rest : List (Connector × Fragment)) :
    (first :: rest).foldl mode.addGroup [] =
      (if mode = whereClause then [] else [.text first.1.text]) ++ (first.2.parens ++
        rest.flatMap fun x => .text x.1.text :: x.2.parens) := by
  have hparens : ∀ f : Fragment, f.parens ≠ [] := fun f => (Fragment.visible_parens f).ne_nil
  cases mode with
  | whereClause => exact foldl_addGroup (hparens first.2) rest
  | onClause =>
    exact foldl_addGroup (List.cons_ne_nil (.text first.1.text) first.2.parens) rest

/-- The connector in front is that of the first group whose text is not empty. -/
theorem render_leading {root : String} {aliases : Aliases}
    (h : ∀ x ∈ groups, x.2 = [] ∨ x.2.Visible) : (leading groups).render root aliases =
      ((groups.find? fun x => x.2.render root aliases != "").map (·.1.text)).getD "" := by
  have hsame : groups.filter (fun x => x.2.render root aliases != "") =
      groups.filter (!·.2.isEmpty) := by
    refine List.filter_congr fun x hx => ?_
    obtain hnil | hvisible := h x hx
    · simp [hnil]
    · rw [List.isEmpty_eq_false_iff.mpr hvisible.ne_nil]
      simpa using hvisible.render_ne aliases
  rw [leading, ← List.head?_filter, ← List.head?_filter, hsame]
  cases (groups.filter (!·.2.isEmpty)).head? with
  | none => rfl
  | some group => simp

/-- Conditions that are not empty are joined to something that is not. -/
theorem joinConditions_ne_nil (h : conditions ≠ []) (hvisible : ∀ x ∈ conditions, x.2 ≠ []) :
    joinConditions conditions ≠ [] := by
  obtain ⟨first, rest, rfl⟩ := List.exists_cons_of_ne_nil h
  exact List.append_ne_nil_of_left_ne_nil (hvisible first List.mem_cons_self) _

/-- Behind the keys of a join stands what stands behind `WHERE`, led by a connector if a group is
the first thing written. -/
theorem assemble_onClause (hvisible : ∀ x ∈ conditions, x.2 ≠ []) :
    onClause.assemble conditions groups =
      (if conditions.isEmpty then leading groups else []) ++
        whereClause.assemble conditions groups := by
  unfold assemble
  cases conditions with
  | nil =>
    rw [leading, ← List.head?_filter]
    cases groups.filter (!·.2.isEmpty) with
    | nil => rfl
    | cons first rest =>
      simp only [joinConditions, foldl_addGroup_nil]
      rfl
  | cons first rest =>
    have hne := joinConditions_ne_nil (List.cons_ne_nil first rest) hvisible
    rw [foldl_addGroup hne, foldl_addGroup hne]
    rfl

end ClauseMode

namespace Term

/-- The terms of a group: its conditions, and the groups in it that have terms. -/
def ofParts (conditions : List (Connector × Fragment)) (groups : List (Connector × List Term)) :
    List Term :=
  conditions.map (fun x => leaf x.1 x.2) ++
    (groups.filter (!·.2.isEmpty)).map fun x => group x.1 x.2

/-- Terms that leave a text behind, whatever the aliases are. -/
def Visible (terms : List Term) : Prop := ∀ term ∈ terms, (body term).Visible

/-- Visible terms have a visible text, if there are any. -/
theorem Visible.whereText (h : Visible terms) (hne : terms ≠ []) :
    (Term.whereText terms).Visible := by
  obtain ⟨term, rest, rfl⟩ := List.exists_cons_of_ne_nil hne
  exact (h term List.mem_cons_self).append_right _

/-- In both clauses, terms have a text. -/
theorem Visible.text (h : Visible terms) (mode : ClauseMode) (hne : terms ≠ []) :
    (mode.text terms).Visible := by
  cases mode with
  | whereClause => exact h.whereText hne
  | onClause =>
    intro root aliasOf hempty
    obtain ⟨front, back, heq⟩ := infix_onText terms
    rw [ClauseMode.text, ← heq, Fragment.chars_append, Fragment.chars_append,
      List.append_eq_nil_iff, List.append_eq_nil_iff] at hempty
    exact h.whereText hne root aliasOf hempty.1.2

/-- Terms are visible if the conditions among them are. -/
theorem visible_ofParts {conditions : List (Connector × Fragment)}
    (h : ∀ x ∈ conditions, x.2.Visible) (groups : List (Connector × List Term)) :
    Visible (ofParts conditions groups) := by
  refine List.forall_mem_append.mpr ⟨List.forall_mem_map.mpr h, List.forall_mem_map.mpr ?_⟩
  exact fun x _ => Fragment.visible_parens _

/-- Conditions stand behind their connectors. -/
theorem tailText_leaves (conditions : List (Connector × Fragment)) :
    tailText (conditions.map fun x => leaf x.1 x.2) =
      conditions.flatMap fun x => .text x.1.text :: x.2 := by
  induction conditions with
  | nil => rfl
  | cons first rest ih => rw [List.map_cons, tailText, ih, List.flatMap_cons]

/-- Groups stand behind their connectors, in parentheses. -/
theorem tailText_groups (groups : List (Connector × List Term)) :
    tailText (groups.map fun x => group x.1 x.2) =
      groups.flatMap fun x => .text x.1.text :: (whereText x.2).parens := by
  induction groups with
  | nil => rfl
  | cons first rest ih => rw [List.map_cons, tailText, ih, List.flatMap_cons]

/-- The groups that have terms are those that have a text. -/
theorem filter_whereText {groups : List (Connector × List Term)}
    (h : ∀ x ∈ groups, Visible x.2) :
    (groups.map fun x => (x.1, whereText x.2)).filter (!·.2.isEmpty) =
      (groups.filter (!·.2.isEmpty)).map fun x => (x.1, whereText x.2) := by
  rw [List.filter_map]
  congr 1
  refine List.filter_congr fun x hx => ?_
  by_cases hterms : x.2 = []
  · simp [hterms, whereText]
  · have htext := ((h x hx).whereText hterms).ne_nil
    rw [Function.comp_apply, List.isEmpty_eq_false_iff.mpr hterms,
      List.isEmpty_eq_false_iff.mpr htext]

/-- The text of the terms of a group is what its conditions and its groups are put together to. -/
theorem text_ofParts (mode : ClauseMode) {conditions : List (Connector × Fragment)}
    {groups : List (Connector × List Term)} (hconditions : ∀ x ∈ conditions, x.2 ≠ [])
    (hgroups : ∀ x ∈ groups, Visible x.2) :
    mode.text (ofParts conditions groups) =
      mode.assemble conditions (groups.map fun x => (x.1, whereText x.2)) := by
  rw [ClauseMode.assemble, filter_whereText hgroups, ofParts]
  cases conditions with
  | nil =>
    cases groups.filter (!·.2.isEmpty) with
    | nil => cases mode <;> rfl
    | cons first rest =>
      rw [ClauseMode.joinConditions, List.map_cons, List.map_cons, ClauseMode.foldl_addGroup_nil,
        List.flatMap_map, ← tailText_groups]
      cases mode <;> rfl
  | cons first rest =>
    have hne := ClauseMode.joinConditions_ne_nil (List.cons_ne_nil first rest) hconditions
    have htext : mode.text ((first :: rest).map (fun x => leaf x.1 x.2) ++
        (groups.filter (!·.2.isEmpty)).map fun x => group x.1 x.2) =
        first.2 ++ tailText (rest.map (fun x => leaf x.1 x.2) ++
          (groups.filter (!·.2.isEmpty)).map fun x => group x.1 x.2) := by
      cases mode <;> rfl
    rw [htext, ClauseMode.foldl_addGroup hne, List.flatMap_map, tailText_append, tailText_leaves,
      tailText_groups, ← List.append_assoc]
    rfl

end Term

namespace Resolve

variable {α β γ : Type}

/-- Steps that agree on all that the step in front of them ensures may be exchanged. -/
theorem bind_congr_of_ensures {x : Resolve α} {P : α → Prop} {f g : α → Resolve β}
    (hx : x.Ensures P) (h : ∀ a, P a → f a = g a) : x >>= f = x >>= g := by
  refine eq_of_run_eq ?_
  rw [run_bind, run_bind]
  cases hrun : x.run with
  | error e => rfl
  | ok y => simp only [h y.1 (hx y.1 y.2 hrun)]

/-- What is made of each of several results may be made of them at the end. -/
theorem mapM_map_result (f : α → Resolve β) (g : β → γ) (xs : List α) :
    (xs.mapM fun x => f x >>= fun y => pure (g y)) =
      xs.mapM f >>= fun ys => pure (ys.map g) := by
  induction xs with
  | nil => simp only [List.mapM_nil, pure_bind, List.map_nil]
  | cons x xs ih => simp only [List.mapM_cons, ih, bind_assoc, pure_bind, List.map_cons]

end Resolve

namespace Context

open Resolve

/-- The text of a group of conditions in a clause. -/
def groupText (ctx : Context) (mode : ClauseMode) (scope : Scope) (path : Path)
    (g : ConditionGroup) : Resolve Fragment := do
  return mode.text (← ctx.groupTerms scope path g)

/-- Conditions with their connectors and texts, the first of which has the given number. -/
def conditionParts (ctx : Context) (scope : Scope) (path : Path) (i : Nat)
    (conditions : List Condition) : Resolve (List (Connector × Fragment)) :=
  (conditions.zipIdx i).mapM fun (x, i) => do
    return (x.connector, ← ctx.conditionText scope path i x.field x.filter)

/-- Groups with their connectors and their texts behind `WHERE`, the first of which has the given
number. -/
def groupParts (ctx : Context) (scope : Scope) (path : Path) (j : Nat) (groups : List Subgroup) :
    Resolve (List (Connector × Fragment)) :=
  (groups.zipIdx j).mapM fun (x, j) => do
    return (x.connector, ← ctx.groupText .whereClause scope (path.childAt "ot" j) x.group)

/-- Groups with their connectors and terms, the first of which has the given number. -/
def groupPartTerms (ctx : Context) (scope : Scope) (path : Path) (j : Nat)
    (groups : List Subgroup) : Resolve (List (Connector × List Term)) :=
  (groups.zipIdx j).mapM fun (x, j) => do
    return (x.connector, ← ctx.groupTerms scope (path.childAt "ot" j) x.group)

variable {ctx : Context} {scope : Scope}

/-- The terms of conditions are their texts behind connectors. -/
theorem conditionTerms_eq (path : Path) (conditions : List Condition) (i : Nat) :
    ctx.conditionTerms scope path i conditions =
      ctx.conditionParts scope path i conditions >>= fun xs =>
        pure (xs.map fun x => .leaf x.1 x.2) := by
  induction conditions generalizing i with
  | nil => simp only [conditionTerms, conditionParts, List.zipIdx_nil, List.mapM_nil, pure_bind,
      List.map_nil]
  | cons condition rest ih =>
    obtain ⟨connector, field, filter⟩ := condition
    rw [conditionTerms, ih]
    simp only [conditionParts, List.zipIdx_cons, List.mapM_cons, bind_assoc, pure_bind,
      List.map_cons]

/-- The terms of groups are those that are not empty, behind their connectors. -/
theorem subgroupTerms_eq (path : Path) (groups : List Subgroup) (j : Nat) :
    ctx.subgroupTerms scope path j groups =
      ctx.groupPartTerms scope path j groups >>= fun xs =>
        pure ((xs.filter (!·.2.isEmpty)).map fun x => .group x.1 x.2) := by
  induction groups generalizing j with
  | nil => simp only [subgroupTerms, groupPartTerms, List.zipIdx_nil, List.mapM_nil, pure_bind,
      List.filter_nil, List.map_nil]
  | cons subgroup rest ih =>
    obtain ⟨connector, group⟩ := subgroup
    rw [subgroupTerms, ih]
    simp only [groupPartTerms, List.zipIdx_cons, List.mapM_cons, bind_assoc, pure_bind]
    refine bind_congr fun terms => bind_congr fun others => congrArg pure ?_
    cases terms <;> rfl

/-- The terms of a group are made of its conditions, and of the terms of the groups in it. -/
theorem groupTerms_eq (path : Path) (g : ConditionGroup) : ctx.groupTerms scope path g = do
    let conditions ← ctx.conditionParts scope path 0 g.conditions
    let groups ← ctx.groupPartTerms scope path 0 g.groups
    return Term.ofParts conditions groups := by
  obtain ⟨conditions, groups⟩ := g
  rw [groupTerms, conditionTerms_eq, subgroupTerms_eq]
  simp only [bind_assoc, pure_bind]
  rfl

/-- The texts of groups are those of their terms. -/
theorem groupParts_eq (path : Path) (j : Nat) (groups : List Subgroup) :
    ctx.groupParts scope path j groups =
      ctx.groupPartTerms scope path j groups >>= fun xs =>
        pure (xs.map fun x => (x.1, Term.whereText x.2)) := by
  rw [groupPartTerms, ← mapM_map_result]
  simp only [groupParts, groupText, bind_assoc, pure_bind]
  rfl

/-- Conditions are resolved to visible texts. -/
theorem conditionParts_visible (path : Path) (i : Nat) (conditions : List Condition) :
    (ctx.conditionParts scope path i conditions).Ensures fun xs => ∀ x ∈ xs, x.2.Visible :=
  .mapM fun _ _ => .bind (conditionText_inked.mono fun _ h => h.visible) fun _ h => .pure h

/-- Whatever stands in a group, its terms leave a text behind. -/
theorem groupTerms_visible (path : Path) (g : ConditionGroup) :
    (ctx.groupTerms scope path g).Ensures Term.Visible := by
  rw [groupTerms_eq]
  exact .bind (conditionParts_visible path 0 g.conditions) fun conditions h =>
    .bind .trivially fun groups _ => .pure (Term.visible_ofParts h groups)

/-- Groups are resolved to visible terms. -/
theorem groupPartTerms_visible (path : Path) (j : Nat) (groups : List Subgroup) :
    (ctx.groupPartTerms scope path j groups).Ensures fun xs => ∀ x ∈ xs, Term.Visible x.2 :=
  .mapM fun _ _ => .bind (groupTerms_visible _ _) fun _ h => .pure h

/-- In both clauses, the text of a group is put together from its conditions and from the texts that
the groups in it have behind `WHERE`. -/
theorem groupText_eq (mode : ClauseMode) (path : Path) (g : ConditionGroup) :
    ctx.groupText mode scope path g = do
      let conditions ← ctx.conditionParts scope path 0 g.conditions
      let groups ← ctx.groupParts scope path 0 g.groups
      return mode.assemble conditions groups := by
  rw [groupText, groupTerms_eq, groupParts_eq]
  simp only [bind_assoc, pure_bind]
  refine bind_congr_of_ensures (conditionParts_visible path 0 g.conditions) fun conditions h => ?_
  refine bind_congr_of_ensures (groupPartTerms_visible path 0 g.groups) fun groups hgroups => ?_
  rw [Term.text_ofParts mode (fun x hx => (h x hx).ne_nil) hgroups]

mutual

/-- A group has terms if and only if it holds a condition at some depth. -/
theorem groupTerms_eq_nil_iff : ∀ (g : ConditionGroup) {path : Path} {terms : List Term}
    {t : Trace}, (ctx.groupTerms scope path g).Yields terms t →
    (terms = [] ↔ g.isLeafless = true)
  | ⟨conditions, groups⟩, path, terms, t, h => by
    obtain ⟨leaves, t₁, others, t₂, hleaves, hothers, rfl, -⟩ := groupTerms_yields h
    rw [List.append_eq_nil_iff, ConditionGroup.isLeafless, Bool.and_eq_true,
      ← subgroupTerms_eq_nil_iff groups hothers]
    refine and_congr_left fun _ => ?_
    cases conditions with
    | nil =>
      obtain ⟨rfl, -⟩ := pure_yields.mp hleaves
      exact iff_of_true rfl rfl
    | cons condition rest =>
      obtain ⟨connector, field, filter⟩ := condition
      obtain ⟨text, _, leaves, _, -, -, rfl, -⟩ := conditionTerms_cons_yields hleaves
      exact iff_of_false (List.cons_ne_nil _ _) Bool.false_ne_true

/-- Groups have no terms just if there is no condition in them. -/
theorem subgroupTerms_eq_nil_iff : ∀ (groups : List Subgroup) {path : Path} {j : Nat}
    {terms : List Term} {t : Trace}, (ctx.subgroupTerms scope path j groups).Yields terms t →
    (terms = [] ↔ areLeafless groups = true)
  | [], _, _, _, _, h => by
    obtain ⟨rfl, -⟩ := pure_yields.mp h
    exact iff_of_true rfl rfl
  | ⟨connector, group⟩ :: rest, _, _, _, _, h => by
    obtain ⟨inner, t₁, others, t₂, hinner, hothers, rfl, -⟩ := subgroupTerms_cons_yields h
    rw [areLeafless, Bool.and_eq_true, ← groupTerms_eq_nil_iff group hinner,
      ← subgroupTerms_eq_nil_iff rest hothers]
    cases inner with
    | nil => simp
    | cons term inner => simp

end

/-- The text of a group in a clause is that of its terms. -/
theorem groupText_yields {mode : ClauseMode} {path : Path} {g : ConditionGroup} {f : Fragment}
    {t : Trace} : (ctx.groupText mode scope path g).Yields f t ↔
      ∃ terms, (ctx.groupTerms scope path g).Yields terms t ∧ f = mode.text terms := by
  simp only [groupText, bind_yields, pure_yields]
  constructor
  · rintro ⟨terms, _, _, hterms, ⟨rfl, rfl⟩, rfl⟩
    exact ⟨terms, by rwa [Trace.append_empty], rfl⟩
  · rintro ⟨terms, hterms, rfl⟩
    exact ⟨terms, t, .empty, hterms, ⟨rfl, rfl⟩, (Trace.append_empty t).symm⟩

/-- A group has a text if and only if it holds a condition at some depth. -/
theorem render_groupText_eq_empty_iff {mode : ClauseMode} {path : Path} {g : ConditionGroup}
    {f : Fragment} {t : Trace} (h : (ctx.groupText mode scope path g).Yields f t)
    (aliases : Aliases) : f.render ctx.root aliases = "" ↔ g.isLeafless = true := by
  obtain ⟨terms, hterms, rfl⟩ := groupText_yields.mp h
  rw [← groupTerms_eq_nil_iff g hterms]
  constructor
  · intro hempty
    by_contra hne
    exact ((groupTerms_visible path g _ _ hterms).text mode hne).render_ne aliases hempty
  · rintro rfl
    cases mode <;> rfl

/-- The text of a group is empty or visible. -/
theorem groupParts_visible (path : Path) (j : Nat) (groups : List Subgroup) :
    (ctx.groupParts scope path j groups).Ensures fun xs => ∀ x ∈ xs, x.2 = [] ∨ x.2.Visible := by
  refine .mapM fun _ _ => .bind (P := fun f : Fragment => f = [] ∨ f.Visible) ?_ fun _ h => .pure h
  refine .bind (groupTerms_visible _ _) fun terms h => .pure ?_
  by_cases hne : terms = []
  · exact .inl (hne ▸ rfl)
  · exact .inr (h.text .whereClause hne)

/-- How a group resolves does not depend on the clause: it fails in both, or its conditions and the
groups in it are put together in both, with the same tables mentioned and the same values bound. -/
theorem groupText_outcome (scope : Scope) (path : Path) (g : ConditionGroup) :
    (∃ e, ∀ mode, (ctx.groupText mode scope path g).run = .error e) ∨
      ∃ conditions groups t, (∀ x ∈ conditions, x.2.Visible) ∧
        conditions.isEmpty = g.conditions.isEmpty ∧
        (ctx.groupParts scope path 0 g.groups).Gives groups ∧
        ∀ mode : ClauseMode,
          (ctx.groupText mode scope path g).Yields (mode.assemble conditions groups) t := by
  -- The clause is looked at only when all parts are resolved, so both clauses fail alike.
  cases hconditions : (ctx.conditionParts scope path 0 g.conditions).run with
  | error e =>
    refine .inl ⟨e, fun mode => ?_⟩
    rw [groupText_eq, run_bind, hconditions]
  | ok x =>
    cases hgroups : (ctx.groupParts scope path 0 g.groups).run with
    | error e =>
      refine .inl ⟨e, fun mode => ?_⟩
      simp only [groupText_eq, run_bind, hconditions, hgroups]
    | ok y =>
      refine .inr ⟨x.1, y.1, x.2 ++ y.2, conditionParts_visible path 0 g.conditions _ _ hconditions,
        ?_, ⟨y.2, hgroups⟩, fun mode => ?_⟩
      · rw [Bool.eq_iff_iff, List.isEmpty_iff_length_eq_zero, List.isEmpty_iff_length_eq_zero,
          length_of_mapM_yields hconditions, List.length_zipIdx]
      · rw [groupText_eq]
        exact bind_yields.mpr ⟨_, _, _, hconditions, bind_yields.mpr ⟨_, _, .empty, hgroups,
          pure_yields.mpr ⟨rfl, rfl⟩, (Trace.append_empty _).symm⟩, rfl⟩

/-- Behind `WHERE` and behind the keys of a join, a group of conditions is put together from the
same parts: its conditions, and the texts that the groups in it have behind `WHERE`. Either it fails
in both clauses with the same error, or it has texts in both, for which the same tables are
mentioned and the same values are bound. The text behind the keys of a join is the other one, led by
the connector of the first group in it that has a text if the group has no condition of its own.
Both texts are empty if and only if the group holds no condition at any depth. -/
theorem groupText_modes (ctx : Context) (scope : Scope) (path : Path) (g : ConditionGroup) :
    (∀ mode : ClauseMode, ctx.groupText mode scope path g = do
      let conditions ← ctx.conditionParts scope path 0 g.conditions
      let groups ← ctx.groupParts scope path 0 g.groups
      return mode.assemble conditions groups) ∧
    ((∃ e, ∀ mode, (ctx.groupText mode scope path g).run = .error e) ∨
      ∃ behindWhere behindOn groups t,
        (ctx.groupText .whereClause scope path g).Yields behindWhere t ∧
        (ctx.groupText .onClause scope path g).Yields behindOn t ∧
        (ctx.groupParts scope path 0 g.groups).Gives groups ∧
        ∀ aliases : Aliases,
          let text := Fragment.render ctx.root aliases
          text behindOn = (if g.conditions.isEmpty then
            ((groups.find? fun x => text x.2 != "").map (·.1.text)).getD "" else "") ++
              text behindWhere ∧
          (text behindWhere = "" ↔ g.isLeafless = true) ∧
          (text behindOn = "" ↔ g.isLeafless = true)) := by
  refine ⟨fun mode => groupText_eq mode path g, ?_⟩
  obtain hfails | ⟨conditions, groups, t, hvisible, hempty, hgroups, htext⟩ :=
    ctx.groupText_outcome scope path g
  · exact .inl hfails
  · refine .inr ⟨_, _, groups, t, htext .whereClause, htext .onClause, hgroups, fun aliases =>
      ⟨?_, render_groupText_eq_empty_iff (htext .whereClause) aliases,
        render_groupText_eq_empty_iff (htext .onClause) aliases⟩⟩
    obtain ⟨u, hgroups⟩ := hgroups
    rw [ClauseMode.assemble_onClause fun x hx => (hvisible x hx).ne_nil, Fragment.render_append,
      hempty, ← ClauseMode.render_leading (groupParts_visible path 0 g.groups _ _ hgroups)]
    split <;> rfl

end Context

end DynamicSql

import DynamicSql.Proofs.Resolve.Texts
import DynamicSql.Resolve.References

/-!
# Names and tables below a query

The names from outside that a query hands to a statement are collected as its tables are, and the
names and tables of every `SELECT` that is shown for the query are among them.
-/

namespace DynamicSql

/-- The names in the clauses of a query: fields, expressions, and the names of shown columns. The
patterns of dates are no names, and names that are left out are only compared. -/
def Clauses.names (clauses : Clauses) : List String :=
  (clauses.columns.flatMap fun item => item.field :: item.alias?.toList) ++
    clauses.groups.map (·.field) ++ clauses.havings.map (·.field) ++ clauses.orders.map (·.field)

mutual

/-- The names in a query, apart from those of tables. -/
def Query.names : Query → List String
  | ⟨_, _, clauses, conditions, joins, unions⟩ =>
    clauses.names ++ conditions.names ++ joinNames joins ++ branchNames unions

/-- The names in a group of conditions. -/
def ConditionGroup.names : ConditionGroup → List String
  | ⟨conditions, groups⟩ => conditionNames conditions ++ subgroupNames groups

/-- The names in conditions. -/
def conditionNames : List Condition → List String
  | [] => []
  | ⟨_, field, filter⟩ :: rest => field :: filter.names ++ conditionNames rest

/-- The names in what a condition says of its field. -/
def Filter.names : Filter → List String
  | .compareField _ other => [other]
  | .memberOf _ query => query.names
  | _ => []

/-- The names in groups. -/
def subgroupNames : List Subgroup → List String
  | [] => []
  | ⟨_, group⟩ :: rest => group.names ++ subgroupNames rest

/-- The names in joins. -/
def joinNames : List Join → List String
  | [] => []
  | ⟨keys, query, on⟩ :: rest => keys.texts ++ query.names ++ on.names ++ joinNames rest

/-- The names in the branches of a union. -/
def branchNames : List UnionBranch → List String
  | [] => []
  | ⟨_, query⟩ :: rest => query.names ++ branchNames rest

end

/-- The `SELECT`s that a query over a table is shown as, each with its table: its own, and those of
its branches. -/
def Query.selects (table : String) (q : Query) : List (String × Query) :=
  (table, q) :: q.unions.map fun branch => (branch.query.table.getD table, branch.query)

/-- The names in the conditions and joins of a query are among its names. -/
theorem Query.demandNames_subset (q : Query) :
    q.conditions.names ++ joinNames q.joins ⊆ q.names := by
  obtain ⟨own, token, clauses, conditions, joins, unions⟩ := q
  rw [Query.names]
  intro s hs
  simp only [List.mem_append] at hs ⊢
  exact .inl (hs.imp_left .inr)

/-- The names and the tables of a branch are among those of all branches. -/
theorem branch_subset {branches : List UnionBranch} {b : UnionBranch} (hb : b ∈ branches)
    (table : String) : b.query.names ⊆ branchNames branches ∧
      b.query.conditions.references ++ joinReferences b.query.joins ⊆
        branchReferences table branches := by
  induction branches with
  | nil => cases hb
  | cons branch rest ih =>
    obtain ⟨kind, own, token, clauses, conditions, joins, unions⟩ := branch
    rw [branchNames, branchReferences, Query.branchReferences]
    obtain rfl | hb := List.mem_cons.mp hb
    · refine ⟨List.subset_append_left _ _, fun r hr => List.mem_append_left _ ?_⟩
      exact List.mem_append_left _ (List.mem_cons_of_mem _ hr)
    · exact ⟨List.subset_append_of_subset_right _ (ih hb).1,
        List.subset_append_of_subset_right _ (ih hb).2⟩

/-- A `SELECT` has no names and tables but those of the query it is shown for. -/
theorem Query.selects_subset {table : String} {q : Query} {x : String × Query}
    (hx : x ∈ q.selects table) : x.2.names ⊆ q.names ∧
      x.2.conditions.references ++ joinReferences x.2.joins ⊆ q.references table := by
  obtain ⟨own, token, clauses, conditions, joins, unions⟩ := q
  rw [Query.names, Query.references]
  obtain rfl | hx := List.mem_cons.mp hx
  · refine ⟨List.Subset.refl _, fun r hr => ?_⟩
    exact List.mem_append_left _ (List.mem_cons_of_mem _ hr)
  · obtain ⟨b, hb, rfl⟩ := List.mem_map.mp hx
    obtain ⟨hnames, hreferences⟩ := branch_subset hb table
    exact ⟨List.subset_append_of_subset_right _ hnames,
      List.subset_append_of_subset_right _ hreferences⟩

/-- The names of a query over a table are among given ones, and so are the tables below it. -/
structure Query.Within (names : List String) (references : List (Token × String))
    (x : String × Query) : Prop where
  names : x.2.names ⊆ names
  references : x.2.references x.1 ⊆ references

/-- What a query names is among all that its names are among. -/
theorem Query.Within.mono {names others : List String} {references tables : List (Token × String)}
    {x : String × Query} (h : Query.Within names references x) (hnames : names ⊆ others)
    (hreferences : references ⊆ tables) : Query.Within others tables x :=
  ⟨List.Subset.trans h.names hnames, List.Subset.trans h.references hreferences⟩

end DynamicSql

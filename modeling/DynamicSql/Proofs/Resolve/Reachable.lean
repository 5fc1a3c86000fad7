import DynamicSql.Resolve.References
import Mathlib.Data.List.Basic

/-!
# Queries that a statement reaches

The queries below a query, told step by step: a query leads to those in its conditions and in the
extra conditions of its joins, at any depth of groups, to the joined queries and to the branches of
its unions. Joined queries and queries in conditions count only where they have a table of their
own; nothing below the others is reached. The main statement is `Query.references_tokens`: the
tables collected for a statement carry the tokens of exactly these queries.
-/

namespace DynamicSql

/-- The query that a condition holds, if it holds one. -/
def Filter.queries : Filter → List Query
  | .memberOf _ query => [query]
  | _ => []

mutual

/-- The queries in the conditions of a group, at any depth. -/
def ConditionGroup.queries : ConditionGroup → List Query
  | ⟨conditions, groups⟩ => conditions.flatMap (·.filter.queries) ++ subgroupQueries groups

/-- The queries in the conditions of groups. -/
def subgroupQueries : List Subgroup → List Query
  | [] => []
  | ⟨_, group⟩ :: rest => group.queries ++ subgroupQueries rest

end

/-- The queries that a join brings: the joined one, and those in its extra conditions. -/
def Join.queries (j : Join) : List Query := j.query :: j.on.queries

/-- The queries with a table of their own. -/
def tabled (queries : List Query) : List Query := queries.filter (·.table.isSome)

/-- The queries that a query leads to in one step. Branches of a union may take over its table. -/
def Query.children (q : Query) : List Query :=
  tabled (q.conditions.queries ++ q.joins.flatMap Join.queries) ++ q.unions.map (·.query)

/-- A query inside a condition is smaller than what the condition says. -/
theorem Filter.sizeOf_queries {filter : Filter} {q : Query} (h : q ∈ filter.queries) :
    sizeOf q < sizeOf filter := by
  cases filter with
  | memberOf test query =>
    obtain rfl := List.mem_singleton.mp h
    simp only [Filter.memberOf.sizeOf_spec]
    omega
  | _ => cases h

mutual

/-- A query inside a group is smaller than the group. -/
theorem ConditionGroup.sizeOf_queries : ∀ (g : ConditionGroup) {q : Query}, q ∈ g.queries →
    sizeOf q < sizeOf g
  | ⟨conditions, groups⟩, q, h => by
    rw [ConditionGroup.queries, List.mem_append, List.mem_flatMap] at h
    simp only [ConditionGroup.mk.sizeOf_spec]
    obtain ⟨condition, hmem, hquery⟩ | h := h
    · have hfilter := Filter.sizeOf_queries hquery
      have hcondition := List.sizeOf_lt_of_mem hmem
      cases condition
      simp only [Condition.mk.sizeOf_spec] at hcondition
      dsimp only at hfilter
      omega
    · have hgroups := sizeOf_subgroupQueries groups h
      omega

/-- A query inside the groups of a group is smaller than these. -/
theorem sizeOf_subgroupQueries : ∀ (groups : List Subgroup) {q : Query},
    q ∈ subgroupQueries groups → sizeOf q < sizeOf groups
  | [], _, h => absurd h List.not_mem_nil
  | ⟨_, group⟩ :: rest, _, h => by
    rw [subgroupQueries, List.mem_append] at h
    simp only [List.cons.sizeOf_spec, Subgroup.mk.sizeOf_spec]
    obtain h | h := h
    · have hgroup := group.sizeOf_queries h
      omega
    · have hrest := sizeOf_subgroupQueries rest h
      omega

end

/-- A query is smaller than the one that leads to it. -/
theorem Query.sizeOf_children {q child : Query} (h : child ∈ q.children) :
    sizeOf child < sizeOf q := by
  obtain ⟨own, token, clauses, conditions, joins, unions⟩ := q
  simp only [children, tabled, List.mem_append, List.mem_filter, List.mem_flatMap,
    List.mem_map] at h
  simp only [Query.mk.sizeOf_spec]
  -- A child is in a condition, below a join, or a branch.
  obtain ⟨h | ⟨join, hjoin, h⟩, -⟩ | ⟨branch, hbranch, rfl⟩ := h
  · have hconditions := conditions.sizeOf_queries h
    omega
  · have hsize := List.sizeOf_lt_of_mem hjoin
    obtain ⟨keys, query, on⟩ := join
    simp only [Join.mk.sizeOf_spec] at hsize
    obtain rfl | h := List.mem_cons.mp h
    · omega
    · have hon := on.sizeOf_queries h
      omega
  · have hsize := List.sizeOf_lt_of_mem hbranch
    cases branch
    simp only [UnionBranch.mk.sizeOf_spec] at hsize
    dsimp only
    omega

/-- A query with all queries that it leads to in one step or several. -/
def Query.reachable (q : Query) : List Query :=
  q :: q.children.attach.flatMap fun child => child.1.reachable
termination_by sizeOf q
decreasing_by exact sizeOf_children child.2

/-- A query reaches itself and what its children reach. -/
theorem Query.reachable_eq (q : Query) :
    q.reachable = q :: q.children.flatMap Query.reachable := by
  have hattach := List.flatMap_map Subtype.val Query.reachable (l := q.children.attach)
  rw [List.attach_map_subtype_val] at hattach
  rw [reachable, hattach]

/-- The tokens that the tables of a query need, one for each query that it reaches. -/
def Query.tokens (q : Query) : List Token := q.reachable.map (·.token)

/-- The tokens of a query are its own and those of its children. -/
theorem Query.tokens_eq (q : Query) : q.tokens = q.token :: q.children.flatMap Query.tokens := by
  rw [tokens, reachable_eq, List.map_cons, List.map_flatMap]
  rfl

/-- The tokens below several queries, of which only those with a table count. -/
def tabledTokens (queries : List Query) : List Token := (tabled queries).flatMap Query.tokens

/-- No queries have no tokens. -/
@[simp] theorem tabledTokens_nil : tabledTokens [] = [] := rfl

/-- Queries with tables have their tokens list by list. -/
@[simp] theorem tabledTokens_append (a b : List Query) :
    tabledTokens (a ++ b) = tabledTokens a ++ tabledTokens b := by
  rw [tabledTokens, tabled, List.filter_append, List.flatMap_append]
  rfl

/-- The tokens of the first query stand in front. -/
theorem tabledTokens_cons (q : Query) (rest : List Query) :
    tabledTokens (q :: rest) = tabledTokens [q] ++ tabledTokens rest :=
  tabledTokens_append [q] rest

/-- The tokens of a query: its own, then those below it, part by part. -/
theorem Query.tokens_mk (own : Option String) (token : Token) (clauses : Clauses)
    (conditions : ConditionGroup) (joins : List Join) (unions : List UnionBranch) :
    Query.tokens ⟨own, token, clauses, conditions, joins, unions⟩ =
      token :: tabledTokens conditions.queries ++ tabledTokens (joins.flatMap Join.queries) ++
        unions.flatMap (·.query.tokens) := by
  rw [tokens_eq, children, List.flatMap_append, List.flatMap_map]
  change token :: (tabledTokens (conditions.queries ++ joins.flatMap Join.queries) ++ _) = _
  rw [tabledTokens_append]
  rfl

mutual

/-- The tables collected for a query carry the tokens of the queries that it reaches. -/
theorem Query.references_tokens : ∀ (q : Query) (table : String),
    (q.references table).map (·.1) = q.tokens
  | ⟨_, token, _, conditions, joins, unions⟩, table => by
    rw [Query.references, Query.tokens_mk, List.map_append, List.map_append, List.map_cons,
      conditions.references_tokens, joinReferences_tokens joins, branchReferences_tokens unions]

/-- The tables collected from a group are those of the queries in it. -/
theorem ConditionGroup.references_tokens : ∀ g : ConditionGroup,
    g.references.map (·.1) = tabledTokens g.queries
  | ⟨conditions, groups⟩ => by
    rw [ConditionGroup.references, ConditionGroup.queries, List.map_append, tabledTokens_append,
      conditionReferences_tokens conditions, subgroupReferences_tokens groups]

/-- Those collected from conditions are those of the queries in them. -/
theorem conditionReferences_tokens : ∀ conditions : List Condition,
    (conditionReferences conditions).map (·.1) =
      tabledTokens (conditions.flatMap (·.filter.queries))
  | [] => by rw [conditionReferences, List.map_nil, List.flatMap_nil, tabledTokens_nil]
  | ⟨_, _, filter⟩ :: rest => by
    rw [conditionReferences, List.flatMap_cons, List.map_append, tabledTokens_append,
      filter.references_tokens, conditionReferences_tokens rest]

/-- Those collected from a single condition are those of the query in it, if it has a table. -/
theorem Filter.references_tokens : ∀ filter : Filter,
    filter.references.map (·.1) = tabledTokens filter.queries
  | .memberOf _ query => by
    rw [Filter.references, query.ownReferences_tokens, Filter.queries]
  | .compare _ _ | .compareField _ _ | .compareDate _ _ _ | .like _ _ | .member _ _ | .guard _ _
  | .isNull | .isNotNull => by
    simp only [Filter.references]
    rfl

/-- A query without a table is passed over. -/
theorem Query.ownReferences_tokens : ∀ q : Query,
    q.ownReferences.map (·.1) = tabledTokens [q]
  | ⟨some table, token, clauses, conditions, joins, unions⟩ => by
    have hself : tabledTokens [⟨some table, token, clauses, conditions, joins, unions⟩] =
        Query.tokens ⟨some table, token, clauses, conditions, joins, unions⟩ := List.append_nil _
    rw [hself, Query.ownReferences, Query.tokens_mk, List.map_append, List.map_append,
      List.map_cons, conditions.references_tokens, joinReferences_tokens joins,
      branchReferences_tokens unions]
  | ⟨none, _, _, _, _, _⟩ => by
    rw [Query.ownReferences]
    rfl

/-- Those collected from the groups of a group are those of the queries in them. -/
theorem subgroupReferences_tokens : ∀ groups : List Subgroup,
    (subgroupReferences groups).map (·.1) = tabledTokens (subgroupQueries groups)
  | [] => by rw [subgroupReferences, subgroupQueries, List.map_nil, tabledTokens_nil]
  | ⟨_, group⟩ :: rest => by
    rw [subgroupReferences, subgroupQueries, List.map_append, tabledTokens_append,
      group.references_tokens, subgroupReferences_tokens rest]

/-- Those collected from joins are those of the joined queries and of the queries in their
conditions. -/
theorem joinReferences_tokens : ∀ joins : List Join,
    (joinReferences joins).map (·.1) = tabledTokens (joins.flatMap Join.queries)
  | [] => by rw [joinReferences, List.map_nil, List.flatMap_nil, tabledTokens_nil]
  | ⟨_, query, on⟩ :: rest => by
    rw [joinReferences, List.flatMap_cons, Join.queries, tabledTokens_append, tabledTokens_cons,
      List.map_append, List.map_append, query.ownReferences_tokens, on.references_tokens,
      joinReferences_tokens rest]

/-- Those collected from branches are all of their tokens. -/
theorem branchReferences_tokens : ∀ (branches : List UnionBranch) (table : String),
    (branchReferences table branches).map (·.1) = branches.flatMap (·.query.tokens)
  | [], _ => by rw [branchReferences, List.map_nil, List.flatMap_nil]
  | ⟨_, query⟩ :: rest, table => by
    rw [branchReferences, List.flatMap_cons, List.map_append, query.branchReferences_tokens,
      branchReferences_tokens rest]

/-- Those collected from a branch are all of its tokens. -/
theorem Query.branchReferences_tokens : ∀ (q : Query) (table : String),
    (q.branchReferences table).map (·.1) = q.tokens
  | ⟨own, token, _, conditions, joins, unions⟩, table => by
    rw [Query.branchReferences, Query.tokens_mk, List.map_append, List.map_append, List.map_cons,
      conditions.references_tokens, joinReferences_tokens joins,
      DynamicSql.branchReferences_tokens unions]

end

end DynamicSql

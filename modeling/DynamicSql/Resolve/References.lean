import DynamicSql.Query.Basic
import DynamicSql.Error

/-!
# The tables of a statement

Before a statement is resolved, the tokens of all its tables are collected, so that a field can
refer to a table that is shown further on. Every table needs a token of its own: a query that is
used twice must be given a new one.
-/

namespace DynamicSql

mutual

/-- The tables of a query over a table: its own, then those of its conditions, joins and unions. A
branch of a union without a table has the table of the query. -/
def Query.references (table : String) : Query → List (Token × String)
  | ⟨_, token, _, conditions, joins, unions⟩ =>
    (token, table) :: conditions.references ++ joinReferences joins ++
      branchReferences table unions

/-- The tables of the queries in a group of conditions. -/
def ConditionGroup.references : ConditionGroup → List (Token × String)
  | ⟨conditions, groups⟩ => conditionReferences conditions ++ subgroupReferences groups

/-- The tables of the queries in a list of conditions. -/
def conditionReferences : List Condition → List (Token × String)
  | [] => []
  | ⟨_, _, filter⟩ :: rest => filter.references ++ conditionReferences rest

/-- The tables of the query in a condition. A query without a table is passed over. -/
def Filter.references : Filter → List (Token × String)
  | .memberOf _ query => query.ownReferences
  | _ => []

/-- The tables of a query over its own table, if it has one. -/
def Query.ownReferences : Query → List (Token × String)
  | ⟨some table, token, _, conditions, joins, unions⟩ =>
    (token, table) :: conditions.references ++ joinReferences joins ++
      branchReferences table unions
  | ⟨none, _, _, _, _, _⟩ => []

/-- The tables of the queries in a list of groups. -/
def subgroupReferences : List Subgroup → List (Token × String)
  | [] => []
  | ⟨_, group⟩ :: rest => group.references ++ subgroupReferences rest

/-- The tables of joined queries, each followed by those of its extra conditions. -/
def joinReferences : List Join → List (Token × String)
  | [] => []
  | ⟨_, query, on⟩ :: rest => query.ownReferences ++ on.references ++ joinReferences rest

/-- The tables of the branches of a union. -/
def branchReferences (table : String) : List UnionBranch → List (Token × String)
  | [] => []
  | ⟨_, query⟩ :: rest => query.branchReferences table ++ branchReferences table rest

/-- The tables of a branch, which takes over a table unless it has one. -/
def Query.branchReferences (table : String) : Query → List (Token × String)
  | ⟨own, token, _, conditions, joins, unions⟩ =>
    (token, own.getD table) :: conditions.references ++ joinReferences joins ++
      DynamicSql.branchReferences (own.getD table) unions

end

/-- Refuse a second table with the token of a former one. -/
def checkTokens (former : List (Token × String)) : List (Token × String) → Except Error Unit
  | [] => .ok ()
  | (token, table) :: rest =>
    match former.lookup token with
    | some previous => .error (.sharedToken previous table token)
    | none => checkTokens ((token, table) :: former) rest

/-- The tables of a statement, if each has a token of its own. -/
def distinctReferences (references : List (Token × String)) :
    Except Error (List (Token × String)) := do
  checkTokens [] references
  return references

end DynamicSql

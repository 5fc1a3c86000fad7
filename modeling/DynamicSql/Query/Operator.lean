import DynamicSql.Value.Text

/-!
# The words of conditions

Comparisons, tests, directions and set operations, each with its spelling in a statement.
-/

namespace DynamicSql

/-- What stands between a condition and the one before it. -/
inductive Connector where
  | and
  | or
deriving DecidableEq, Inhabited

/-- The spelling of a connector, with the spaces around it. -/
def Connector.text : Connector → String
  | and => " AND "
  | or => " OR "

/-- A comparison of two operands. -/
inductive Comparison where
  | equal
  | notEqual
  | greaterThan
  | greaterEqual
  | lessThan
  | lessEqual
deriving DecidableEq

namespace Comparison

/-- The spelling of a comparison. -/
def text : Comparison → String
  | equal => "="
  | notEqual => "<>"
  | greaterThan => ">"
  | greaterEqual => ">="
  | lessThan => "<"
  | lessEqual => "<="

/-- Whether a comparison tests for equality, and so takes a field and no arithmetic on its left. -/
def isEquality : Comparison → Bool
  | equal | notEqual => true
  | _ => false

end Comparison

/-- Where the wild cards of a search pattern stand. -/
inductive Wildcards where
  | around
  | before
  | behind
deriving DecidableEq

/-- The pattern that searches for the text of a value. -/
def Wildcards.pattern (w : Wildcards) (v : Value) : Value :=
  .string <| match w with
    | around => "%" ++ v.text ++ "%"
    | before => "%" ++ v.text
    | behind => v.text ++ "%"

/-- A test that a field stays positive, or does not become negative, when a value is added to it or
taken from it. -/
inductive Guard where
  | addPositive
  | addNonnegative
  | takePositive
  | takeNonnegative
deriving DecidableEq

namespace Guard

/-- The sign in front of the value. -/
def sign : Guard → String
  | addPositive | addNonnegative => "+"
  | takePositive | takeNonnegative => "-"

/-- The comparison with zero. -/
def comparison : Guard → Comparison
  | addPositive | takePositive => .greaterThan
  | addNonnegative | takeNonnegative => .greaterEqual

end Guard

/-- A test for membership. -/
inductive Membership where
  | isIn
  | notIn
deriving DecidableEq

/-- The spelling of a membership test. -/
def Membership.text : Membership → String
  | isIn => "in"
  | notIn => "not in"

/-- The direction of an ordering. -/
inductive Direction where
  | ascending
  | descending
deriving DecidableEq, Inhabited

/-- The spelling of a direction. -/
def Direction.text : Direction → String
  | ascending => "ASC"
  | descending => "DESC"

/-- How a union treats rows that occur twice. -/
inductive UnionKind where
  | distinct
  | all
deriving DecidableEq

/-- The spelling of a union, with the spaces around it. -/
def UnionKind.text : UnionKind → String
  | distinct => " UNION "
  | all => " UNION ALL "

end DynamicSql

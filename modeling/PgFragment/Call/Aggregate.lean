import PgFragment.Call.Method
import PgFragment.Expr.Inferred

namespace PgFragment

/-!
# Aggregate calls

The aggregates that the host applies to the rows of a group.
-/

/-- A recognised aggregate method. -/
inductive AggregateMethod where
  /-- Strings joined by a separator. -/
  | stringJoin
  | stringConcat
  | arrayAgg
  | jsonAgg
  | jsonbAgg
  | rangeAgg
  | rangeIntersectAgg
  | sum
  | average
  /-- Pairs of keys and values as a JSON object. -/
  | jsonObjectAgg
  | jsonbObjectAgg
  | other
  deriving DecidableEq

namespace AggregateMethod

/-- A method as messages show it. -/
def shown : AggregateMethod → String
  | .stringJoin => "StringJoin"
  | .stringConcat => "StringConcat"
  | .arrayAgg => "ArrayAgg"
  | .jsonAgg => "JsonAgg"
  | .jsonbAgg => "JsonbAgg"
  | .rangeAgg => "RangeAgg"
  | .rangeIntersectAgg => "RangeIntersectAgg"
  | .sum => "Sum"
  | .average => "Average"
  | .jsonObjectAgg => "JsonObjectAgg"
  | .jsonbObjectAgg => "JsonbObjectAgg"
  | .other => "Other"

/-- The database functions among the aggregates, each named as messages show it. -/
def dbFunctions : List AggregateMethod := [
  .arrayAgg, .jsonAgg, .jsonbAgg, .rangeAgg, .rangeIntersectAgg, .sum, .average, .jsonObjectAgg,
  .jsonbObjectAgg]

/-- Recognises an aggregate method; the rows themselves do not count as an argument. -/
def resolve (declared : DeclaringType) (name : String) (arity : Nat) : AggregateMethod :=
  if declared = .string ∧ name = "Join" ∧ arity = 1 then .stringJoin
  else if declared = .string ∧ name = "Concat" ∧ arity = 0 then .stringConcat
  else if declared = .aggregateDbFunctions ∧ arity = 0 then
    (dbFunctions.find? (·.shown == name)).getD .other
  else .other

/-- The failure of an aggregate that is evaluated outside of a query. -/
def onClient (m : AggregateMethod) : Cause := .clientOnly m.shown

end AggregateMethod

/-- An aggregate method applied to rows. -/
structure AggregateCall where
  method : AggregateMethod
  source : RowSource
  /-- The arguments beside the rows, such as a separator. -/
  args : List Expr
  /-- The type that the call evaluates to. -/
  returnType : HostType

end PgFragment

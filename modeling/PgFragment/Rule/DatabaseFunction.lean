import PgFragment.Call.Method
import PgFragment.Expr.Inferred
import PgFragment.Expr.Shown
import PgFragment.Rule.Basic

namespace PgFragment

/-!
# Database functions

Matching without regard to case, reversing a string, and comparing rows position by position.
-/

namespace Expr

/-- The values of a row, built as one or given as a constant record. -/
def asRow? : Expr → Option (List Expr)
  | .row values => some values
  | .constant (.record fields) _ => some (fields.map fun field => .constant field none)
  | _ => none

/-- A string constant of exactly one character. -/
def isSingleCharacter : Expr → Bool
  | .constant (.string s) _ => s.length == 1
  | _ => false

end Expr

namespace Catalog

variable (catalog : Catalog)

/-- Matching; an escape has to be known up front and be a single character. -/
def lowerIlike : List Expr → Outcome
  | [subject, pattern] => .lowered (catalog.ilike subject pattern none)
  | [subject, pattern, escape] =>
    if escape.isSingleCharacter then .lowered (catalog.ilike subject pattern (some escape))
    else
      .declined (some ("ILike escape is not a single-character constant: " ++ escape.shown))
  | _ => .pass

/-- The comparison of two rows of one length. -/
def lowerRowComparison (op : BinaryOp) : List Expr → Outcome
  | [lhs, rhs] =>
    match lhs.asRow?, rhs.asRow? with
    | some lhs, some rhs =>
      if lhs.isEmpty || lhs.length != rhs.length then
        .declined (some ("row values of different lengths cannot be compared: " ++
          lhs.length.repr ++ " and " ++ rhs.length.repr))
      else .lowered (catalog.rowComparison op lhs rhs)
    | _, _ => .pass
  | _ => .pass

/-- The reverse of a string, stored like the string. -/
def lowerReverse : List Expr → Outcome
  | [value] =>
    .lowered (catalog.function
      { name := "reverse", nullable := true, propagates := [true], type := .string,
        mapping := value.mapping.or (some .text) } [value])
  | _ => .pass

end Catalog

/-- Lowers the functions that only exist in the database. -/
def Rule.databaseFunctions (catalog : Catalog) : Rule MethodCall where
  name := "pgtranslate::translator::db_functions::DbFunctionsTranslator"
  lower call :=
    match call.method with
    | .function .ilike => catalog.lowerIlike call.args
    | .function .reverse => catalog.lowerReverse call.args
    | .function .greaterThan => catalog.lowerRowComparison .gt call.args
    | .function .lessThan => catalog.lowerRowComparison .lt call.args
    | .function .greaterThanOrEqual => catalog.lowerRowComparison .ge call.args
    | .function .lessThanOrEqual => catalog.lowerRowComparison .le call.args
    | .toString | .other => .pass

end PgFragment

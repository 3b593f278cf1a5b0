import PgFragment.Expr.Basic
import PgFragment.Value.Shown

namespace PgFragment.Expr

/-!
# How messages show an expression

Every node with the names of all its fields, in one line.
-/

/-- A structure by its name and its fields. -/
def shownStructure (name : String) (fields : List (String × String)) : String :=
  let fields := fields.map fun (field, text) => field ++ ": " ++ text
  name ++ " \x7b " ++ String.intercalate ", " fields ++ " \x7d"

/-- A part that may be absent. -/
def shownOption : Option String → String
  | none => "None"
  | some text => "Some(" ++ text ++ ")"

/-- A truth value. -/
def shownBool (b : Bool) : String := if b then "true" else "false"

/-- The mapping of an expression, once it has one. -/
def shownMapping (mapping : Option Mapping) : String := shownOption (mapping.map Mapping.shown)

/-- The flags that say which arguments pass a null on. -/
def shownFlags (flags : List Bool) : String := Value.shownItems (flags.map shownBool)

mutual

/-- An expression as messages show it. -/
def shown (e : Expr) : String :=
  e.node.name ++ "(" ++ shownStructure ("Expr" ++ e.node.name) (shownFields e) ++ ")"

/-- The fields of an expression as messages show them. -/
def shownFields : Expr → List (String × String)
  | .aggregate c args distinct filter orderings => [
      ("name", Text.shown c.name), ("args", Value.shownItems (shownEach args)),
      ("source", shownStructure "AggregateSource" [
        ("distinct", shownBool distinct), ("predicate", shownOption (shownPart filter)),
        ("orderings", Value.shownItems (shownKeys orderings))]),
      ("nullable", shownBool c.nullable), ("args_propagate_nullability", shownFlags c.propagates),
      ("ty", c.type.shown), ("type_mapping", shownMapping c.mapping)]
  | .binary op lhs rhs m => [
      ("lhs", shown lhs), ("op", op.text), ("rhs", shown rhs),
      ("ty", (Expr.binary op lhs rhs m).type.shown), ("type_mapping", shownMapping m)]
  | .case operand whens otherwise m => [
      ("operand", shownOption (shownPart operand)),
      ("when_clauses", Value.shownItems (shownClauses whens)),
      ("else_result", shownOption (shownPart otherwise)),
      ("ty", (Expr.case operand whens otherwise m).type.shown), ("type_mapping", shownMapping m)]
  | .cast operand t m => [
      ("expr", shown operand), ("ty", t.shown), ("type_mapping", shownMapping m)]
  | .column col => [
      ("table", Text.shown col.table), ("name", Text.shown col.name), ("ty", col.type.shown),
      ("type_mapping", shownMapping col.mapping), ("nullable", shownBool col.nullable)]
  | .constant value m => [
      ("value", value.shown), ("ty", value.type.shown), ("type_mapping", shownMapping m)]
  | .func c args => [
      ("name", Text.shown c.name), ("args", Value.shownItems (shownEach args)),
      ("nullable", shownBool c.nullable), ("args_propagate_nullability", shownFlags c.propagates),
      ("ty", c.type.shown), ("type_mapping", shownMapping c.mapping)]
  | .jsonPath document steps asText t m => [
      ("expr", shown document), ("path", Value.shownItems (shownEach steps)),
      ("returns_text", shownBool asText), ("ty", t.shown), ("type_mapping", shownMapping m)]
  | .like subject pattern escape ignoreCase m => [
      ("expr", shown subject), ("pattern", shown pattern),
      ("escape", shownOption (shownPart escape)), ("case_insensitive", shownBool ignoreCase),
      ("type_mapping", shownMapping m)]
  | .not operand m => [("expr", shown operand), ("type_mapping", shownMapping m)]
  | .row values => [
      ("values", Value.shownItems (shownEach values)), ("ty", (Expr.row values).type.shown)]

/-- Each of several expressions as messages show it. -/
def shownEach : List Expr → List String
  | [] => []
  | e :: rest => shown e :: shownEach rest

/-- A part that may be absent as messages show it. -/
def shownPart : Option Expr → Option String
  | none => none
  | some e => some (shown e)

/-- Each clause as messages show it. -/
def shownClauses : List (Expr × Expr) → List String
  | [] => []
  | (test, result) :: rest =>
    shownStructure "CaseWhen" [("test", shown test), ("result", shown result)] ::
      shownClauses rest

/-- Each sort key as messages show it. -/
def shownKeys : List (Expr × Direction) → List String
  | [] => []
  | (key, direction) :: rest =>
    shownStructure "Ordering" [
      ("expr", shown key), ("ascending", shownBool (direction == .ascending))] :: shownKeys rest

end

end PgFragment.Expr

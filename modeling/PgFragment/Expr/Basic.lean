import PgFragment.Expr.Operator
import PgFragment.Mapping.Basic

namespace PgFragment

/-!
# Expressions

The expression part of a query.  Every expression has a host type and, once it is resolved, a
mapping that says how its value is stored.  The type of an operator, a `CASE`, a constant, a test
or a row follows from its parts; columns, calls, casts and JSON paths carry theirs.  A row has no
mapping of its own.
-/

/-- The direction of a sort key. -/
inductive Direction where
  | ascending
  | descending
  deriving DecidableEq

/-- A reference to a column of a table in the query. -/
structure Column where
  /-- The alias of the table; a column without one stands alone. -/
  table : String
  name : String
  type : HostType
  mapping : Option Mapping := none
  /-- The model lets the column be null. -/
  nullable : Bool := false
  deriving DecidableEq

/-- The name of a function or aggregate and what is known of its result. -/
structure Callee where
  name : String
  /-- The result may be null. -/
  nullable : Bool
  /-- For each argument, whether a null there makes the result null. -/
  propagates : List Bool
  type : HostType
  mapping : Option Mapping := none
  deriving DecidableEq

/-- A fragment of a query that has a value. -/
inductive Expr where
  /-- An aggregate over the rows of a group, which may skip repeated or unwanted rows and put them
  in order. -/
  | aggregate (callee : Callee) (args : List Expr) (distinct : Bool) (filter : Option Expr)
      (orderings : List (Expr × Direction))
  | binary (op : BinaryOp) (lhs rhs : Expr) (mapping : Option Mapping)
  /-- The result of the first clause whose test holds, or, with an operand, equals the operand. -/
  | case (operand : Option Expr) (whens : List (Expr × Expr)) (otherwise : Option Expr)
      (mapping : Option Mapping)
  | cast (operand : Expr) (type : HostType) (mapping : Option Mapping)
  | column (col : Column)
  | constant (value : Value) (mapping : Option Mapping)
  | func (callee : Callee) (args : List Expr)
  /-- A path into a JSON document; the value at its end may be taken as text. -/
  | jsonPath (document : Expr) (steps : List Expr) (asText : Bool) (type : HostType)
      (mapping : Option Mapping)
  | like (subject pattern : Expr) (escape : Option Expr) (ignoreCase : Bool)
      (mapping : Option Mapping)
  | not (operand : Expr) (mapping : Option Mapping)
  | row (values : List Expr)
  deriving Inhabited

namespace Expr

/-! ### Types -/

mutual

/-- The host type of an expression's value. -/
def type : Expr → HostType
  | .aggregate callee .. => callee.type
  | .binary op lhs rhs _ =>
    if op.isTest then .bool else if type lhs = .null then type rhs else type lhs
  | .case _ whens otherwise _ =>
    if resultType whens = .null then optionType otherwise else resultType whens
  | .cast _ t _ => t
  | .column col => col.type
  | .constant value _ => value.type
  | .func callee _ => callee.type
  | .jsonPath _ _ _ t _ => t
  | .like .. | .not .. => .bool
  | .row values => .record (types values)

/-- The type of the first result that is no untyped null. -/
def resultType : List (Expr × Expr) → HostType
  | [] => .null
  | (_, result) :: rest => if type result = .null then resultType rest else type result

/-- The type of an expression that may be absent. -/
def optionType : Option Expr → HostType
  | none => .null
  | some e => type e

/-- The type of each expression. -/
def types : List Expr → List HostType
  | [] => []
  | e :: rest => type e :: types rest

end

/-! ### Mappings -/

/-- The mapping of an expression, once it has one. -/
def mapping : Expr → Option Mapping
  | .aggregate callee .. | .func callee _ => callee.mapping
  | .column col => col.mapping
  | .binary _ _ _ mapping | .case _ _ _ mapping | .cast _ _ mapping | .constant _ mapping
  | .jsonPath _ _ _ _ mapping | .like _ _ _ _ mapping | .not _ mapping => mapping
  | .row _ => none

/-- The expression with another mapping; a row stays as it is. -/
def withMapping (mapping : Option Mapping) : Expr → Expr
  | .aggregate callee args distinct filter orderings =>
    .aggregate { callee with mapping } args distinct filter orderings
  | .binary op lhs rhs _ => .binary op lhs rhs mapping
  | .case operand whens otherwise _ => .case operand whens otherwise mapping
  | .cast operand type _ => .cast operand type mapping
  | .column col => .column { col with mapping }
  | .constant value _ => .constant value mapping
  | .func callee args => .func { callee with mapping } args
  | .jsonPath document steps asText type _ => .jsonPath document steps asText type mapping
  | .like subject pattern escape ignoreCase _ => .like subject pattern escape ignoreCase mapping
  | .not operand _ => .not operand mapping
  | .row values => .row values

/-! ### Kinds of nodes -/

/-- The kinds of expressions. -/
inductive Node where
  | aggregate
  | binary
  | case
  | cast
  | column
  | constant
  | func
  | jsonPath
  | like
  | not
  | row
  deriving DecidableEq

/-- The name of a kind of expression. -/
def Node.name : Node → String
  | .aggregate => "Aggregate"
  | .binary => "BinaryOp"
  | .case => "Case"
  | .cast => "Cast"
  | .column => "Column"
  | .constant => "Constant"
  | .func => "Func"
  | .jsonPath => "JsonTraversal"
  | .like => "Like"
  | .not => "Not"
  | .row => "RowValue"

/-- The kind of an expression. -/
def node : Expr → Node
  | .aggregate .. => .aggregate
  | .binary .. => .binary
  | .case .. => .case
  | .cast .. => .cast
  | .column _ => .column
  | .constant .. => .constant
  | .func .. => .func
  | .jsonPath .. => .jsonPath
  | .like .. => .like
  | .not .. => .not
  | .row _ => .row

/-! ### Constants and columns -/

/-- The untyped null. -/
def null : Expr := .constant .null none

/-- A constant null. -/
def isConstantNull : Expr → Bool
  | .constant value _ => value.isNull
  | _ => false

/-- A column that the model lets be null. -/
def isNullableColumn : Expr → Bool
  | .column col => col.nullable
  | _ => false

/-- A column that the model never lets be null; anything computed might be. -/
def isNonNullableColumn : Expr → Bool
  | .column col => !col.nullable
  | _ => false

/-- An application of one operator. -/
def isBinary (op : BinaryOp) : Expr → Bool
  | .binary o .. => o == op
  | _ => false

/-- The branches of a `CASE`, the last one counted when it is there. -/
def branchCount : Expr → Nat
  | .case _ whens otherwise _ => whens.length + otherwise.toList.length
  | _ => 0

/-- The values of a row. -/
def rowValues? : Expr → Option (List Expr)
  | .row values => some values
  | _ => none

/-- The path one step longer, when the expression is a path. -/
def extendPath? (e step : Expr) (asText : Bool) (type : HostType) (mapping : Option Mapping) :
    Option Expr :=
  match e with
  | .jsonPath document steps _ _ _ =>
    some (.jsonPath document (steps ++ [step]) asText type mapping)
  | _ => none

end Expr

end PgFragment

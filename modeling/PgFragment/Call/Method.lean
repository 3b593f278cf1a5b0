import PgFragment.Expr.Basic
import PgFragment.Failure.Cause

namespace PgFragment

/-!
# Method calls

The method calls that the host meets in a query.  A method is recognised by the type it is declared
on, its name and its number of arguments, once, when the call is met.
-/

/-- The type that a method is declared on. -/
inductive DeclaringType where
  /-- Methods that every value has. -/
  | object
  | string
  | dbFunctions
  | aggregateDbFunctions
  | other
  deriving DecidableEq

/-- Functions that only exist in the database. -/
inductive DbFunction where
  | ilike
  | reverse
  | greaterThan
  | lessThan
  | greaterThanOrEqual
  | lessThanOrEqual
  deriving DecidableEq

namespace DbFunction

/-- The name of the method. -/
def name : DbFunction → String
  | .ilike => "ILike"
  | .reverse => "Reverse"
  | .greaterThan => "GreaterThan"
  | .lessThan => "LessThan"
  | .greaterThanOrEqual => "GreaterThanOrEqual"
  | .lessThanOrEqual => "LessThanOrEqual"

/-- Every function. -/
def all : List DbFunction :=
  [.ilike, .reverse, .greaterThan, .lessThan, .greaterThanOrEqual, .lessThanOrEqual]

/-- The number of arguments is one that the function takes. -/
def takes : DbFunction → Nat → Bool
  | .ilike, n => n == 2 || n == 3
  | .reverse, n => n == 1
  | _, n => n == 2

/-- The failure of a function that is evaluated outside of a query. -/
def onClient (f : DbFunction) : Cause := .clientOnly f.name

end DbFunction

/-- A recognised method. -/
inductive Method where
  /-- The text of any value. -/
  | toString
  | function (f : DbFunction)
  | other
  deriving DecidableEq

namespace Method

/-- Recognises a method. -/
def resolve (declared : DeclaringType) (name : String) (arity : Nat) : Method :=
  if name = "ToString" ∧ arity = 0 then .toString
  else if declared = .dbFunctions then
    match DbFunction.all.find? fun f => f.name == name && f.takes arity with
    | some f => .function f
    | none => .other
  else .other

/-- A method as messages show it. -/
def shown : Method → String
  | .toString => "ToString"
  | .function f => "DbFunction(" ++ f.name ++ ")"
  | .other => "Other"

end Method

/-- A method call whose parts are expressions; a static method has no instance. -/
structure MethodCall where
  instance? : Option Expr
  method : Method
  args : List Expr

end PgFragment

namespace PgFragment

/-!
# Binary operators
-/

/-- An operator between two expressions. -/
inductive BinaryOp where
  | eq
  | ne
  | ge
  | gt
  | le
  | lt
  | and
  | or
  | add
  | subtract
  | modulo
  /-- The first of two values that is not null, written as a function. -/
  | coalesce
  deriving DecidableEq

namespace BinaryOp

/-- The operator as SQL writes it. -/
def text : BinaryOp → String
  | .eq => "="
  | .ne => "<>"
  | .ge => ">="
  | .gt => ">"
  | .le => "<="
  | .lt => "<"
  | .and => "AND"
  | .or => "OR"
  | .add => "+"
  | .subtract => "-"
  | .modulo => "%"
  | .coalesce => "COALESCE"

/-- Every operator. -/
def all : List BinaryOp :=
  [.eq, .ne, .ge, .gt, .le, .lt, .and, .or, .add, .subtract, .modulo, .coalesce]

/-- The operator with a given text. -/
def ofText? (s : String) : Option BinaryOp := all.find? (·.text == s)

/-- Operators that compare two values. -/
def isComparison : BinaryOp → Bool
  | .eq | .ne | .ge | .gt | .le | .lt => true
  | _ => false

/-- Operators on truth values. -/
def isLogical : BinaryOp → Bool
  | .and | .or => true
  | _ => false

/-- Operators whose result is a truth value. -/
def isTest (op : BinaryOp) : Bool := op.isComparison || op.isLogical

theorem ofText?_text (op : BinaryOp) : ofText? op.text = some op := by
  cases op <;> decide

end BinaryOp

end PgFragment

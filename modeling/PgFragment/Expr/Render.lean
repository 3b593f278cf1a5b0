import PgFragment.Expr.Basic
import PgFragment.Mapping.Literal
import PgFragment.Text.Identifier

namespace PgFragment

/-!
# Rendering

The SQL text of an expression.  The text of a node is put together from the texts of its parts, by
one function per kind of node; where parts fail, the one that is written first decides.

An operand of an operator stands in brackets when it is an operator itself.  `COALESCE` is written
as a function and needs none.  A JSON path counts as an operator, since a cast binds closer than
it, and so does a constant whose literal begins with a minus sign.

Redshift has no `FILTER`: there a filter is folded into the first argument, which becomes null for
the rows that are left out.
-/

/-- The dialects that fragments are written in. -/
inductive Flavor where
  | postgresql
  | redshift
  deriving DecidableEq

/-- The text of a fragment, or why it has none. -/
abbrev Rendered := Except Cause String

namespace Rendered

/-- The texts of several parts, or the first failure among them. -/
def all (parts : List Rendered) : Except Cause (List String) := parts.mapM id

/-- The parts between commas. -/
def commaSeparated (parts : List Rendered) : Rendered := (String.intercalate ", ") <$> all parts

/-- A part that may be absent, between an opening and a closing text. -/
def optional (opening : String) (part : Option Rendered) (closing : String := "") : Rendered :=
  match part with
  | none => .ok ""
  | some part => (opening ++ · ++ closing) <$> part

/-! ### Nodes -/

/-- Function notation. -/
def call (name : String) (args : List Rendered) : Rendered := do
  let args ← commaSeparated args
  .ok (name ++ "(" ++ args ++ ")")

/-- Two operands with an operator between them. -/
def joined (operator : String) (lhs rhs : Rendered) : Rendered := do
  let lhs ← lhs
  let rhs ← rhs
  .ok (lhs ++ operator ++ rhs)

/-- One clause of a `CASE`. -/
def clause (test result : Rendered) : Rendered := do
  let test ← test
  let result ← result
  .ok (" WHEN " ++ test ++ " THEN " ++ result)

/-- A `CASE`; the operand comes in brackets if it needs them. -/
def case (operand : Option Rendered) (clauses : List Rendered) (otherwise : Option Rendered) :
    Rendered := do
  let operand ← optional " " operand
  let clauses ← all clauses
  let otherwise ← optional " ELSE " otherwise
  .ok ("CASE" ++ operand ++ String.join clauses ++ otherwise ++ " END")

/-- A sort key. -/
def sortKey (key : Rendered) : Direction → Rendered
  | .ascending => key
  | .descending => (· ++ " DESC") <$> key

/-- The `ORDER BY` of an aggregate, if there are sort keys. -/
def orderBy (keys : List Rendered) : Rendered :=
  if keys.isEmpty then .ok "" else optional " ORDER BY " (some (commaSeparated keys))

/-- The arguments with a filter folded into the first. -/
def foldFilter (name : String) (filter : Rendered) : List Rendered → Except Cause (List Rendered)
  | [] => .error (.filterWithoutArguments name)
  | first :: rest => .ok (case none [clause filter first] none :: rest)

/-- An aggregate call. -/
def aggregate (flavor : Flavor) (name : String) (args : List Rendered) (distinct : Bool)
    (filter : Option Rendered) (keys : List Rendered) : Rendered := do
  -- The filter is either folded away or written behind the call, never both.
  let (args, filter) ← match flavor, filter with
    | .redshift, some filter => do .ok (← foldFilter name filter args, none)
    | _, filter => .ok (args, filter)
  let args ← commaSeparated args
  let keys ← orderBy keys
  let filter ← optional " FILTER (WHERE " filter ")"
  .ok (name ++ "(" ++ (if distinct then "DISTINCT " else "") ++ args ++ keys ++ ")" ++ filter)

/-- A path into a document; the last step may take the value as text. -/
def jsonPath (document : Rendered) (steps : List Rendered) (asText : Bool) : Rendered := do
  let document ← document
  let steps ← all steps
  let arrows := steps.mapIdx fun i step =>
    (if asText && i + 1 == steps.length then "->>" else "->") ++ step
  .ok (document ++ String.join arrows)

end Rendered

namespace Expr

/-- The kinds of expressions that stand in brackets as an operand. -/
def isOperator : Expr → Bool
  | .binary op .. => op != .coalesce
  | .jsonPath .. | .like .. | .not .. => true
  | _ => false

/-- The text of an expression as an operand. -/
def asOperand (e : Expr) (text : String) : String :=
  if e.isOperator || (e.node == .constant && text.toList.head? == some '-') then "(" ++ text ++ ")"
  else text

/-- The text of a constant: null needs no mapping. -/
def constantText (value : Value) : Option Mapping → Rendered
  | some mapping => mapping.literal value
  | none => if value.isNull then .ok "NULL" else .error (.constantWithoutMapping value)

/-- The text of a column. -/
def columnText (col : Column) : String :=
  (if col.table = "" then "" else Text.identifier col.table ++ ".") ++ Text.identifier col.name

mutual

/-- The SQL text of an expression. -/
def render (flavor : Flavor) : Expr → Rendered
  | .aggregate callee args distinct filter orderings =>
    .aggregate flavor callee.name (renderEach flavor args) distinct (renderOption flavor filter)
      (renderKeys flavor orderings)
  | .binary op lhs rhs _ =>
    if op = .coalesce then .call "COALESCE" [render flavor lhs, render flavor rhs]
    else
      .joined (" " ++ op.text ++ " ") (lhs.asOperand <$> render flavor lhs)
        (rhs.asOperand <$> render flavor rhs)
  | .case operand whens otherwise _ =>
    .case (renderOperand flavor operand) (renderClauses flavor whens)
      (renderOption flavor otherwise)
  | .cast operand type mapping =>
    match mapping with
    | none => .error (.castWithoutMapping type)
    | some mapping =>
      (· ++ "::" ++ mapping.storeType) <$> operand.asOperand <$> render flavor operand
  | .column col => .ok (columnText col)
  | .constant value mapping => constantText value mapping
  | .func callee args => .call callee.name (renderEach flavor args)
  | .jsonPath document steps asText _ _ =>
    .jsonPath (document.asOperand <$> render flavor document) (renderEach flavor steps) asText
  | .like subject pattern escape ignoreCase _ => do
    let test ← Rendered.joined (if ignoreCase then " ILIKE " else " LIKE ")
      (subject.asOperand <$> render flavor subject) (pattern.asOperand <$> render flavor pattern)
    let escape ← Rendered.optional " ESCAPE " (renderOption flavor escape)
    .ok (test ++ escape)
  | .not operand _ => ("NOT " ++ ·) <$> operand.asOperand <$> render flavor operand
  | .row values => .call "" (renderEach flavor values)

/-- The text of each expression. -/
def renderEach (flavor : Flavor) : List Expr → List Rendered
  | [] => []
  | e :: rest => render flavor e :: renderEach flavor rest

/-- The text of an expression that may be absent. -/
def renderOption (flavor : Flavor) : Option Expr → Option Rendered
  | none => none
  | some e => some (render flavor e)

/-- The text of an operand that may be absent. -/
def renderOperand (flavor : Flavor) : Option Expr → Option Rendered
  | none => none
  | some e => some (e.asOperand <$> render flavor e)

/-- The text of each clause. -/
def renderClauses (flavor : Flavor) : List (Expr × Expr) → List Rendered
  | [] => []
  | (test, result) :: rest =>
    .clause (render flavor test) (render flavor result) :: renderClauses flavor rest

/-- The text of each sort key. -/
def renderKeys (flavor : Flavor) : List (Expr × Direction) → List Rendered
  | [] => []
  | (key, direction) :: rest => .sortKey (render flavor key) direction :: renderKeys flavor rest

end

theorem renderEach_eq_map (flavor : Flavor) (es : List Expr) :
    renderEach flavor es = es.map (render flavor) := by
  induction es with
  | nil => rfl
  | cons e es ih => simp [renderEach, ih]

theorem renderOption_eq_map (flavor : Flavor) (e : Option Expr) :
    renderOption flavor e = e.map (render flavor) := by
  cases e <;> rfl

end Expr

end PgFragment

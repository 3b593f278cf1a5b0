import PgFragment.Expr.Basic
import PgFragment.Mapping.Catalog

namespace PgFragment

/-!
# Expressions with inferred mappings

Builders that give mappings to the parts that have none.  Parts that are combined share the first
mapping that any of them has, so that in `flag = false` the constant is written like the column;
where no part has one, each takes the default mapping of its own type.  A part that has a mapping
keeps it.
-/

/-- The rows that an aggregate runs over.  A selector that could not be put into SQL is absent. -/
structure RowSource where
  selector : Option Expr := none
  distinct : Bool := false
  filter : Option Expr := none
  orderings : List (Expr × Direction) := []

/-- The first mapping that any of the expressions has. -/
def firstMapping (es : List Expr) : Option Mapping := es.findSome? Expr.mapping

namespace Catalog

variable (catalog : Catalog)

/-! ### Giving a mapping -/

/-- Gives an expression without a mapping the default one of its type. -/
def applyDefault (e : Expr) : Expr :=
  if e.mapping.isSome || e.node == .row then e else e.withMapping (catalog.findByType e.type)

/-- Gives an expression without a mapping the one proposed, or else the default one. -/
def applyMapping (proposed : Option Mapping) (e : Expr) : Expr :=
  if e.mapping.isSome then e else
    match proposed with
    | some m => e.withMapping (some m)
    | none => catalog.applyDefault e

section Invariance

variable {α : Type} {view : Expr → α}

/-- What does not depend on the mapping of a node is not changed by a default one. -/
theorem applyDefault_of_withMapping (h : ∀ mapping e, view (e.withMapping mapping) = view e)
    (e : Expr) : view (catalog.applyDefault e) = view e := by
  unfold applyDefault
  split
  · rfl
  · exact h _ e

/-- Nor is it by one that is proposed. -/
theorem applyMapping_of_withMapping (h : ∀ mapping e, view (e.withMapping mapping) = view e)
    (proposed : Option Mapping) (e : Expr) : view (catalog.applyMapping proposed e) = view e := by
  unfold applyMapping
  split
  · rfl
  · split
    · exact h _ e
    · exact catalog.applyDefault_of_withMapping h e

end Invariance

/-! ### Builders -/

/-- A constant with the default mapping of its type. -/
def constant (value : Value) : Expr := catalog.applyDefault (.constant value none)

theorem constant_eq (value : Value) :
    catalog.constant value = .constant value (catalog.findByType value.type) := rfl

/-- A string constant. -/
def text (s : String) : Expr := catalog.constant (.string s)

/-- A binary operation whose operands share a mapping.  A test is stored as a truth value, any
other result like the operands. -/
def binary (op : BinaryOp) (lhs rhs : Expr) : Expr :=
  let shared := firstMapping [lhs, rhs]
  let lhs := catalog.applyMapping shared lhs
  let rhs := catalog.applyMapping shared rhs
  .binary op lhs rhs <|
    if op.isTest then catalog.findByType .bool
    else shared.or (lhs.mapping.or rhs.mapping)

/-- Equality. -/
def equal (lhs rhs : Expr) : Expr := catalog.binary .eq lhs rhs

/-- The first of two values that is not null. -/
def coalesce (lhs rhs : Expr) : Expr := catalog.binary .coalesce lhs rhs

/-- The comparison of two rows, each position sharing its own mapping. -/
def rowComparison (op : BinaryOp) (lhs rhs : List Expr) : Expr :=
  let pairs := lhs.zip rhs
  let side (pick : Expr × Expr → Expr) : List Expr :=
    pairs.map fun p => catalog.applyMapping (firstMapping [p.1, p.2]) (pick p)
  .binary op (.row (side (·.1))) (.row (side (·.2))) (catalog.findByType .bool)

/-- A `CASE` without an operand, whose results share a mapping. -/
def case (whens : List (Expr × Expr)) (otherwise : Option Expr) : Expr :=
  let shared := firstMapping (whens.map (·.2) ++ otherwise.toList)
  let whens := whens.map fun (test, result) =>
    (catalog.applyDefault test, catalog.applyMapping shared result)
  let e := Expr.case none whens (otherwise.map (catalog.applyMapping shared)) none
  e.withMapping (shared.or (catalog.findByType e.type))

/-- A cast; without a mapping of its own the target takes the default one. -/
def convert (e : Expr) (type : HostType) (mapping : Option Mapping) : Expr :=
  .cast (catalog.applyDefault e) type (mapping.or (catalog.findByType type))

/-- A function call. -/
def function (callee : Callee) (args : List Expr) : Expr :=
  .func callee (args.map catalog.applyDefault)

/-- An aggregate call over the rows of a source. -/
def aggregate (callee : Callee) (args : List Expr) (source : RowSource) : Expr :=
  .aggregate callee (args.map catalog.applyDefault) source.distinct source.filter source.orderings

/-- A match without regard to case. -/
def ilike (subject pattern : Expr) (escape : Option Expr) : Expr :=
  let shared := firstMapping [subject, pattern]
  .like (catalog.applyMapping shared subject) (catalog.applyMapping shared pattern)
    (escape.map (catalog.applyMapping shared)) true (catalog.findByType .bool)

/-- A path into a JSON document. -/
def jsonPath (document : Expr) (steps : List Expr) (asText : Bool) (type : HostType)
    (mapping : Option Mapping) : Expr :=
  .jsonPath document (steps.map catalog.applyDefault) asText type mapping

end Catalog

end PgFragment

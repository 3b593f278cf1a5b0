import PgFragment.Expr.Inferred

namespace PgFragment

/-!
# Expressions without mappings

What an expression says apart from how its values are stored.  `Expr.eraseMappings` takes the
mapping off every node; expressions that agree after that differ in mappings alone.

* `Expr.eraseMappings_withMapping` — a mapping makes no other difference to a node.
* `Catalog.eraseMappings_applyMapping` — nor does one that is inferred.
-/

namespace Expr

mutual

/-- The expression with no mapping at any node. -/
def eraseMappings : Expr → Expr
  | .aggregate callee args distinct filter orderings =>
    .aggregate { callee with mapping := none } (eraseMappingsEach args) distinct
      (eraseMappingsOption filter) (eraseMappingsKeys orderings)
  | .binary op lhs rhs _ => .binary op (eraseMappings lhs) (eraseMappings rhs) none
  | .case operand whens otherwise _ =>
    .case (eraseMappingsOption operand) (eraseMappingsClauses whens)
      (eraseMappingsOption otherwise) none
  | .cast operand type _ => .cast (eraseMappings operand) type none
  | .column col => .column { col with mapping := none }
  | .constant value _ => .constant value none
  | .func callee args => .func { callee with mapping := none } (eraseMappingsEach args)
  | .jsonPath document steps asText type _ =>
    .jsonPath (eraseMappings document) (eraseMappingsEach steps) asText type none
  | .like subject pattern escape ignoreCase _ =>
    .like (eraseMappings subject) (eraseMappings pattern) (eraseMappingsOption escape) ignoreCase
      none
  | .not operand _ => .not (eraseMappings operand) none
  | .row values => .row (eraseMappingsEach values)

/-- `eraseMappings` on each expression. -/
def eraseMappingsEach : List Expr → List Expr
  | [] => []
  | e :: rest => eraseMappings e :: eraseMappingsEach rest

/-- `eraseMappings` on an expression that may be absent. -/
def eraseMappingsOption : Option Expr → Option Expr
  | none => none
  | some e => some (eraseMappings e)

/-- `eraseMappings` on the tests and results of clauses. -/
def eraseMappingsClauses : List (Expr × Expr) → List (Expr × Expr)
  | [] => []
  | (test, result) :: rest =>
    (eraseMappings test, eraseMappings result) :: eraseMappingsClauses rest

/-- `eraseMappings` on sort keys. -/
def eraseMappingsKeys : List (Expr × Direction) → List (Expr × Direction)
  | [] => []
  | (key, direction) :: rest => (eraseMappings key, direction) :: eraseMappingsKeys rest

end

theorem eraseMappingsEach_eq_map (es : List Expr) :
    eraseMappingsEach es = es.map eraseMappings := by
  induction es with
  | nil => rfl
  | cons e es ih => simp [eraseMappingsEach, ih]

theorem eraseMappingsOption_eq_map (e : Option Expr) :
    eraseMappingsOption e = e.map eraseMappings := by
  cases e <;> rfl

theorem eraseMappingsClauses_eq_map (whens : List (Expr × Expr)) :
    eraseMappingsClauses whens = whens.map fun w => (eraseMappings w.1, eraseMappings w.2) := by
  induction whens with
  | nil => rfl
  | cons w whens ih => simp [eraseMappingsClauses, ih]

/-- The mapping of the node itself is erased, too. -/
theorem eraseMappings_withMapping (mapping : Option Mapping) (e : Expr) :
    (e.withMapping mapping).eraseMappings = e.eraseMappings := by
  cases e <;> simp only [withMapping, eraseMappings]

end Expr

namespace Catalog

variable (catalog : Catalog)

/-! ### Inference -/

theorem eraseMappings_applyDefault (e : Expr) :
    (catalog.applyDefault e).eraseMappings = e.eraseMappings :=
  catalog.applyDefault_of_withMapping Expr.eraseMappings_withMapping e

theorem eraseMappings_applyMapping (proposed : Option Mapping) (e : Expr) :
    (catalog.applyMapping proposed e).eraseMappings = e.eraseMappings :=
  catalog.applyMapping_of_withMapping Expr.eraseMappings_withMapping proposed e

end Catalog

end PgFragment

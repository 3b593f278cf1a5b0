import PgFragment.Expr.Basic

namespace PgFragment.Expr

/-!
# Equality of expressions

Two expressions are the same when they are so node by node, with the same types and mappings.
Constants are compared by what they denote (`Value.same`), so that an expression that holds a
pattern that is no number differs from itself.
-/

mutual

/-- Two expressions are the same. -/
def same : Expr → Expr → Bool
  | .aggregate c args distinct filter orderings, .aggregate c' args' distinct' filter' orderings' =>
    c == c' && sameEach args args' && distinct == distinct' && sameOption filter filter' &&
      sameKeys orderings orderings'
  | .binary op lhs rhs m, .binary op' lhs' rhs' m' =>
    op == op' && same lhs lhs' && same rhs rhs' && m == m'
  | .case operand whens otherwise m, .case operand' whens' otherwise' m' =>
    sameOption operand operand' && sameClauses whens whens' && sameOption otherwise otherwise' &&
      m == m'
  | .cast operand t m, .cast operand' t' m' => same operand operand' && t == t' && m == m'
  | .column col, .column col' => col == col'
  | .constant value m, .constant value' m' => value.same value' && m == m'
  | .func c args, .func c' args' => c == c' && sameEach args args'
  | .jsonPath document steps asText t m, .jsonPath document' steps' asText' t' m' =>
    same document document' && sameEach steps steps' && asText == asText' && t == t' && m == m'
  | .like subject pattern escape ignoreCase m, .like subject' pattern' escape' ignoreCase' m' =>
    same subject subject' && same pattern pattern' && sameOption escape escape' &&
      ignoreCase == ignoreCase' && m == m'
  | .not operand m, .not operand' m' => same operand operand' && m == m'
  | .row values, .row values' => sameEach values values'
  | _, _ => false

/-- Two lists of expressions are the same. -/
def sameEach : List Expr → List Expr → Bool
  | [], [] => true
  | e :: rest, e' :: rest' => same e e' && sameEach rest rest'
  | _, _ => false

/-- Two expressions that may be absent are the same. -/
def sameOption : Option Expr → Option Expr → Bool
  | none, none => true
  | some e, some e' => same e e'
  | _, _ => false

/-- Two lists of clauses are the same. -/
def sameClauses : List (Expr × Expr) → List (Expr × Expr) → Bool
  | [], [] => true
  | (test, result) :: rest, (test', result') :: rest' =>
    same test test' && same result result' && sameClauses rest rest'
  | _, _ => false

/-- Two lists of sort keys are the same. -/
def sameKeys : List (Expr × Direction) → List (Expr × Direction) → Bool
  | [], [] => true
  | (key, direction) :: rest, (key', direction') :: rest' =>
    same key key' && direction == direction' && sameKeys rest rest'
  | _, _ => false

end

end PgFragment.Expr

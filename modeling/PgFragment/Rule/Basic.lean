import PgFragment.Expr.Basic

namespace PgFragment

/-!
# Rules and registries

A rule offers an expression for some of the call sites that it is asked about and declines the
others.  A registry asks its rules in order, and the first one that offers an expression settles the
call.  Rules that are added go in front, so that they have the first refusal.

Declining is no failure.  A rule that recognises a call and still declines may leave a note.
-/

/-- The answer of a rule to a call site. -/
inductive Outcome where
  | lowered (e : Expr)
  | declined (note : Option String)

namespace Outcome

/-- The expression that is offered. -/
def expr? : Outcome → Option Expr
  | .lowered e => some e
  | .declined _ => none

/-- The note that is left. -/
def note? : Outcome → Option String
  | .lowered _ => none
  | .declined note => note

/-- Declines without a note. -/
def pass : Outcome := .declined none

end Outcome

/-- A way to lower some of the calls of one kind. -/
structure Rule (Call : Type) where
  name : String
  lower : Call → Outcome

/-- The rule that offers the same expression for every call, or declines them all. -/
def Rule.always {Call : Type} (name : String) (e : Option Expr) : Rule Call where
  name := name
  lower _ := match e with
    | some e => .lowered e
    | none => .pass

/-- Rules in the order in which they are asked. -/
abbrev Registry (Call : Type) := List (Rule Call)

namespace Registry

variable {Call : Type} (rules : Registry Call) (call : Call)

/-- The registry with more rules in front. -/
def add (newer : List (Rule Call)) : Registry Call := newer ++ rules

/-- The first rule that offers an expression, with what it offers. -/
def claim? : Option (Rule Call × Expr) :=
  rules.findSome? fun rule => (rule.lower call).expr?.map fun e => (rule, e)

/-- The expression for a call, if any rule offers one. -/
def lower : Option Expr := (rules.claim? call).map (·.2)

/-- The notes of the rules that decline before the call is settled. -/
def notes : List String :=
  (rules.takeWhile fun rule => (rule.lower call).expr?.isNone).filterMap fun rule =>
    (rule.lower call).note?

end Registry

end PgFragment

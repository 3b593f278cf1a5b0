import PgFragment.Call.Aggregate
import PgFragment.Call.Member
import PgFragment.Call.Method
import PgFragment.Expr.Render
import PgFragment.Rule.Basic

namespace PgFragment

/-!
# The journal of a registry

What is recorded when a registry is asked about a call: the notes of the rules that declined, and
then how the call was settled, with the PostgreSQL text of the expression.  The host sets up to
which level it wants records.
-/

/-- How much detail the host wants, and how much a record is. -/
inductive Level where
  | off
  | warn
  | info
  | debug
  | trace
  deriving DecidableEq

namespace Level

/-- The place of a level, from the least to the most detail. -/
def rank : Level → Nat
  | .off => 0
  | .warn => 1
  | .info => 2
  | .debug => 3
  | .trace => 4

/-- The name of a level. -/
def name : Level → String
  | .off => "OFF"
  | .warn => "WARN"
  | .info => "INFO"
  | .debug => "DEBUG"
  | .trace => "TRACE"

/-- A host that wants records up to `wanted` gets those of this level. -/
def isWithin (level wanted : Level) : Bool := level.rank ≤ wanted.rank

end Level

/-- The target under which records are filed. -/
def journalTarget : String := "pgtranslate::query"

/-- One line of the journal. -/
structure LogRecord where
  level : Level
  message : String
  deriving DecidableEq

/-- How records speak of the calls of one kind. -/
class CallSite (Call : Type) where
  /-- The call in a record that says how it was settled. -/
  label : Call → String
  /-- The record that no rule settles the call. -/
  unclaimed : Call → String

instance : CallSite MethodCall where
  label call := call.method.shown
  unclaimed call := "no translator for method call " ++ call.method.shown

instance : CallSite MemberAccess where
  label access := Text.shown access.member.name
  unclaimed access := "no translator for member `" ++ access.member.name ++ "`"

instance : CallSite AggregateCall where
  label call := call.method.shown
  unclaimed call := "no translator for aggregate call " ++ call.method.shown

namespace Registry

variable {Call : Type} [CallSite Call] (rules : Registry Call) (wanted : Level) (call : Call)

/-- The record of how a call was settled by a rule. -/
def settled (rule : Rule Call) (e : Expr) : LogRecord :=
  let start := rule.name ++ " translated " ++ CallSite.label call ++ " to "
  match e.render .postgresql with
  | .ok text => ⟨.debug, start ++ "`" ++ text ++ "`"⟩
  | .error cause => ⟨.warn, start ++ "an expression that cannot be rendered: " ++ cause.message⟩

/-- What is recorded of a call.  How it was settled is only recorded for a host that wants the debug
level, even where the record is a warning. -/
def journal : List LogRecord :=
  let outcome := match rules.claim? call with
    | none => [LogRecord.mk .trace (CallSite.unclaimed call)]
    | some (rule, e) => if Level.debug.isWithin wanted then [settled call rule e] else []
  let notes := (rules.notes call).map (LogRecord.mk .trace)
  (notes ++ outcome).filter (·.level.isWithin wanted)

end Registry

end PgFragment

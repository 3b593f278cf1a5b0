import PgFragment.Call.Member
import PgFragment.Expr.Inferred
import PgFragment.Rule.Basic
import PgFragment.Rule.Member

namespace PgFragment

/-!
# Members of JSON documents

Properties of documents stored as JSON, and the lengths of what is inside them.  Documents and
collections stay JSON; anything else is taken as text, and cast unless text is wanted.  Properties
of properties make one path.
-/

/-- Types whose values stay JSON inside a document. -/
def HostType.staysJson : HostType → Bool
  | .scalar .json | .array _ | .record _ => true
  | _ => false

namespace Catalog

variable (catalog : Catalog)

/-- Goes one step into a document.  A path whose end is still JSON is made longer; from anything
else a new path starts. -/
def stepInto (e step : Expr) (asText : Bool) (type : HostType) (mapping : Option Mapping) : Expr :=
  match e with
  | .jsonPath document steps false _ _ => .jsonPath document (steps ++ [step]) asText type mapping
  | _ => catalog.jsonPath e [step] asText type mapping

/-- A property of a document. -/
def jsonProperty (e : Expr) (name : String) (type : HostType) : Expr :=
  if type.staysJson then catalog.stepInto e (catalog.text name) false type e.mapping
  else
    let text := catalog.stepInto e (catalog.text name) true .string (some .text)
    if type = .string then text else catalog.convert text type none

/-- The length of a collection inside a document, or of a string at the end of a path, which is
taken as text first. -/
def lowerJsonLength (m : Mapping) (e : Expr) : Outcome :=
  match e, e.type with
  | .jsonPath document steps _ _ _, .scalar .string =>
    .lowered (catalog.function (.ofLength "length")
      [.jsonPath document steps true .string (some .text)])
  | e, .array _ | e, .scalar .json =>
    let name := if m.baseStoreType = "jsonb" then "jsonb_array_length" else "json_array_length"
    .lowered (catalog.function (.ofLength name) [e])
  | _, _ => .pass

end Catalog

/-- Lowers the members of documents stored as JSON. -/
def Rule.document (catalog : Catalog) : Rule MemberAccess where
  name := "pgtranslate::translator::json_poco::JsonPocoTranslator"
  lower access :=
    match access.instance? with
    | none => .pass
    | some e =>
      match e.mapping with
      | none => .pass
      | some m =>
        if m.kind.isJson then
          match access.member with
          | .property name => .lowered (catalog.jsonProperty e name access.returnType)
          | .length | .count => catalog.lowerJsonLength m e
          | _ => .pass
        else .pass

end PgFragment

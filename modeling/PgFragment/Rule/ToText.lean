import PgFragment.Call.Method
import PgFragment.Expr.Inferred
import PgFragment.Rule.Basic

namespace PgFragment

/-!
# Values as text

The text of a value, as the host would write it.  A truth value becomes a `CASE`; a type whose cast
to `text` gives what the host writes becomes that cast, and so does an enumeration that is stored as
one.
-/

/-! ### Castable types -/

/-- The types whose cast to `text` gives what the host writes, in the order they were given. -/
structure CastableTypes where
  types : List HostType
  deriving DecidableEq

namespace CastableTypes

/-- The table of given types, each kept once. -/
def ofList (types : List HostType) : CastableTypes := ⟨types.eraseDups⟩

variable (table : CastableTypes)

/-- The type is in the table. -/
def contains (type : HostType) : Bool := table.types.contains type

/-- The table with one more type. -/
def insert (type : HostType) : CastableTypes :=
  if table.contains type then table else ⟨table.types ++ [type]⟩

/-- Both tables hold the same types. -/
def sameSet (other : CastableTypes) : Bool :=
  table.types.all other.contains && other.types.all table.contains

/-- The table that a registry starts from. -/
def standard : CastableTypes := ofList [
  .int .i32, .int .i64, .scalar .dateTime, .scalar .uuid, .bool, .int .u8, .double,
  .scalar .dateTimeOffset, .scalar .char, .int .i16, .scalar .single, .scalar .decimal,
  .scalar .timeSpan, .int .u32, .int .u16, .int .u64, .int .i8]

end CastableTypes

/-! ### The rule -/

namespace Catalog

variable (catalog : Catalog)

/-- The text of a truth value.  A column that may be null is compared with both truth values, so
that null stays null; anything else that is not false counts as true. -/
def boolText (e : Expr) : Expr :=
  let clause (b : Bool) (text : String) : Expr × Expr :=
    (catalog.equal e (catalog.constant (.bool b)), catalog.text text)
  if e.isNullableColumn then
    catalog.case [clause false "False", clause true "True"] (some .null)
  else catalog.case [clause false "False"] (some (catalog.text "True"))

end Catalog

/-- The cast of the value to `text` gives what the host writes. -/
def CastableTypes.covers (table : CastableTypes) (e : Expr) : Bool :=
  table.contains e.type || (e.type.isEnum && e.mapping.any (·.kind.isEnum))

/-- Lowers the text of a value. -/
def Rule.toText (catalog : Catalog) (table : CastableTypes) : Rule MethodCall where
  name := "pgtranslate::translator::object_to_string::ObjectToStringTranslator"
  lower call :=
    match call.method, call.instance?, call.args with
    | .toString, some e, [] =>
      if e.type = .bool then .lowered (catalog.boolText e)
      else if table.covers e then .lowered (catalog.convert e .string (some .text))
      else .pass
    | _, _, _ => .pass

end PgFragment

import PgFragment.Call.Member
import PgFragment.Expr.Inferred
import PgFragment.Rule.Basic

namespace PgFragment

/-!
# Members of stored values

The lengths of arrays and strings, and the components of date-times and durations.  Members of
values inside JSON documents have a rule of their own.
-/

namespace Expr

/-- A value stored as an array; without a mapping, one whose type is an array. -/
def isStoredArray (e : Expr) : Bool :=
  match e.mapping with
  | some m => m.kind.isArray
  | none => e.type.isArray

end Expr

namespace Callee

/-- A function with a 32-bit result that is null where the argument is. -/
def ofLength (name : String) (propagates : List Bool := [true]) : Callee :=
  { name, nullable := true, propagates, type := .int .i32, mapping := some .integer }

/-- A function with a floating-point result. -/
def ofPart (name : String) (propagates : List Bool) : Callee :=
  { name, nullable := true, propagates, type := .double, mapping := some .doublePrecision }

end Callee

/-- The number one, as a constant of 32 bits. -/
def Value.one : Value := .int ⟨.i32, 1, by decide⟩

namespace Catalog

variable (catalog : Catalog)

/-- The number of items of an array; Redshift counts along the first dimension. -/
def arrayLength (redshift : Bool) (e : Expr) : Expr :=
  if redshift then
    catalog.function (.ofLength "array_length" [true, false]) [e, catalog.constant .one]
  else catalog.function (.ofLength "cardinality") [e]

/-- A field of a date-time or a duration, as a floating-point number. -/
def datePart (field : String) (e : Expr) : Expr :=
  catalog.function (.ofPart "date_part" [false, true]) [catalog.text field, e]

/-- The number without its fraction. -/
def floor (e : Expr) : Expr := catalog.function (.ofPart "floor" [true]) [e]

/-- The date of a date-time, at midnight. -/
def truncateToDay (e : Expr) : Expr :=
  catalog.function
    { name := "date_trunc", nullable := true, propagates := [false, true], type := e.type,
      mapping := e.mapping }
    [catalog.text "day", e]

end Catalog

namespace Rule

variable (catalog : Catalog)

/-- Lowers the length of an array. -/
def arrayLength (redshift : Bool) : Rule MemberAccess where
  name := "pgtranslate::translator::array::ArrayTranslator"
  lower access :=
    match access.instance?, access.member with
    | some e, .length | some e, .count =>
      if e.isStoredArray then .lowered (catalog.arrayLength redshift e) else .pass
    | _, _ => .pass

/-- Lowers the components of a date-time.  A second loses its fraction. -/
def dateTimeParts : Rule MemberAccess where
  name := "pgtranslate::translator::date_time::DateTimeMemberTranslator"
  lower access :=
    match access.instance? with
    | some e =>
      if e.type = .scalar .dateTime ∨ e.type = .scalar .dateTimeOffset then
        match access.member with
        | .datePart part =>
          let value := catalog.datePart part.field e
          let value := if part = .second then catalog.floor value else value
          .lowered (catalog.convert value (.int .i32) none)
        | .date => .lowered (catalog.truncateToDay e)
        | _ => .pass
      else .pass
    | none => .pass

/-- Lowers the length of a string. -/
def stringLength : Rule MemberAccess where
  name := "pgtranslate::translator::string_member::StringMemberTranslator"
  lower access :=
    match access.instance?, access.member with
    | some e, .length =>
      if e.type = .string then .lowered (catalog.function (.ofLength "length") [e]) else .pass
    | _, _ => .pass

/-- Lowers the components of a duration. -/
def timeSpanParts : Rule MemberAccess where
  name := "pgtranslate::translator::time_span::TimeSpanMemberTranslator"
  lower access :=
    match access.instance?, access.member with
    | some e, .spanPart part =>
      if e.type = .scalar .timeSpan then
        .lowered (catalog.convert (catalog.floor (catalog.datePart part.field e)) (.int .i32) none)
      else .pass
    | _, _ => .pass

end Rule

end PgFragment

import PgFragment.Text.Escape

namespace PgFragment

/-!
# Host types

The types of the values the host works with, as opposed to the store types in which a database
keeps them.  A type is one of the twenty scalars, a named enumeration, an array or range over a
type, a record, or the type of an untyped null.
-/

/-! ### Integers of a fixed width -/

/-- The integer types of the host. -/
inductive IntWidth where
  | i8 | i16 | i32 | i64 | u8 | u16 | u32 | u64
  deriving DecidableEq, Inhabited

namespace IntWidth

/-- The size in bits. -/
def bits : IntWidth → Nat
  | .i8 | .u8 => 8
  | .i16 | .u16 => 16
  | .i32 | .u32 => 32
  | .i64 | .u64 => 64

/-- The type holds negative numbers. -/
def isSigned : IntWidth → Bool
  | .i8 | .i16 | .i32 | .i64 => true
  | .u8 | .u16 | .u32 | .u64 => false

/-- The least number of the type. -/
def least (w : IntWidth) : Int := if w.isSigned then -(1 <<< (w.bits - 1) : Nat) else 0

/-- The greatest number of the type. -/
def greatest (w : IntWidth) : Int :=
  (1 <<< (if w.isSigned then w.bits - 1 else w.bits) : Nat) - 1

/-- The name of the type. -/
def name : IntWidth → String
  | .i8 => "I8"
  | .i16 => "I16"
  | .i32 => "I32"
  | .i64 => "I64"
  | .u8 => "U8"
  | .u16 => "U16"
  | .u32 => "U32"
  | .u64 => "U64"

/-- Every integer type. -/
def all : List IntWidth := [.i8, .i16, .i32, .i64, .u8, .u16, .u32, .u64]

end IntWidth

/-! ### Types -/

/-- The types that need no other type or name. -/
inductive ScalarType where
  | bool
  | char
  | int (width : IntWidth)
  | single
  | double
  | decimal
  | string
  | uuid
  | dateTime
  | dateTimeOffset
  | timeSpan
  | bytes
  | json
  deriving DecidableEq

/-- The name of a scalar type. -/
def ScalarType.name : ScalarType → String
  | .bool => "Bool"
  | .char => "Char"
  | .int width => width.name
  | .single => "F32"
  | .double => "F64"
  | .decimal => "Decimal"
  | .string => "String"
  | .uuid => "Uuid"
  | .dateTime => "DateTime"
  | .dateTimeOffset => "DateTimeOffset"
  | .timeSpan => "TimeSpan"
  | .bytes => "Bytes"
  | .json => "Json"

/-- Every scalar type. -/
def ScalarType.all : List ScalarType :=
  [.bool, .char] ++ IntWidth.all.map .int ++
    [.single, .double, .decimal, .string, .uuid, .dateTime, .dateTimeOffset, .timeSpan, .bytes,
      .json]

/-- The scalar type with a given name. -/
def ScalarType.ofName? (name : String) : Option ScalarType := all.find? (·.name == name)

/-- The type of a value in the host. -/
inductive HostType where
  | scalar (type : ScalarType)
  | enum (name : String)
  | array (element : HostType)
  | range (element : HostType)
  | record (fields : List HostType)
  /-- The type of an untyped null. -/
  | null

namespace HostType

/-- Truth values. -/
abbrev bool : HostType := .scalar .bool

/-- Strings. -/
abbrev string : HostType := .scalar .string

/-- Integers of a width. -/
abbrev int (width : IntWidth) : HostType := .scalar (.int width)

/-- Floating-point numbers of 64 bits. -/
abbrev double : HostType := .scalar .double

/-! ### Equality -/

mutual

/-- Decides whether two types are the same. -/
def decEq : (a b : HostType) → Decidable (a = b)
  | .scalar a, .scalar b => decidable_of_iff (a = b) (by simp)
  | .enum a, .enum b => decidable_of_iff (a = b) (by simp)
  | .array a, .array b => @decidable_of_iff _ (a = b) (by simp) (decEq a b)
  | .range a, .range b => @decidable_of_iff _ (a = b) (by simp) (decEq a b)
  | .record a, .record b => @decidable_of_iff _ (a = b) (by simp) (decEqList a b)
  | .null, .null => isTrue rfl
  | .scalar _, .enum _ | .scalar _, .array _ | .scalar _, .range _ | .scalar _, .record _
  | .scalar _, .null | .enum _, .scalar _ | .enum _, .array _ | .enum _, .range _
  | .enum _, .record _ | .enum _, .null | .array _, .scalar _ | .array _, .enum _
  | .array _, .range _ | .array _, .record _ | .array _, .null | .range _, .scalar _
  | .range _, .enum _ | .range _, .array _ | .range _, .record _ | .range _, .null
  | .record _, .scalar _ | .record _, .enum _ | .record _, .array _ | .record _, .range _
  | .record _, .null | .null, .scalar _ | .null, .enum _ | .null, .array _ | .null, .range _
  | .null, .record _ => isFalse (by simp)

/-- Decides whether two lists of types are the same. -/
def decEqList : (a b : List HostType) → Decidable (a = b)
  | [], [] => isTrue rfl
  | [], _ :: _ | _ :: _, [] => isFalse (by simp)
  | a :: as, b :: bs =>
    @decidable_of_iff _ (a = b ∧ as = bs) (by simp)
      (@instDecidableAnd _ _ (decEq a b) (decEqList as bs))

end

instance : DecidableEq HostType := decEq

/-! ### Views -/

/-- What an array or range is over. -/
def element? : HostType → Option HostType
  | .array element | .range element => some element
  | _ => none

/-- An enumeration. -/
def isEnum : HostType → Bool
  | .enum _ => true
  | _ => false

/-- An array. -/
def isArray : HostType → Bool
  | .array _ => true
  | _ => false

/-- A range. -/
def isRange : HostType → Bool
  | .range _ => true
  | _ => false

/-- A type of numbers. -/
def isNumeric : HostType → Bool
  | .scalar (.int _) | .scalar .single | .scalar .double | .scalar .decimal => true
  | _ => false

/-! ### How messages show a type -/

mutual

/-- A type as messages show it. -/
def shown : HostType → String
  | .scalar type => type.name
  | .enum name => "Enum(" ++ Text.shown name ++ ")"
  | .array element => "Array(" ++ shown element ++ ")"
  | .range element => "Range(" ++ shown element ++ ")"
  | .record fields => "Record([" ++ String.intercalate ", " (shownList fields) ++ "])"
  | .null => "Null"

/-- Each of several types as messages show it. -/
def shownList : List HostType → List String
  | [] => []
  | type :: rest => shown type :: shownList rest

end

end HostType

end PgFragment

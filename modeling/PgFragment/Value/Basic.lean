import PgFragment.Binary.Format
import PgFragment.Calendar.DateTime
import PgFragment.Calendar.Duration
import PgFragment.HostType
import PgFragment.Uuid

namespace PgFragment

/-!
# Host values

The values that expression trees carry as constants and that are bound as parameters.  Lists and
records nest.  A value knows its type except for what it does not carry: the label of an
enumeration does not name the enumeration, and a list without items that are not null is a list of
nulls.

`Value.same` is equality of what values denote: floating-point numbers as numbers and date-times
with an offset as points in time.  It is symmetric and transitive, and fails on a value itself when
that holds a pattern that is no number.
-/

/-- An integer with the width it is held in. -/
structure FixedInt where
  width : IntWidth
  val : Int
  inRange : width.least ≤ val ∧ val ≤ width.greatest
  deriving DecidableEq

/-- The integer of a width, if it is in range. -/
def FixedInt.of? (width : IntWidth) (val : Int) : Option FixedInt :=
  if h : width.least ≤ val ∧ val ≤ width.greatest then some ⟨width, val, h⟩ else none

/-- A value of the host. -/
inductive Value where
  | null
  | bool (b : Bool)
  | char (c : Char)
  | int (n : FixedInt)
  /-- A 32-bit floating-point number by its bits. -/
  | single (bits : UInt32)
  /-- A 64-bit floating-point number by its bits. -/
  | double (bits : UInt64)
  /-- A decimal number in its canonical text form. -/
  | decimal (text : String)
  | string (text : String)
  | uuid (id : Uuid)
  | dateTime (t : Calendar.DateTime)
  | dateTimeOffset (t : Calendar.OffsetDateTime)
  | timeSpan (d : Calendar.Duration)
  | bytes (data : List UInt8)
  /-- The label of an enumeration's value. -/
  | enum (label : String)
  | list (items : List Value)
  | record (fields : List Value)
  deriving Inhabited

namespace Value

/-! ### Views -/

/-- The untyped null. -/
def isNull : Value → Bool
  | .null => true
  | _ => false

theorem isNull_iff {v : Value} : v.isNull = true ↔ v = .null := by
  cases v <;> simp [isNull]

/-- The text of a string. -/
def asString? : Value → Option String
  | .string text => some text
  | _ => none

/-- The truth value. -/
def asBool? : Value → Option Bool
  | .bool b => some b
  | _ => none

/-! ### The type of a value -/

mutual

/-- The type that a value shows. -/
def type : Value → HostType
  | .null => .null
  | .bool _ => .scalar .bool
  | .char _ => .scalar .char
  | .int n => .scalar (.int n.width)
  | .single _ => .scalar .single
  | .double _ => .scalar .double
  | .decimal _ => .scalar .decimal
  | .string _ => .scalar .string
  | .uuid _ => .scalar .uuid
  | .dateTime _ => .scalar .dateTime
  | .dateTimeOffset _ => .scalar .dateTimeOffset
  | .timeSpan _ => .scalar .timeSpan
  | .bytes _ => .scalar .bytes
  | .enum _ => .enum ""
  | .list items => .array (itemType items)
  | .record fields => .record (types fields)

/-- The type of the first item that is not null. -/
def itemType : List Value → HostType
  | [] => .null
  | item :: rest => if item.isNull then itemType rest else type item

/-- The type of each value. -/
def types : List Value → List HostType
  | [] => []
  | field :: rest => type field :: types rest

end

/-! ### Equality -/

mutual

/-- Two values denote the same. -/
def same : Value → Value → Bool
  | .null, .null => true
  | .bool a, .bool b => a == b
  | .char a, .char b => a == b
  | .int a, .int b => a == b
  | .single a, .single b => Binary.single.sameNumber a.toNat b.toNat
  | .double a, .double b => Binary.double.sameNumber a.toNat b.toNat
  | .decimal a, .decimal b => a == b
  | .string a, .string b => a == b
  | .uuid a, .uuid b => a == b
  | .dateTime a, .dateTime b => a == b
  | .dateTimeOffset a, .dateTimeOffset b => a.instant == b.instant
  | .timeSpan a, .timeSpan b => a == b
  | .bytes a, .bytes b => a == b
  | .enum a, .enum b => a == b
  | .list a, .list b => sameList a b
  | .record a, .record b => sameList a b
  | _, _ => false

/-- Two lists of values denote the same, item by item. -/
def sameList : List Value → List Value → Bool
  | [], [] => true
  | a :: as, b :: bs => same a b && sameList as bs
  | _, _ => false

end

end Value

end PgFragment

import PgFragment.Binary.Notation
import PgFragment.Value.Basic

namespace PgFragment.Value

/-!
# How messages show a value

The kind of the value with its content in brackets, in one line.
-/

open Calendar Text

/-- Items between square brackets. -/
def shownItems (items : List String) : String := "[" ++ String.intercalate ", " items ++ "]"

/-- A date-time as messages show it. -/
def shownDateTime (t : DateTime) : String := String.ofList (t.text 'T')

/-- A date-time with its offset, whose seconds are kept. -/
def shownOffsetDateTime (t : OffsetDateTime) : String :=
  shownDateTime t.localTime ++ String.ofList t.offsetInFull

/-- A duration by its seconds and nanoseconds. -/
def shownDuration (d : Duration) : String :=
  "TimeDelta \x7b secs: " ++ signedDecimal d.seconds ++ ", nanos: " ++ signedDecimal d.nanos ++
    " \x7d"

mutual

/-- A value as messages show it. -/
def shown : Value → String
  | .null => "Null"
  | .bool b => "Bool(" ++ (if b then "true" else "false") ++ ")"
  | .char c => "Char(" ++ shownSingle c ++ ")"
  | .int n => n.width.name ++ "(" ++ signedDecimal n.val ++ ")"
  | .single bits => "F32(" ++ Binary.single.shown bits.toNat ++ ")"
  | .double bits => "F64(" ++ Binary.double.shown bits.toNat ++ ")"
  | .decimal text => "Decimal(" ++ Text.shown text ++ ")"
  | .string text => "String(" ++ Text.shown text ++ ")"
  | .uuid id => "Uuid(" ++ String.ofList id.text ++ ")"
  | .dateTime t => "DateTime(" ++ shownDateTime t ++ ")"
  | .dateTimeOffset t => "DateTimeOffset(" ++ shownOffsetDateTime t ++ ")"
  | .timeSpan d => "TimeSpan(" ++ shownDuration d ++ ")"
  | .bytes data => "Bytes(" ++ shownItems (data.map fun b => decimalString b.toNat) ++ ")"
  | .enum label => "Enum(" ++ Text.shown label ++ ")"
  | .list items => "List(" ++ shownItems (shownList items) ++ ")"
  | .record fields => "Record(" ++ shownItems (shownList fields) ++ ")"

/-- Each of several values as messages show it. -/
def shownList : List Value → List String
  | [] => []
  | value :: rest => shown value :: shownList rest

end

end PgFragment.Value

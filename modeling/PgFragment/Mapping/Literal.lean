import PgFragment.Binary.Notation
import PgFragment.Mapping.Basic
import PgFragment.Text.Quoted

namespace PgFragment

/-!
# Literals

Values as SQL literals of a store type.  Null is written alike under every mapping; any other value
has a literal only under the kinds that are meant for it.  Containers write their elements through
the element's mapping, so a container fails with the first element that has no literal.
-/

open Text

/-- Text between single quotes. -/
def quotedLiteral (s : String) : String := quotedString '\x27' s

/-- A floating-point number as a literal: the digits of a 64-bit number, or the quoted name of a
value that has none. -/
def floatLiteral (bits : Nat) (format : Binary.Format) : String :=
  match format.decode bits with
  | .nan => "'NaN'"
  | .infinite negative => if negative then "'-Infinity'" else "'Infinity'"
  | .finite negative m q =>
    let d : Binary.Decimal :=
      if m = 0 then ⟨0, 0⟩ else
        let (m, q) := Binary.double.align m q
        Binary.double.shortest m q
    (if negative then "-" else "") ++ String.ofList (d.positional [])

/-- Bytes in upper-case hexadecimal digits. -/
def upperHex (data : List UInt8) : List Char :=
  data.flatMap fun b => (hexadecimal 2 b.toNat).map Char.toUpper

/-- The literal of a value that is not null, under a kind that is meant for it. -/
def ScalarKind.literal? : ScalarKind → Value → Option String
  | .boolean, .bool b => some (if b then "TRUE" else "FALSE")
  | .integer, .int n | .numeric, .int n => some (signedDecimal n.val)
  | .numeric, .decimal digits => some digits
  | .float, .single bits => some (floatLiteral bits.toNat Binary.single ++ "::real")
  | .float, .double bits => some (floatLiteral bits.toNat Binary.double)
  | .text, .char c | .character, .char c => some (quotedLiteral (String.ofList [c]))
  | .text, .string s | .character, .string s | .regconfig, .string s => some (quotedLiteral s)
  | .uuid, .uuid id => some ("'" ++ String.ofList id.text ++ "'::uuid")
  | .timestamp, .dateTime t => some ("TIMESTAMP '" ++ String.ofList (t.text ' ') ++ "'")
  | .timestampTz, .dateTimeOffset t =>
    some ("TIMESTAMPTZ '" ++ String.ofList (t.localTime.text ' ' ++ t.offsetToMinute) ++ "'")
  | .date, .dateTime t => some ("DATE '" ++ String.ofList t.date.text ++ "'")
  | .interval, .timeSpan d => some ("INTERVAL '" ++ String.ofList d.intervalText ++ "'")
  | .bytea, .bytes data => some ("BYTEA E'\\\\x" ++ String.ofList (upperHex data) ++ "'")
  | .json, .string s => some (quotedLiteral s ++ "::json")
  | .jsonb, .string s => some (quotedLiteral s ++ "::jsonb")
  | .enum name, .enum label | .enum name, .string label =>
    some (quotedLiteral label ++ "::" ++ name)
  | _, _ => none

namespace Mapping

/-- A value as a literal of the mapping's store type. -/
def literal (m : Mapping) (value : Value) : Except Cause String :=
  if value.isNull then .ok "NULL" else
    match m, value with
    | .scalar kind params, value =>
      match kind.literal? value with
      | some text => .ok text
      | none => .error (.noLiteral value params.fullStoreType)
    | .container .array element params, .list items => do
      let texts ← items.mapM fun item => literal element item
      .ok ("ARRAY[" ++ String.intercalate "," texts ++ "]::" ++ params.fullStoreType)
    | .container .range element params, .record [lower, upper] => do
      let lower ← literal element lower
      let upper ← literal element upper
      .ok (params.fullStoreType ++ "(" ++ lower ++ ", " ++ upper ++ ")")
    | .container .multirange element params, .list items => do
      let texts ← items.mapM fun item => literal element item
      .ok (params.fullStoreType ++ "(" ++ String.intercalate ", " texts ++ ")")
    | .container _ _ params, value => .error (.noLiteral value params.fullStoreType)

theorem literal_of_isNull {value : Value} (h : value.isNull = true) (m : Mapping) :
    m.literal value = .ok "NULL" := by
  rw [literal.eq_def, if_pos h]

/-- A value that is not null is written as the kind of a scalar mapping has it. -/
theorem literal_of_kind {m : Mapping} {kind : ScalarKind} {value : Value} {text : String}
    (hm : m.kind = .scalar kind) (hv : value.isNull = false) (h : kind.literal? value = some text) :
    m.literal value = .ok text := by
  cases m with
  | container shape element params => cases hm
  | scalar k params =>
    obtain rfl : k = kind := Kind.scalar.inj hm
    simp [literal, hv, h]

end Mapping

end PgFragment

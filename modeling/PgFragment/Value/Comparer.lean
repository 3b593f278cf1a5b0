import PgFragment.Text.Blank
import PgFragment.Text.Escape
import PgFragment.Value.Basic

namespace PgFragment

/-!
# Comparers

How the values of a column are compared and hashed when changes are tracked and keys are looked
up.  Under the character rule strings are compared and hashed without their trailing blanks, since
the database pads them; strings inside lists and records are not touched by it.

A hash is computed from the bytes that a value feeds to it, so that two values have one hash as
soon as they feed the same bytes.
-/

/-! ### What a value feeds to a hash -/

/-- The lowest `count` bytes of a number, the lowest first. -/
def littleEndian : (count : Nat) → (n : Nat) → List UInt8
  | 0, _ => []
  | count + 1, n => UInt8.ofNat (n % 256) :: littleEndian count (n / 256)

/-- The lowest `count` bytes of a number in two's complement, the lowest first. -/
def littleEndianInt (count : Nat) (n : Int) : List UInt8 :=
  littleEndian count (n % (1 <<< (8 * count) : Nat)).toNat

/-- The bytes of a text and an end mark that no text holds. -/
def textFeed (s : String) : List UInt8 := s.toUTF8.toList ++ [0xFF]

namespace Value

/-- The number of the value's kind. -/
def tag : Value → Nat
  | .null => 0
  | .bool _ => 1
  | .char _ => 2
  | .int n =>
    match n.width with
    | .i8 => 3
    | .i16 => 4
    | .i32 => 5
    | .i64 => 6
    | .u8 => 7
    | .u16 => 8
    | .u32 => 9
    | .u64 => 10
  | .single _ => 11
  | .double _ => 12
  | .decimal _ => 13
  | .string _ => 14
  | .uuid _ => 15
  | .dateTime _ => 16
  | .dateTimeOffset _ => 17
  | .timeSpan _ => 18
  | .bytes _ => 19
  | .enum _ => 20
  | .list _ => 21
  | .record _ => 22

/-- A day and a time of day. -/
def clockFeed (day : Int) (seconds nanos : Nat) : List UInt8 :=
  littleEndianInt 4 day ++ littleEndian 4 seconds ++ littleEndian 4 nanos

mutual

/-- The tag of a value and then its content, with the length in front where that varies. -/
def feed (value : Value) : List UInt8 :=
  littleEndian 8 value.tag ++
    match value with
    | .null => []
    | .bool b => [if b then 1 else 0]
    | .char c => littleEndian 4 c.toNat
    | .int n => littleEndianInt (n.width.bits / 8) n.val
    | .single bits => littleEndian 4 (Binary.single.canonical bits.toNat)
    | .double bits => littleEndian 8 (Binary.double.canonical bits.toNat)
    | .decimal text => textFeed text
    | .string text => textFeed text
    | .enum label => textFeed label
    | .uuid id => (littleEndian 16 id.bits.toNat).reverse
    | .dateTime t => clockFeed t.date.dayNumber t.time.seconds t.time.nanos
    | .dateTimeOffset t =>
      clockFeed (t.instant.seconds / 86400) (t.instant.seconds % 86400).toNat t.instant.nanos
    | .timeSpan d => littleEndianInt 8 d.seconds ++ littleEndianInt 4 d.nanos
    | .bytes data => littleEndian 8 data.length ++ data
    | .list items => littleEndian 8 items.length ++ feedList items
    | .record fields => littleEndian 8 fields.length ++ feedList fields

/-- What several values feed, one after another. -/
def feedList : List Value → List UInt8
  | [] => []
  | value :: rest => feed value ++ feedList rest

end

end Value

/-! ### Comparers -/

/-- A rule for comparing the strings of a column. -/
inductive Comparer where
  /-- All characters count. -/
  | default
  /-- Trailing blanks do not count. -/
  | character
  deriving DecidableEq

namespace Comparer

/-- The name of a comparer. -/
def name : Comparer → String
  | .default => "default"
  | .character => "character"

/-- A comparer as messages show it. -/
def shown (c : Comparer) : String := "ValueComparer(" ++ Text.shown c.name ++ ")"

/-- The part of a string that counts. -/
def significant : Comparer → String → String
  | .default, s => s
  | .character, s => Text.trimEndString s

/-- Two values are equal in a column of this rule. -/
def equals (c : Comparer) : Value → Value → Bool
  | .string a, .string b => c.significant a == c.significant b
  | a, b => a.same b

/-- What a value of the column feeds to a hash; a string that stands alone feeds its text only. -/
def feed (c : Comparer) : Value → List UInt8
  | .string text => textFeed (c.significant text)
  | value => value.feed

end Comparer

end PgFragment

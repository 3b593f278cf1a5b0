import PgFragment.Options
import PgFragment.Text.Json

namespace PgFragment

/-!
# Options as a document

Options are read from JSON, as an object or as an array of the fields in order.  In an object a
known key may stand once, and other keys are passed over; in an array there may be no more items
than fields.  What is missing takes its default, except for the major number of a version.
-/

open Text

/-- The values of known keys, in the order of `keys`; none when a key denotes no text or a known key
stands twice. -/
def knownMembers? (keys : List String) (members : List (Option String × Json)) :
    Option (List (Option Json)) := do
  let members ← members.mapM fun (key, value) => key.map (·, value)
  keys.mapM fun key =>
    match members.filter (·.1 == key) with
    | [] => some none
    | [(_, value)] => some (some value)
    | _ => none

/-- The values of an array's items, with absent ones up to `count`; none when there are more. -/
def knownItems? (count : Nat) (items : List Json) : Option (List (Option Json)) :=
  if count < items.length then none
  else some (items.map some ++ List.replicate (count - items.length) none)

/-- The values of the fields of an object or array, in the order of `keys`. -/
def fields? (keys : List String) : Json → Option (List (Option Json))
  | .object members => knownMembers? keys members
  | .array items => knownItems? keys.length items
  | _ => none

/-- A number that 32 bits hold. -/
def word? : Json → Option UInt32
  | .number (some n) => if n < UInt32.size then some (UInt32.ofNat n) else none
  | _ => none

/-- A truth value. -/
def flag? : Json → Option Bool
  | .bool b => some b
  | _ => none

/-- Reads a field that may be absent. -/
def orDefault {α : Type} (default : α) (read : Json → Option α) : Option Json → Option α
  | none => some default
  | some value => read value

/-- Reads a version; the major number has to be given. -/
def Version.ofJson? (document : Json) : Option Version := do
  match ← fields? ["major", "minor"] document with
  | [some major, minor] => some ⟨← word? major, ← orDefault 0 word? minor⟩
  | _ => none

/-- Reads options. -/
def Options.ofJson? (document : Json) : Option Options := do
  match ← fields? ["postgres_version", "use_redshift"] document with
  | [version, redshift] =>
    some ⟨← orDefault Version.assumed Version.ofJson? version, ← orDefault false flag? redshift⟩
  | _ => none

/-- Reads options from text. -/
def Options.ofText? (text : String) : Option Options := (Json.parse? text).bind Options.ofJson?

end PgFragment

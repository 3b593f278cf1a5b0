import PgFragment.Failure.Cause

namespace PgFragment

/-!
# Failures with context

A failure is a cause, seen by the host under the contexts it has added.  The newest context is shown
first and the first cause last.  A context is itself a failure: it lends its newest cause, and what
it was caused by is not carried over.
-/

/-- A cause and what it was caused by, the newest first. -/
structure Failure where
  newest : Cause
  older : List Cause

namespace Failure

/-- A failure without context. -/
def ofCause (c : Cause) : Failure := ⟨c, []⟩

/-- Puts the newest cause of `consequent` in front of a failure. -/
def context (f consequent : Failure) : Failure := ⟨consequent.newest, f.newest :: f.older⟩

/-- Puts a consequent that the host still holds in front of a failure: only its wording is lent. -/
def sharedContext (f consequent : Failure) : Failure :=
  ⟨.stated consequent.newest.message, f.newest :: f.older⟩

/-- All causes, the newest first. -/
def causes (f : Failure) : List Cause := f.newest :: f.older

/-- The wordings of all causes, with colons between them. -/
def message (f : Failure) : String := String.intercalate ": " (f.causes.map Cause.message)

/-- The wording of the newest cause, when that lies outside of the library. -/
def source? (f : Failure) : Option String :=
  if f.newest.category = .foreign then some f.newest.message else none

/-! ### The outline of a failure -/

/-- How an outline names a cause: the kind, the structure and its fields. -/
structure Form where
  kind : String
  name : String
  fields : List (String × String)

/-- The form of a cause; those outside of the library have none. -/
def form? (c : Cause) : Option Form :=
  match c with
  | .invalidMapping storeType fault =>
    some ⟨"InvalidTypeMapping", "InvalidTypeMapping",
      [("store_type", storeType), ("message", fault.message)]⟩
  | .clientOnly function => some ⟨"FunctionOnClient", "FunctionOnClient", [("function", function)]⟩
  | .filterWithoutArguments aggregate =>
    some ⟨"UnsupportedFeature", "UnsupportedFeature", [("message", Cause.foldedFilter aggregate)]⟩
  | .unsupported feature =>
    some ⟨"UnsupportedFeature", "UnsupportedFeature", [("message", feature)]⟩
  | c =>
    if c.category = .foreign then none else some ⟨"Adhoc", "AdhocError", [("message", c.message)]⟩

/-- Lines of a group, one step to the right, between an opening and a closing line. -/
def grouped (opening : String) (lines : List String) (closing : String) : List String :=
  opening :: (lines.map ("    " ++ ·) ++ [closing])

/-- The lines of one cause, given the lines of what it was caused by. -/
def Form.lines (form : Form) (older : List String) (closing : String) : List String :=
  let fields := form.fields.map fun (field, text) => field ++ ": " ++ Text.shown text ++ ","
  grouped "Error \x7b"
    (grouped ("kind: " ++ form.kind ++ "(") (grouped (form.name ++ " \x7b") fields "\x7d,") ")," ++
      older)
    closing

/-- The lines of what a failure was caused by. -/
def olderLines? : List Cause → Option (List String)
  | [] => some ["cause: None,"]
  | c :: rest =>
    (form? c).bind fun form =>
      (olderLines? rest).map fun older => grouped "cause: Some(" (form.lines older "\x7d,") "),"

/-- The failure with its causes nested, line by line; none when a cause lies outside of the
library. -/
def outline? (f : Failure) : Option String :=
  (form? f.newest).bind fun form =>
    (olderLines? f.older).map fun older => String.intercalate "\n" (form.lines older "\x7d")

end Failure

end PgFragment

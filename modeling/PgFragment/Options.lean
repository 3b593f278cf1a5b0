namespace PgFragment

/-!
# Options

What the host says of the server that fragments are written for.  Redshift counts as an old server
and supports no version.
-/

/-- A server version. -/
structure Version where
  major : UInt32
  minor : UInt32
  deriving DecidableEq

namespace Version

/-- One version is the other or an earlier one. -/
def isAtMost (a b : Version) : Bool :=
  a.major < b.major || (a.major == b.major && a.minor ≤ b.minor)

/-- The two numbers with a point between them. -/
def text (v : Version) : String := v.major.toNat.repr ++ "." ++ v.minor.toNat.repr

/-- The version that is assumed when none is given. -/
def assumed : Version := ⟨16, 0⟩

end Version

/-- The server that fragments are written for. -/
structure Options where
  version : Version := Version.assumed
  redshift : Bool := false
  deriving DecidableEq

/-- The server has what came with `version`. -/
def Options.supports (o : Options) (version : Version) : Bool :=
  !o.redshift && version.isAtMost o.version

end PgFragment

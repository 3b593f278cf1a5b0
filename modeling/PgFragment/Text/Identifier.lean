import PgFragment.Text.Quoted

namespace PgFragment.Text

/-!
# Identifiers

A name stands bare when it is a plain lower-case name and no reserved word; any other name is
written between double quotes.
-/

/-- The words that cannot stand bare as the name of a column or table. -/
def reservedWords : List String := [
  "all", "analyse", "analyze", "and", "any", "array", "as", "asc", "asymmetric",
  "authorization", "binary", "both", "case", "cast", "check", "collate", "collation", "column",
  "concurrently", "constraint", "create", "cross", "current_catalog", "current_date",
  "current_role", "current_schema", "current_time", "current_timestamp", "current_user",
  "default", "deferrable", "desc", "distinct", "do", "else", "end", "except", "false", "fetch",
  "for", "foreign", "freeze", "from", "full", "grant", "group", "having", "ilike", "in",
  "initially", "inner", "intersect", "into", "is", "isnull", "join", "lateral", "leading",
  "left", "like", "limit", "localtime", "localtimestamp", "natural", "not", "notnull", "null",
  "offset", "on", "only", "or", "order", "outer", "overlaps", "placing", "primary",
  "references", "returning", "right", "select", "session_user", "similar", "some", "symmetric",
  "system_user", "table", "tablesample", "then", "to", "trailing", "true", "union", "unique",
  "user", "using", "variadic", "verbose", "when", "where", "window", "with"]

/-- A lower-case ASCII letter or an underscore. -/
def isNameStart (c : Char) : Bool := c.isLower || c == '_'

/-- A character that may stand bare after the first. -/
def isNamePart (c : Char) : Bool := isNameStart c || c.isDigit

/-- A plain lower-case name, reserved or not. -/
def isLowerName (name : String) : Bool :=
  match name.toList with
  | [] => false
  | c :: rest => isNameStart c && rest.all isNamePart

/-- A name that may stand bare. -/
def isPlainName (name : String) : Bool := isLowerName name && !reservedWords.contains name

/-- A name as SQL writes it. -/
def identifier (name : String) : String :=
  if isPlainName name then name else quotedString '"' name

end PgFragment.Text

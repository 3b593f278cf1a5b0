import PgFragment.Expr.Basic

namespace PgFragment

/-!
# Member accesses

The members that the host reads in a query, recognised by name.  A name that is no known member is
a property, such as one inside a JSON document.
-/

/-- A component of a date and time. -/
inductive DatePart where
  | year
  | month
  | day
  | hour
  | minute
  | second
  | dayOfYear
  | dayOfWeek
  deriving DecidableEq

namespace DatePart

/-- The name of the member. -/
def name : DatePart → String
  | .year => "Year"
  | .month => "Month"
  | .day => "Day"
  | .hour => "Hour"
  | .minute => "Minute"
  | .second => "Second"
  | .dayOfYear => "DayOfYear"
  | .dayOfWeek => "DayOfWeek"

/-- The field that `date_part` is asked for. -/
def field : DatePart → String
  | .year => "year"
  | .month => "month"
  | .day => "day"
  | .hour => "hour"
  | .minute => "minute"
  | .second => "second"
  | .dayOfYear => "doy"
  | .dayOfWeek => "dow"

/-- Every component. -/
def all : List DatePart := [.year, .month, .day, .hour, .minute, .second, .dayOfYear, .dayOfWeek]

end DatePart

/-- A component of a duration. -/
inductive SpanPart where
  | days
  | hours
  | minutes
  | seconds
  deriving DecidableEq

namespace SpanPart

/-- The name of the member. -/
def name : SpanPart → String
  | .days => "Days"
  | .hours => "Hours"
  | .minutes => "Minutes"
  | .seconds => "Seconds"

/-- The field that `date_part` is asked for. -/
def field : SpanPart → String
  | .days => "day"
  | .hours => "hour"
  | .minutes => "minute"
  | .seconds => "second"

/-- Every component. -/
def all : List SpanPart := [.days, .hours, .minutes, .seconds]

end SpanPart

/-- A recognised member. -/
inductive Member where
  /-- The length of a string or array. -/
  | length
  /-- The number of items of a collection. -/
  | count
  | datePart (part : DatePart)
  /-- The date of a date and time, at midnight. -/
  | date
  | spanPart (part : SpanPart)
  | property (name : String)
  deriving DecidableEq

namespace Member

/-- The name of a member where it is accessed. -/
def name : Member → String
  | .length => "Length"
  | .count => "Count"
  | .datePart part => part.name
  | .date => "Date"
  | .spanPart part => part.name
  | .property name => name

/-- Every member that has a name of its own. -/
def named : List Member :=
  [.length, .count, .date] ++ DatePart.all.map .datePart ++ SpanPart.all.map .spanPart

/-- Recognises a member. -/
def resolve (name : String) : Member :=
  (named.find? (·.name == name)).getD (.property name)

/-- The field that `date_part` is asked for, where the member is a component. -/
def field? : Member → Option String
  | .datePart part => some part.field
  | .spanPart part => some part.field
  | _ => none

/-- A member as messages show it. -/
def shown : Member → String
  | .datePart part => "DatePart(" ++ part.name ++ ")"
  | .spanPart part => "TimeSpanPart(" ++ part.name ++ ")"
  | .property name => "Property(" ++ Text.shown name ++ ")"
  | m => m.name

end Member

/-- An access to a member; a static member has no instance. -/
structure MemberAccess where
  instance? : Option Expr
  member : Member
  /-- The type of the member's value. -/
  returnType : HostType

end PgFragment

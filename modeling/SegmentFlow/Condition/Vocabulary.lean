/-!
# The words of a condition

Operators and collections are open: a word outside the known ones is kept as it is. The other
vocabularies are closed, and `ofName?` finds the word of a name, if there is one.
-/

namespace SegmentFlow

/-- The comparison that a condition asks for. -/
inductive Operator where
  | equals
  | notEquals
  | greaterThan
  | lessThan
  | greaterEqual
  | lessEqual
  | contains
  | notContains
  | dateBefore
  | dateAfter
  | dateBetween
  | dateNotBetween
  | isEmpty
  | isNotEmpty
  | other (name : String)
  deriving DecidableEq

namespace Operator

def known : List Operator :=
  [equals, notEquals, greaterThan, lessThan, greaterEqual, lessEqual, contains, notContains,
    dateBefore, dateAfter, dateBetween, dateNotBetween, isEmpty, isNotEmpty]

def name : Operator → String
  | equals => "equals"
  | notEquals => "not_equals"
  | greaterThan => "greater_than"
  | lessThan => "less_than"
  | greaterEqual => "greater_equal"
  | lessEqual => "less_equal"
  | contains => "contains"
  | notContains => "not_contains"
  | dateBefore => "date_before"
  | dateAfter => "date_after"
  | dateBetween => "date_between"
  | dateNotBetween => "date_not_between"
  | isEmpty => "is_empty"
  | isNotEmpty => "is_not_empty"
  | other name => name

/-- The known operator of that name, or else the name itself as an operator. -/
def ofName (s : String) : Operator :=
  (known.find? fun o => o.name = s).getD (other s)

/-- Operators that ask whether there is a value at all, and so take none. -/
def isUnary : Operator → Bool
  | isEmpty | isNotEmpty => true
  | _ => false

/-- How the operator reads in a summary. -/
def symbol : Operator → String
  | equals => "="
  | notEquals => "!="
  | greaterThan => ">"
  | lessThan => "<"
  | greaterEqual => ">="
  | lessEqual => "<="
  | contains => "contains"
  | notContains => "does not contain"
  | dateBefore => "before"
  | dateAfter => "after"
  | dateBetween => "between"
  | dateNotBetween => "not between"
  | isEmpty => "is empty"
  | isNotEmpty => "is not empty"
  | other name => name

end Operator

/-- A group of data that a field belongs to. -/
inductive Collection where
  | contacts
  | orders
  | pointHistories
  | products
  | other (name : String)
  deriving DecidableEq

namespace Collection

def known : List Collection :=
  [contacts, orders, pointHistories, products]

def name : Collection → String
  | contacts => "contacts"
  | orders => "orders"
  | pointHistories => "point_histories"
  | products => "products"
  | other name => name

/-- The known collection of that name, or else a collection of its own. -/
def ofName (s : String) : Collection :=
  (known.find? fun c => c.name = s).getD (other s)

end Collection

/-- How a condition is joined to the one before it. -/
inductive Connective where
  | and
  | or
  deriving DecidableEq

namespace Connective

def all : List Connective := [and, or]

def name : Connective → String
  | and => "AND"
  | or => "OR"

def ofName? (s : String) : Option Connective :=
  all.find? fun c => c.name = s

end Connective

/-- The unit of a period counted back from today. -/
inductive PeriodUnit where
  | days
  | weeks
  | months
  | years
  deriving DecidableEq

namespace PeriodUnit

def all : List PeriodUnit := [days, weeks, months, years]

def name : PeriodUnit → String
  | days => "days"
  | weeks => "weeks"
  | months => "months"
  | years => "years"

def singular : PeriodUnit → String
  | days => "day"
  | weeks => "week"
  | months => "month"
  | years => "year"

def ofName? (s : String) : Option PeriodUnit :=
  all.find? fun u => u.name = s

end PeriodUnit

/-- How the date of a condition is meant. -/
inductive DateType where
  | today
  | specific
  | relative
  | range
  | anniversary
  deriving DecidableEq

namespace DateType

def all : List DateType := [today, specific, relative, range, anniversary]

def name : DateType → String
  | today => "today"
  | specific => "specific"
  | relative => "relative"
  | range => "range"
  | anniversary => "anniversary"

def ofName? (s : String) : Option DateType :=
  all.find? fun t => t.name = s

end DateType

inductive FieldType where
  | text
  | number
  | date
  | select
  deriving DecidableEq

namespace FieldType

def all : List FieldType := [text, number, date, select]

def name : FieldType → String
  | text => "text"
  | number => "number"
  | date => "date"
  | select => "select"

def ofName? (s : String) : Option FieldType :=
  all.find? fun t => t.name = s

end FieldType

end SegmentFlow

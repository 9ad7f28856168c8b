import SegmentFlow.Json.Basic
/-!
# Clauses and filters

A clause says one thing about one field, and a filter holds the clauses of a query in one of three
forms. `toJson` writes each form in the grammar of the store.
-/

namespace SegmentFlow.Query

inductive Comparison where
  | notEqual
  | greaterThan
  | lessThan
  | greaterEqual
  | lessEqual
  | like
  | notLike
  | between
  | notBetween
  deriving DecidableEq

namespace Comparison

def all : List Comparison :=
  [notEqual, greaterThan, lessThan, greaterEqual, lessEqual, like, notLike, between, notBetween]

def symbol : Comparison → String
  | notEqual => "!="
  | greaterThan => ">"
  | lessThan => "<"
  | greaterEqual => ">="
  | lessEqual => "<="
  | like => "like"
  | notLike => "not like"
  | between => "between"
  | notBetween => "not between"

def ofSymbol? (s : String) : Option Comparison :=
  all.find? fun c => c.symbol = s

end Comparison

/-- A part of a date that is compared with the current one. -/
inductive DatePart where
  | currentDay
  | currentMonth
  deriving DecidableEq

namespace DatePart

def all : List DatePart := [currentDay, currentMonth]

def name : DatePart → String
  | currentDay => "current_day"
  | currentMonth => "current_month"

def ofName? (s : String) : Option DatePart :=
  all.find? fun p => p.name = s

end DatePart

inductive Predicate where
  /-- The field has the value; null asks for an empty field. -/
  | equals (value : Json)
  | compare (comparison : Comparison) (operand : Json)
  | occurs (part : DatePart)
  deriving DecidableEq

def Predicate.toJson : Predicate → Json
  | equals value => value
  | compare comparison operand => .obj [(comparison.symbol, operand)]
  | occurs part => .obj [(part.name, .bool true)]

structure Clause where
  field : String
  predicate : Predicate
  deriving DecidableEq

def Clause.toJson (c : Clause) : Json :=
  .obj [(c.field, c.predicate.toJson)]

/-- A `where` or a `having` part. -/
inductive Filter where
  | clause (c : Clause)
  /-- One flat object, in which a field that comes again keeps its first place and takes its last
  predicate. -/
  | merged (cs : List Clause)
  | and (cs : List Clause)
  deriving DecidableEq

namespace Filter

/-- One clause stands alone, several are joined by `and`, and none make no filter. -/
def ofClauses? : List Clause → Option Filter
  | [] => none
  | [c] => some (clause c)
  | cs => some (and cs)

def clauses : Filter → List Clause
  | clause c => [c]
  | merged cs => cs
  | and cs => cs

/-- The clauses with `c` put in: in the place of the clause on the same field, or else last. -/
def put (c : Clause) : List Clause → List Clause
  | [] => [c]
  | d :: ds => if d.field = c.field then c :: ds else d :: put c ds

/-- One clause for each field, in the order of the first clauses and with the predicates of the
last ones. -/
def flatten (cs : List Clause) : List Clause :=
  cs.foldl (fun flat c => put c flat) []

def toJson : Filter → Json
  | clause c => c.toJson
  | merged cs => .obj ((flatten cs).map fun c => (c.field, c.predicate.toJson))
  | and cs => .obj [("and", .arr (cs.map Clause.toJson))]

end Filter

end SegmentFlow.Query

import SegmentFlow.Condition.Vocabulary
import SegmentFlow.Json.Printer
/-!
# Conditions

A condition is one predicate over a field. What only some conditions have, such as the period of a
relative date or the options of a selection, stands with the kind of field that has it.
-/

namespace SegmentFlow

/-- What a field is compared with, as it was entered. -/
inductive ConditionValue where
  | number (n : Number)
  | text (s : String)
  deriving DecidableEq

namespace ConditionValue

def text? : ConditionValue → Option String
  | text s => some s
  | number _ => none

def isBlank (v : ConditionValue) : Bool :=
  v = text ""

def toTree {ε : Type} : ConditionValue → Tree ε
  | number n => .num n
  | text s => .str s

def display : ConditionValue → String
  | number n => n.text
  | text s => s

end ConditionValue

/-- The two ends of a span of dates. -/
structure Bounds where
  first : String
  last : String
  deriving DecidableEq

def Bounds.display (b : Bounds) : String :=
  b.first ++ " - " ++ b.last

inductive DateRule where
  | today
  | specific
  | relative (count : UInt32) (unit : PeriodUnit)
  | range (bounds : Bounds)
  | anniversary
  deriving DecidableEq

namespace DateRule

def type : DateRule → DateType
  | today => .today
  | specific => .specific
  | relative .. => .relative
  | range _ => .range
  | anniversary => .anniversary

def bounds? : DateRule → Option Bounds
  | range b => some b
  | _ => none

end DateRule

inductive FieldKind where
  | text
  | number
  | date (rule : DateRule)
  | select (options : List String)
  deriving DecidableEq

namespace FieldKind

def type : FieldKind → FieldType
  | text => .text
  | number => .number
  | date _ => .date
  | select _ => .select

def dateRule? : FieldKind → Option DateRule
  | date rule => some rule
  | _ => none

end FieldKind

structure Condition where
  id : String
  dataSource : Option String
  collection : Option Collection
  field : String
  kind : FieldKind
  operator : Operator
  value : ConditionValue
  connective : Option Connective
  /-- Bounds that do not belong to a range of dates, for a field of any kind. -/
  betweenBounds : Option Bounds
  deriving DecidableEq

namespace Condition

/-- The bounds that a between operator compares with: those of a range of dates, or else those that
the condition has besides. -/
def rangeBounds? (c : Condition) : Option Bounds :=
  (c.kind.dateRule?.bind DateRule.bounds?).or c.betweenBounds

/-- The condition asks whether today is an anniversary of the field. -/
def isAnniversary (c : Condition) : Bool :=
  c.kind = .date .anniversary && c.operator = .equals && c.value = .text "anniversary"

/-! ### Summaries -/

def isBetween (c : Condition) : Bool :=
  c.operator = .dateBetween || c.operator = .dateNotBetween

/-- What the field is compared with, as a summary tells it. -/
def comparand (c : Condition) : String :=
  match c.kind.dateRule?, c.rangeBounds?, c.isBetween with
  | some (.range b), _, _ => b.display
  | _, some b, true => b.display
  | some _, none, true => "date range"
  | some (.relative count unit), _, _ =>
    toString count ++ " " ++ (if count = 1 then unit.singular else unit.name) ++ " ago"
  | _, _, _ => c.value.display

/-- One line that tells a reader what the condition asks for. -/
def summary (c : Condition) : String :=
  if c.operator.isUnary then c.field ++ " " ++ c.operator.symbol
  else if c.kind = .date .anniversary then c.field ++ " is anniversary"
  else c.field ++ " " ++ c.operator.symbol ++ " " ++ c.comparand

end Condition

end SegmentFlow

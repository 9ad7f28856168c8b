import SegmentFlow.Condition.Basic
import SegmentFlow.Query.Clause
import SegmentFlow.Text.Uppercase
/-!
# From a condition to its clauses

Every condition has a clause: an operator that is not known asks for equality. The field of the
clause is given apart from the condition, since a condition on an aggregate is keyed by the
aggregate.
-/

namespace SegmentFlow

open Query (Clause Predicate)

/-- The field whose values are stored in upper case. -/
def genderField : String := "gender"

/-- What the store takes for the current date. -/
def currentDate : String := "CURRENT_DATE()"

namespace ConditionValue

def toUppercase : ConditionValue → Json
  | text s => .str (uppercase s)
  | number n => .num n

/-- The pattern of the texts that contain the value. -/
def likePattern (v : ConditionValue) : Json :=
  .str ("%" ++ v.display ++ "%")

end ConditionValue

def Bounds.toJson (b : Bounds) : Json :=
  .arr [.str b.first, .str b.last]

namespace Condition

/-- What a condition says of the field that it is keyed by. -/
def predicate (key : String) (c : Condition) : Predicate :=
  let value : Json := c.value.toTree
  match c.operator with
  | .equals => .equals (if key = genderField then c.value.toUppercase else value)
  | .notEquals => .compare .notEqual value
  | .greaterThan =>
    if key = genderField ∧ c.value.text?.isSome then .equals c.value.toUppercase
    else .compare .greaterThan value
  | .lessThan => .compare .lessThan value
  | .greaterEqual => .compare .greaterEqual value
  | .lessEqual => .compare .lessEqual value
  | .contains => .compare .like c.value.likePattern
  | .notContains => .compare .notLike c.value.likePattern
  | .dateBefore => .compare .lessThan value
  | .dateAfter =>
    .compare .greaterThan (if c.value = .text "today" then .str currentDate else value)
  | .dateBetween =>
    match c.rangeBounds? with
    | some b => .compare .between b.toJson
    | none => .equals value
  | .dateNotBetween =>
    match c.rangeBounds? with
    | some b => .compare .notBetween b.toJson
    | none => .compare .notEqual value
  | .isEmpty => .equals .null
  | .isNotEmpty => .compare .notEqual .null
  | .other _ => .equals value

def clause (key : String) (c : Condition) : Clause :=
  ⟨key, c.predicate key⟩

/-- The clauses of a condition: one, except that an anniversary is told by its day and its
month. -/
def clauses (key : String) (c : Condition) : List Clause :=
  if c.isAnniversary then [⟨key, .occurs .currentDay⟩, ⟨key, .occurs .currentMonth⟩]
  else [c.clause key]

end Condition

end SegmentFlow

import SegmentFlow.Condition.Basic
import SegmentFlow.Json.Reading
import SegmentFlow.Json.Writing
/-!
# Conditions on the wire

Conditions are exchanged and stored as flat records, in which every member that only some
conditions have is optional. `Condition.ofWire` keeps the members that apply and drops the rest;
`Condition.toWire` writes them back.
-/

namespace SegmentFlow

/-- The flat record of a condition. -/
structure WireCondition where
  id : String
  dataSource : Option String
  collection : Option Collection
  field : String
  fieldType : FieldType
  operator : Operator
  value : ConditionValue
  selectOptions : Option (List String)
  connective : Option Connective
  dateType : Option DateType
  periodCount : Option UInt32
  periodUnit : Option PeriodUnit
  dateFrom : Option String
  dateTo : Option String
  deriving DecidableEq

namespace WireCondition

/-- Both bounds, if neither is missing or empty. -/
def bounds? (w : WireCondition) : Option Bounds :=
  match w.dateFrom, w.dateTo with
  | some first, some last => if first = "" ∨ last = "" then none else some ⟨first, last⟩
  | _, _ => none

/-- A range without both of its bounds is taken for a specific date; bounds without a date type
make a range. -/
def dateRule (w : WireCondition) : DateRule :=
  match w.dateType, w.bounds? with
  | some .today, _ => .today
  | some .specific, _ => .specific
  | some .anniversary, _ => .anniversary
  | some .relative, _ => .relative (w.periodCount.getD 1) (w.periodUnit.getD .days)
  | some .range, some b => .range b
  | none, some b => .range b
  | _, none => .specific

def kind (w : WireCondition) : FieldKind :=
  match w.fieldType with
  | .text => .text
  | .number => .number
  | .date => .date w.dateRule
  | .select => .select (w.selectOptions.getD [])

/-- A range was asked for without both of its bounds. -/
def lacksBound (w : WireCondition) : Bool :=
  w.fieldType = .date && w.dateType = some .range && w.bounds? = none

end WireCondition

namespace Condition

/-- The condition that a record stands for. An empty collection is none, and bounds that no range
of dates took up stay beside it. -/
def ofWire (w : WireCondition) : Condition where
  id := w.id
  dataSource := w.dataSource
  collection := w.collection.filter fun c => c.name ≠ ""
  field := w.field
  kind := w.kind
  operator := w.operator
  value := w.value
  connective := w.connective
  betweenBounds := if (w.kind.dateRule?.bind DateRule.bounds?).isSome then none else w.bounds?

/-- `ofWire`, telling of a bound that is missing. -/
def ofWireTraced (w : WireCondition) : Traced Condition :=
  ⟨ofWire w, if w.lacksBound then [.boundMissing w.id] else []⟩

/-- The record of a condition. Bounds beside a range of dates take the place of its own. -/
def toWire (c : Condition) : WireCondition :=
  let bounds := c.betweenBounds.or (c.kind.dateRule?.bind DateRule.bounds?)
  { id := c.id
    dataSource := c.dataSource
    collection := c.collection
    field := c.field
    fieldType := c.kind.type
    operator := c.operator
    value := c.value
    selectOptions :=
      match c.kind with
      | .select options => some options
      | _ => none
    connective := c.connective
    dateType := c.kind.dateRule?.map DateRule.type
    periodCount :=
      match c.kind with
      | .date (.relative count _) => some count
      | _ => none
    periodUnit :=
      match c.kind with
      | .date (.relative _ unit) => some unit
      | _ => none
    dateFrom := bounds.map Bounds.first
    dateTo := bounds.map Bounds.last }

end Condition

/-! ### As trees -/

variable {ε : Type}

namespace ConditionValue

/-- A number or a text. Whatever stands there is read to its end first. -/
def read [Origin ε] : Shape ε ConditionValue := fun t =>
  (Shape.anything t).bind fun
    | .num n => Reading.pure (number n)
    | .str s => Reading.pure (text s)
    | _ => Reading.fail .shape

end ConditionValue

namespace WireCondition

def toTree (w : WireCondition) : Tree ε :=
  .obj <|
    ("id", .str w.id)
    :: optionalMember "data_source" .str w.dataSource
    ++ optionalMember "collection" (fun c => .str c.name) w.collection
    ++ ("field", .str w.field)
    :: ("field_type", .str w.fieldType.name)
    :: ("operator", .str w.operator.name)
    :: ("value", w.value.toTree)
    :: optionalMember "select_options" Tree.ofTexts w.selectOptions
    ++ optionalMember "logical_operator" (fun c => .str c.name) w.connective
    ++ optionalMember "date_type" (fun d => .str d.name) w.dateType
    ++ optionalMember "period_number" (fun n => .ofNat n.toNat) w.periodCount
    ++ optionalMember "period_unit" (fun u => .str u.name) w.periodUnit
    ++ optionalMember "date_from" .str w.dateFrom
    ++ optionalMember "date_to" .str w.dateTo

/-- The members of a record as far as they have been read. -/
structure Draft where
  id : Option String
  dataSource : Option String
  collection : Option Collection
  field : Option String
  fieldType : Option FieldType
  operator : Option Operator
  value : ConditionValue
  selectOptions : Option (List String)
  connective : Option Connective
  dateType : Option DateType
  periodCount : Option UInt32
  periodUnit : Option PeriodUnit
  dateFrom : Option String
  dateTo : Option String

def Draft.start : Draft where
  id := none
  dataSource := none
  collection := none
  field := none
  fieldType := none
  operator := none
  value := .text ""
  selectOptions := none
  connective := none
  dateType := none
  periodCount := none
  periodUnit := none
  dateFrom := none
  dateTo := none

def Draft.finish (d : Draft) : Option WireCondition := do
  let id ← d.id
  let field ← d.field
  let fieldType ← d.fieldType
  let operator ← d.operator
  return { d with id, field, fieldType, operator }

def fields [Origin ε] : List (Field ε Draft) :=
  [ .of "id" Shape.text fun v d => { d with id := some v },
    .of "data_source" (Shape.optional Shape.text) fun v d => { d with dataSource := v },
    .of "collection" (Shape.optional Shape.text) fun v d =>
      { d with collection := v.map Collection.ofName },
    .of "field" Shape.text fun v d => { d with field := some v },
    .of "field_type" (Shape.oneOf FieldType.ofName?) fun v d => { d with fieldType := some v },
    .of "operator" Shape.text fun v d => { d with operator := some (Operator.ofName v) },
    .of "value" ConditionValue.read fun v d => { d with value := v },
    .of "select_options" (Shape.optional (Shape.list Shape.text)) fun v d =>
      { d with selectOptions := v },
    .of "logical_operator" (Shape.optional (Shape.oneOf Connective.ofName?)) fun v d =>
      { d with connective := v },
    .of "date_type" (Shape.optional (Shape.oneOf DateType.ofName?)) fun v d =>
      { d with dateType := v },
    .of "period_number" (Shape.optional Shape.word) fun v d => { d with periodCount := v },
    .of "period_unit" (Shape.optional (Shape.oneOf PeriodUnit.ofName?)) fun v d =>
      { d with periodUnit := v },
    .of "date_from" (Shape.optional Shape.text) fun v d => { d with dateFrom := v },
    .of "date_to" (Shape.optional Shape.text) fun v d => { d with dateTo := v } ]

def read [Origin ε] : Shape ε WireCondition :=
  Shape.record fields Draft.start Draft.finish

end WireCondition

namespace Condition

def toTree (c : Condition) : Tree ε :=
  c.toWire.toTree

/-- A condition, telling of a bound that is missing. -/
def read [Origin ε] : Shape ε Condition := fun t =>
  (WireCondition.read t).bind fun w =>
    let c := ofWireTraced w
    ⟨.ok c.value, c.events⟩

end Condition

end SegmentFlow

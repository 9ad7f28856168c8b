import SegmentFlow.Json.Basic
/-!
# The trace of what happened

Some steps are worth telling about even though they do not show in a result: a condition that was
left out, a connection that was refused. They are recorded as events, in the order in which they
happened; `Traced α` is a value with the events of computing it.
-/

namespace SegmentFlow

inductive Event where
  /-- A date condition asks for a range but lacks one of its bounds. -/
  | boundMissing (conditionId : String)
  /-- A condition belongs to a collection that no part of a query is made for. -/
  | conditionSkipped (conditionId collection field : String)
  /-- The join that adds up expiring points took the place of a plain one. -/
  | expiringJoinReplaces (collection : String)
  /-- A query was put together. -/
  | queryAssembled (conditions joins : Nat) (query : String)
  | connectionRejected (source target reason : String)
  | connectionAdded (edgeId : String)
  deriving DecidableEq

namespace Event

inductive Level where
  | debug
  | warning
  deriving DecidableEq

def Level.name : Level → String
  | debug => "DEBUG"
  | warning => "WARN"

def level : Event → Level
  | boundMissing _ | conditionSkipped .. => .warning
  | _ => .debug

def message : Event → String
  | boundMissing _ => "range condition is missing a bound; treating it as a specific date"
  | conditionSkipped .. => "No assembly path for collection; condition skipped"
  | expiringJoinReplaces _ => "Expiring-points sub-query replaces the aggregate join"
  | queryAssembled .. => "Assembled query document"
  | connectionRejected .. => "Connection rejected"
  | connectionAdded _ => "Connection added"

def fields : Event → List (String × Json)
  | boundMissing id => [("condition_id", .str id)]
  | conditionSkipped id collection field =>
    [("condition_id", .str id), ("collection", .str collection), ("field", .str field)]
  | expiringJoinReplaces collection => [("collection", .str collection)]
  | queryAssembled conditions joins query =>
    [("conditions", .num (.integer conditions)), ("joins", .num (.integer joins)),
      ("query", .str query)]
  | connectionRejected source target reason =>
    [("source", .str source), ("target", .str target), ("reason", .str reason)]
  | connectionAdded id => [("edge_id", .str id)]

/-- An event as one JSON object. -/
def toJson (e : Event) : Json :=
  .obj (("level", .str e.level.name) :: ("message", .str e.message) :: e.fields)

end Event

/-- A value and the events of computing it. -/
structure Traced (α : Type) where
  value : α
  events : List Event

namespace Traced

variable {α β : Type}

def map (f : α → β) (x : Traced α) : Traced β :=
  ⟨f x.value, x.events⟩

instance : Monad Traced where
  pure a := ⟨a, []⟩
  bind x f := ⟨(f x.value).value, x.events ++ (f x.value).events⟩

end Traced

end SegmentFlow

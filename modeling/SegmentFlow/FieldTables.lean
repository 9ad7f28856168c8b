import SegmentFlow.Condition.Vocabulary
/-!
# Which collection a field belongs to

Tables of fields are consulted in order. At each table its collection wins if the condition names
that collection or the table lists the field; a field that no table settles belongs to the
collection that the condition names, or else to the fallback.
-/

namespace SegmentFlow

/-- A total way to find the collection of a field, given the one that its condition names. -/
abbrev Resolver := String → Option Collection → Collection

structure FieldTables where
  tables : List (Collection × List String)
  fallback : Collection

namespace FieldTables

/-- The collection of the first table that lists the field. -/
def owner? (t : FieldTables) (field : String) : Option Collection :=
  (t.tables.find? fun table => field ∈ table.2).map Prod.fst

/-- An empty name counts as no collection. -/
def resolve (t : FieldTables) : Resolver := fun field named =>
  let named := named.filter fun c => c.name ≠ ""
  match t.tables.find? fun table => named = some table.1 || field ∈ table.2 with
  | some table => table.1
  | none => named.getD t.fallback

/-- The collection of a field whose condition names none. -/
def classify (t : FieldTables) (field : String) : Collection :=
  t.resolve field none

def contactFields : List String :=
  ["user_id", "first_name", "last_name", "email", "phone", "point_balance", "points_balance",
    "status", "created_date", "gender", "id_card", "id"]

def orderFields : List String :=
  ["net_amount", "grand_total", "order_date", "order_status", "quantity", "discount_amount", "id"]

def pointHistoryFields : List String :=
  ["point", "points", "transaction_date", "transaction_type", "expire_date", "expiring_points"]

/-- The tables in use unless others are given. -/
def standard : FieldTables where
  tables :=
    [(.contacts, contactFields), (.orders, orderFields), (.pointHistories, pointHistoryFields)]
  fallback := .contacts

end FieldTables

end SegmentFlow

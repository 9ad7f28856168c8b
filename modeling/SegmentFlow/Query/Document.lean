import SegmentFlow.Json.Printer
import SegmentFlow.Json.Writing
import SegmentFlow.Query.Clause
/-!
# Query documents

A document is a query against one collection, in which the joined collections stand as further
members beside the parts of the query itself. `Joins` keeps them in the order in which their
collections came first.
-/

namespace SegmentFlow.Query

/-- The columns without repetitions, each in its first place. -/
def uniqueColumns (columns : List String) : List String :=
  columns.foldl (fun seen c => if c ∈ seen then seen else seen ++ [c]) []

/-- The part of a query that reads a joined collection. -/
structure JoinEntry where
  select : List String
  filter : Option Filter
  groupBy : Option (List String)
  having : Option Filter
  /-- The columns that are equal on both sides, as `local:foreign`. -/
  join : String
  deriving DecidableEq

namespace JoinEntry

def on (columns : List String) (localKey foreignKey : String) : JoinEntry where
  select := uniqueColumns columns
  filter := none
  groupBy := none
  having := none
  join := localKey ++ ":" ++ foreignKey

def withGroupBy (entry : JoinEntry) (columns : List String) : JoinEntry :=
  { entry with groupBy := some (uniqueColumns columns) }

def toJson (entry : JoinEntry) : Json :=
  .obj <|
    ("select", Tree.ofTexts entry.select)
    :: optionalMember "where" Filter.toJson entry.filter
    ++ optionalMember "group_by" Tree.ofTexts entry.groupBy
    ++ optionalMember "having" Filter.toJson entry.having
    ++ [("join", .str entry.join)]

end JoinEntry

/-- Joined collections by name, in the order of their first insertion. -/
structure Joins where
  entries : List (String × JoinEntry)
  deriving DecidableEq

namespace Joins

def empty : Joins := ⟨[]⟩

def get? (joins : Joins) (name : String) : Option JoinEntry :=
  joins.entries.lookup name

def contains (joins : Joins) (name : String) : Bool :=
  (joins.get? name).isSome

/-- Puts an entry under a name, in the place of the one that was there, or else last; the entry that
was there comes out. -/
def putEntry (name : String) (entry : JoinEntry) :
    List (String × JoinEntry) → List (String × JoinEntry) × Option JoinEntry
  | [] => ([(name, entry)], none)
  | e :: es =>
    if e.1 = name then ((e.1, entry) :: es, some e.2)
    else
      let (es, replaced) := putEntry name entry es
      (e :: es, replaced)

/-- The joins with `entry` under `name`, and the entry that it replaces. -/
def insert (joins : Joins) (name : String) (entry : JoinEntry) : Joins × Option JoinEntry :=
  let (entries, replaced) := putEntry name entry joins.entries
  (⟨entries⟩, replaced)

def size (joins : Joins) : Nat :=
  joins.entries.length

end Joins

structure CollectionQuery where
  select : List String
  filter : Option Filter
  groupBy : Option (List String)
  having : Option Filter
  joins : Joins
  deriving DecidableEq

namespace CollectionQuery

def selecting (columns : List String) : CollectionQuery where
  select := uniqueColumns columns
  filter := none
  groupBy := none
  having := none
  joins := .empty

def toJson (q : CollectionQuery) : Json :=
  .obj <|
    ("select", Tree.ofTexts q.select)
    :: optionalMember "where" Filter.toJson q.filter
    ++ optionalMember "group_by" Tree.ofTexts q.groupBy
    ++ optionalMember "having" Filter.toJson q.having
    ++ q.joins.entries.map fun (name, entry) => (name, entry.toJson)

end CollectionQuery

structure Document where
  collection : String
  query : CollectionQuery
  deriving DecidableEq

namespace Document

def toJson (d : Document) : Json :=
  .obj [(d.collection, d.query.toJson)]

def text (d : Document) : String :=
  d.toJson.compact

end Document

end SegmentFlow.Query

import SegmentFlow.Compile.Clause
import SegmentFlow.Compile.Settings
import SegmentFlow.FieldTables
import SegmentFlow.Query.Document
import SegmentFlow.Trace
/-!
# From conditions to a query document

Conditions on contacts become `where` clauses. Those on orders and on point histories become
`having` clauses over a sum, for which their collection is joined; a condition on the date on which
points expire instead makes a join that adds up the expiring points, and that join wins over a
plain one. The limit to one merchant is always the last `where` clause.
-/

namespace SegmentFlow.Compile

open Query (Clause CollectionQuery Document Filter JoinEntry Joins)

/-- What a compilation depends on besides the conditions. -/
structure Assembler where
  settings : Settings
  resolve : Resolver

def Assembler.standard : Assembler where
  settings := .standard
  resolve := FieldTables.standard.resolve

/-- The field of point histories whose conditions ask for expiring points. -/
def expireDateField : String := "expire_date"

/-- The least sum of points that counts as expiring. No condition changes it. -/
def expiringPointsThreshold : Nat := 1000

/-- The sum of a field over a joined collection. -/
def aggregate (collection : Collection) (field : String) : String :=
  "SUM(" ++ collection.name ++ "." ++ field ++ ")"

namespace Assembler

def key (a : Assembler) : String :=
  a.settings.keyColumn

def merchantClause (a : Assembler) : Clause :=
  ⟨"merchant_id", .equals (.str a.settings.merchantId)⟩

def ordersJoin (a : Assembler) (field : String) : JoinEntry :=
  .on ["SUM(" ++ field ++ ") as " ++ field] a.key a.key

def pointsJoin (a : Assembler) (field : String) : JoinEntry :=
  .on [aggregate .pointHistories field ++ " as " ++ field ++ "s"] a.key a.key

/-- The join that adds up expiring points. -/
def expiringJoin (a : Assembler) (c : Condition) : JoinEntry :=
  { (JoinEntry.on ["SUM(point_histories.point) as expiring_points"] a.key a.key).withGroupBy
      [a.key] with
    filter := some (.and [c.clause c.field])
    having := some (.clause ⟨"sum", .compare .greaterThan (.ofNat expiringPointsThreshold)⟩) }

end Assembler

/-- What has been gathered from the conditions so far. -/
structure Assembly where
  whereClauses : List Clause
  havingClauses : List Clause
  joins : Joins
  /-- A sum is compared, so that the query has to group. -/
  needsAggregation : Bool
  /-- The join of point histories adds up expiring points. -/
  expiring : Bool
  events : List Event
  deriving DecidableEq

namespace Assembly

def empty : Assembly := ⟨[], [], .empty, false, false, []⟩

/-- Adds a join unless the collection has one. -/
def join (s : Assembly) (collection : Collection) (entry : JoinEntry) : Assembly :=
  if s.joins.contains collection.name then s
  else { s with joins := (s.joins.insert collection.name entry).1 }

/-- Adds the join that adds up expiring points, in place of any other. -/
def joinExpiring (s : Assembly) (collection : Collection) (entry : JoinEntry) : Assembly :=
  { s with
    joins := (s.joins.insert collection.name entry).1
    expiring := true
    events :=
      if s.joins.contains collection.name && !s.expiring then
        s.events ++ [.expiringJoinReplaces collection.name]
      else s.events }

/-- Adds the clause of a condition over a sum. -/
def having (s : Assembly) (collection : Collection) (c : Condition) : Assembly :=
  { s with
    havingClauses := s.havingClauses ++ [c.clause (aggregate collection c.field)]
    needsAggregation := true }

/-- Adds one condition. A collection that is not queried leaves it out. -/
def add (a : Assembler) (s : Assembly) (c : Condition) : Assembly :=
  match a.resolve c.field c.collection with
  | .contacts => { s with whereClauses := s.whereClauses ++ c.clauses c.field }
  | .orders => (s.having .orders c).join .orders (a.ordersJoin c.field)
  | .pointHistories =>
    if c.field = expireDateField then s.joinExpiring .pointHistories (a.expiringJoin c)
    else (s.having .pointHistories c).join .pointHistories (a.pointsJoin c.field)
  | other =>
    { s with events := s.events ++ [.conditionSkipped c.id other.name c.field] }

end Assembly

namespace Assembler

/-- The form of the `where` part. One clause on gender and the limit to a merchant go into one flat
object when points are joined. -/
def whereFilter (clauses : List Clause) (hasGender joinsPoints : Bool) : Option Filter :=
  if clauses.length = 2 && hasGender && joinsPoints then some (.merged clauses)
  else Filter.ofClauses? clauses

/-- The document of a list of conditions. Without conditions it is limited to the merchant and nothing
is told. -/
def assemble (a : Assembler) (conditions : List Condition) : Traced Document :=
  let query := CollectionQuery.selecting [a.key]
  if conditions.isEmpty then
    ⟨⟨Collection.contacts.name, { query with filter := some (.clause a.merchantClause) }⟩, []⟩
  else
    let s := conditions.foldl (Assembly.add a) .empty
    let document : Document :=
      ⟨Collection.contacts.name,
        { query with
          filter :=
            whereFilter (s.whereClauses ++ [a.merchantClause])
              (conditions.any fun c => c.field = genderField)
              (s.joins.contains Collection.pointHistories.name)
          groupBy := if s.needsAggregation then some [a.key] else none
          having := Filter.ofClauses? s.havingClauses
          joins := s.joins }⟩
    ⟨document,
      s.events ++ [.queryAssembled conditions.length document.query.joins.size document.text]⟩

end Assembler

end SegmentFlow.Compile

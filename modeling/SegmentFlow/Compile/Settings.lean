import SegmentFlow.Json.Reading
import SegmentFlow.Json.Writing
/-!
# Settings of the compiler
-/

namespace SegmentFlow.Compile

structure Settings where
  /-- The merchant that every query is limited to. -/
  merchantId : String
  /-- The column that every query selects, groups and joins on. -/
  keyColumn : String
  deriving DecidableEq

namespace Settings

def standard : Settings where
  merchantId := "68468c7bbffca9a0a6b2a413"
  keyColumn := "user_id"

variable {ε : Type}

def toTree (s : Settings) : Tree ε :=
  .obj [("merchant_id", .str s.merchantId), ("key_column", .str s.keyColumn)]

def fields [Origin ε] : List (Field ε Settings) :=
  [ .of "merchant_id" Shape.text fun v s => { s with merchantId := v },
    .of "key_column" Shape.text fun v s => { s with keyColumn := v } ]

/-- Settings; what is missing is as in the standard ones. -/
def read [Origin ε] : Shape ε Settings :=
  Shape.record fields standard some

end Settings

end SegmentFlow.Compile

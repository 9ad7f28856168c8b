import SegmentFlow.Dictionary
import SegmentFlow.Json.Basic
/-!
# The stored form of a JSON value

A store keeps the members of an object in increasing order of their names and, of a repeated name,
the last value. `Tree.normal` brings a whole tree into that form.
-/

namespace SegmentFlow.Tree

variable {ε : Type}

mutual

def normal : Tree ε → Tree ε
  | arr items => arr (normalItems items)
  | obj members => obj (Dictionary.ofList (normalMembers members))
  | t => t

def normalItems : List (Tree ε) → List (Tree ε)
  | [] => []
  | t :: ts => normal t :: normalItems ts

def normalMembers : List (String × Tree ε) → List (String × Tree ε)
  | [] => []
  | (name, t) :: ms => (name, normal t) :: normalMembers ms

end

end SegmentFlow.Tree

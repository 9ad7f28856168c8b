import SegmentFlow.Json.Basic
/-!
# Typed values into trees

Written trees have no flaw, so they count as trees of any kind.
-/

namespace SegmentFlow

variable {ε α : Type}

namespace Tree

mutual

/-- A value as a tree of any kind. -/
def lift : Json → Tree ε
  | null => null
  | bool b => bool b
  | num n => num n
  | str s => str s
  | arr items => arr (liftItems items)
  | obj members => obj (liftMembers members)

def liftItems : List Json → List (Tree ε)
  | [] => []
  | t :: ts => lift t :: liftItems ts

def liftMembers : List (String × Json) → List (String × Tree ε)
  | [] => []
  | (name, t) :: ms => (name, lift t) :: liftMembers ms

end

def ofNat (n : Nat) : Tree ε :=
  num (.integer n)

def ofTexts (texts : List String) : Tree ε :=
  arr (texts.map str)

def ofOption (write : α → Tree ε) : Option α → Tree ε
  | some a => write a
  | none => null

end Tree

/-- A member that is left out when there is nothing to write. -/
def optionalMember (name : String) (write : α → Tree ε) : Option α → List (String × Tree ε)
  | some a => [(name, write a)]
  | none => []

end SegmentFlow

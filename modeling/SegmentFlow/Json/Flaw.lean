import SegmentFlow.Json.Basic
/-!
# Flaws of a text

Reading a typed value out of a text stops at the first thing that is wrong, be it the shape of a
value or the spelling of the text. So a misspelt text still has a tree: a `Flaw` stands where the
text goes wrong, and whoever walks the tree in order meets the shapes before it first.

A value that nobody asks for is passed over with less care than one that is read: a lone surrogate,
a number too large to hold and very deep nesting do not matter in it. A flaw says both.

The tree may come out of a text, or out of a stored value, or out of a value that was set aside
while the rest of its object was read. `Origin` holds what differs between the three.
-/

namespace SegmentFlow

/-- Why a value could not be read. -/
inductive ReadError where
  /-- Well formed, but not of the shape asked for. -/
  | shape
  /-- Not JSON. -/
  | grammar
  /-- Well begun, but the text ends too early. -/
  | cutShort
  deriving DecidableEq

def ReadError.message : ReadError → String
  | shape => "a value is not of the kind expected"
  | grammar => "the text is not JSON"
  | cutShort => "the text ends too early"

/-- Where a flaw stands: in place of a value, of the name of a member, or of the mark that should
follow an item. A value that begins as null does stands apart, since it counts as an attempt at
null. -/
inductive Place where
  | value
  | null
  | name
  | mark
  deriving DecidableEq

structure Flaw where
  place : Place
  /-- The error of a reader that wants the value. -/
  onRead : ReadError
  /-- The error of a reader that wants one of finitely many names. It turns away what begins neither
  as a string nor as an object, however that goes on. -/
  onName : ReadError
  /-- The error of a reader that passes the value over, if that is one. -/
  onSkip : Option ReadError
  deriving DecidableEq

/-- The flaws of a value that was set aside: there are none, since setting a value aside reads all
of it. -/
inductive SetAside
  deriving DecidableEq

class Origin (ε : Type) where
  flaw : ε → Flaw
  /-- The error of finding another kind of value where a name is expected, or a surplus item. -/
  misfit : ReadError
  /-- Whether an empty object may follow a name in place of null. -/
  blankObject : Bool

instance : Origin Flaw where
  flaw := id
  misfit := .grammar
  blankObject := false

instance : Origin Empty where
  flaw e := nomatch e
  misfit := .shape
  blankObject := false

instance : Origin SetAside where
  flaw e := nomatch e
  misfit := .shape
  blankObject := true

namespace Tree

variable {ε δ : Type}

mutual

/-- The first error of passing a value over. -/
def skipError? [Origin ε] : Tree ε → Option ReadError
  | arr items => skipErrorItems? items
  | obj members => skipErrorMembers? members
  | flaw e => (Origin.flaw e).onSkip
  | _ => none

def skipErrorItems? [Origin ε] : List (Tree ε) → Option ReadError
  | [] => none
  | t :: ts => (skipError? t).or (skipErrorItems? ts)

def skipErrorMembers? [Origin ε] : List (String × Tree ε) → Option ReadError
  | [] => none
  | (_, t) :: ms => (skipError? t).or (skipErrorMembers? ms)

end

/-- The error of a flaw that stands in place of a name or of a mark rather than of a value. -/
def misplaced? [Origin ε] : Tree ε → Option ReadError
  | flaw e =>
    match (Origin.flaw e).place with
    | .name | .mark => some (Origin.flaw e).onRead
    | .value | .null => none
  | _ => none

mutual

/-- The tree without its flaws, or the first of them. It may then count as a tree of any kind. -/
def sound : Tree ε → Except ε (Tree δ)
  | null => .ok null
  | bool b => .ok (bool b)
  | num n => .ok (num n)
  | str s => .ok (str s)
  | arr items => arr <$> soundItems items
  | obj members => obj <$> soundMembers members
  | flaw e => .error e

def soundItems : List (Tree ε) → Except ε (List (Tree δ))
  | [] => .ok []
  | t :: ts => return (← sound t) :: (← soundItems ts)

def soundMembers : List (String × Tree ε) → Except ε (List (String × Tree δ))
  | [] => .ok []
  | (name, t) :: ms => return (name, ← sound t) :: (← soundMembers ms)

end

end Tree

end SegmentFlow

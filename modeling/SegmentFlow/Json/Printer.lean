import SegmentFlow.Binary64.Decimal
import SegmentFlow.Json.Basic
/-!
# JSON text

`Json.compact` writes a value without any blanks and `Json.pretty` with one member or item a line,
indented by two blanks a level. Both write the members of an object in the order in which they
stand.
-/

namespace SegmentFlow

/-! ### Numbers

A float shows the fewest digits that read back to it. Those with a first digit between the
hundred-thousandths and the quadrillions stand in plain notation, with `.0` if whole; all others
have one digit before the point and a signed exponent without padding. -/

/-- The least exponent of the first digit that is written in plain notation. -/
def plainFrom : Int := -5

/-- The least exponent above it that is not. -/
def plainBelow : Int := 16

/-- The decimal `digits · 10 ^ e`, whose first digit has the exponent `first`. -/
def decimalText (digits : List Char) (e first : Int) : List Char :=
  if plainFrom ≤ first ∧ first < plainBelow then
    if 0 ≤ e then digits ++ List.replicate e.toNat '0' ++ ['.', '0']
    else if 0 ≤ first then
      digits.take (first.toNat + 1) ++ '.' :: digits.drop (first.toNat + 1)
    else '0' :: '.' :: List.replicate (-first - 1).toNat '0' ++ digits
  else
    let mantissa :=
      match digits with
      | d :: [] => [d]
      | d :: ds => d :: '.' :: ds
      | [] => []
    mantissa ++ 'e' :: (if first < 0 then '-' else '+') :: (toString first.natAbs).toList

/-- The text of a float; what is not finite has none. -/
def Binary64.text? : Binary64 → Option String
  | .finite negative units _ =>
    let magnitude :=
      if units = 0 then ['0', '.', '0']
      else
        let (digits, e) := Binary64.shortest units
        let digits := (toString digits).toList
        decimalText digits e (e + digits.length - 1)
    some (String.ofList (if negative then '-' :: magnitude else magnitude))
  | _ => none

def Number.text : Number → String
  | .integer i => toString i
  | .float x => x.text?.getD "null"

/-! ### Strings -/

def hexQuad (n : Nat) : List Char :=
  [n / 4096, n / 256, n / 16, n].map fun k => Nat.digitChar (k % 16)

/-- A quote, a backslash and the control characters are escaped, the latter by a letter where there
is one. -/
def escaped (c : Char) : List Char :=
  match c with
  | '"' => ['\\', '"']
  | '\\' => ['\\', '\\']
  | '\x08' => ['\\', 'b']
  | '\x0c' => ['\\', 'f']
  | '\n' => ['\\', 'n']
  | '\r' => ['\\', 'r']
  | '\t' => ['\\', 't']
  | c => if c.toNat < 32 then '\\' :: 'u' :: hexQuad c.toNat else [c]

def quoted (s : String) : String :=
  "\"" ++ String.ofList (s.toList.flatMap escaped) ++ "\""

/-! ### Values -/

namespace Tree

mutual

def compact : Json → String
  | null => "null"
  | bool true => "true"
  | bool false => "false"
  | num n => n.text
  | str s => quoted s
  | arr items => "[" ++ ",".intercalate (compactItems items) ++ "]"
  | obj members => "\x7b" ++ ",".intercalate (compactMembers members) ++ "\x7d"

def compactItems : List Json → List String
  | [] => []
  | t :: ts => compact t :: compactItems ts

def compactMembers : List (String × Json) → List String
  | [] => []
  | (name, t) :: ms => (quoted name ++ ":" ++ compact t) :: compactMembers ms

end

/-- A line break and the blanks that begin a line at a depth. -/
def lineBreak (depth : Nat) : String :=
  String.ofList ('\n' :: List.replicate (2 * depth) ' ')

mutual

/-- Empty containers stay on their line. -/
def prettyAt (depth : Nat) : Json → String
  | arr [] => "[]"
  | obj [] => "\x7b\x7d"
  | arr items => "[" ++ ",".intercalate (prettyItems (depth + 1) items) ++ lineBreak depth ++ "]"
  | obj members =>
    "\x7b" ++ ",".intercalate (prettyMembers (depth + 1) members) ++ lineBreak depth ++ "\x7d"
  | t => compact t

def prettyItems (depth : Nat) : List Json → List String
  | [] => []
  | t :: ts => (lineBreak depth ++ prettyAt depth t) :: prettyItems depth ts

def prettyMembers (depth : Nat) : List (String × Json) → List String
  | [] => []
  | (name, t) :: ms =>
    (lineBreak depth ++ quoted name ++ ": " ++ prettyAt depth t) :: prettyMembers depth ms

end

def pretty (t : Json) : String :=
  prettyAt 0 t

end Tree

end SegmentFlow

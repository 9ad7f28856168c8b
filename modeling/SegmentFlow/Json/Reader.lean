import SegmentFlow.Binary64.Decimal
import SegmentFlow.Json.Flaw
/-!
# Reading JSON text

`Tree.ofText` turns a text into a tree with flaws, and also says what follows the value. A scanner
returns what it found with the rest of the text, and no rest where it could not go on.
-/

namespace SegmentFlow

/-- What a scanner found and the rest of the text; no rest after a flaw that ends the reading. -/
abbrev Scanned := Tree Flaw × Option (List Char)

namespace Scan

/-- The flaw of a text that cannot be read on. -/
def stop (place : Place) (e : ReadError) : Tree Flaw :=
  .flaw ⟨place, e, e, some e⟩

def isBlank (c : Char) : Bool :=
  c = ' ' || c = '\n' || c = '\t' || c = '\r'

def skipBlanks (cs : List Char) : List Char :=
  cs.dropWhile isBlank

/-! ### Literals -/

/-- The value of a literal, the rest of whose letters is expected. -/
def literal (place : Place) (t : Tree Flaw) : (expected rest : List Char) → Scanned
  | [], rest => (t, some rest)
  | _ :: _, [] => (.flaw ⟨place, .cutShort, .grammar, some .cutShort⟩, none)
  | e :: es, c :: cs =>
    if e = c then literal place t es cs
    else (.flaw ⟨place, .grammar, .grammar, some .grammar⟩, none)

/-! ### Numbers -/

/-- Appends digits to a number as long as it stays below 2⁶⁴; returns the digits left over. -/
def absorb (n : Nat) : List Char → Nat × List Char
  | [] => (n, [])
  | d :: ds =>
    let longer := n * 10 + (d.toNat - '0'.toNat)
    if longer < UInt64.size then absorb longer ds else (n, d :: ds)

/-- A number too large for the format is no number, but may be passed over. -/
def float (negative : Bool) (digits : Nat) (exponent : Int) : Tree Flaw :=
  match Binary64.ofDecimal negative digits exponent with
  | some x => .num (.float x)
  | none => .flaw ⟨.value, .grammar, .grammar, none⟩

/-- A number without point and exponent is whole if it fits 64 bits, with or without a sign; zero
with a sign is a float. -/
def whole (negative : Bool) (digits : Nat) : Tree Flaw :=
  if negative then
    if 0 < digits ∧ 2 * digits ≤ UInt64.size then .num (.integer (-digits)) else float true digits 0
  else .num (.integer digits)

/-- A number that the text ends in the middle of. Passed over, it counts as misspelt. -/
def cutNumber : Tree Flaw :=
  .flaw ⟨.value, .cutShort, .grammar, some .grammar⟩

/-- The number from its exponent on, `cs` being what follows the letter of the exponent. -/
def exponent (negative : Bool) (digits : Nat) (power : Int) (cs : List Char) : Scanned :=
  let (minus, cs) :=
    match cs with
    | '-' :: rest => (true, rest)
    | '+' :: rest => (false, rest)
    | _ => (false, cs)
  match cs.takeWhile Char.isDigit, cs with
  | [], [] => (cutNumber, none)
  | [], _ :: _ => (stop .value .grammar, none)
  | ds, _ =>
    let e : Int := ds.foldl (fun n d => n * 10 + (d.toNat - '0'.toNat)) 0
    (float negative digits (if minus then power - e else power + e),
      some (cs.dropWhile Char.isDigit))

/-- The number from its point on, `cs` being what follows the point. -/
def fraction (negative : Bool) (digits : Nat) (power : Int) (cs : List Char) : Scanned :=
  match cs.takeWhile Char.isDigit, cs with
  | [], [] => (cutNumber, none)
  | [], _ :: _ => (stop .value .grammar, none)
  | ds, _ =>
    let (digits, excess) := absorb digits ds
    let power := power - (ds.length - excess.length)
    match cs.dropWhile Char.isDigit with
    | 'e' :: rest | 'E' :: rest => exponent negative digits power rest
    | rest => (float negative digits power, some rest)

/-- The number from its first digit on. Of a long number the digits that do not fit 64 bits count
only as powers of ten. -/
def magnitude (negative : Bool) (cs : List Char) : Scanned :=
  match cs.takeWhile Char.isDigit, cs with
  | [], [] => (cutNumber, none)
  | [], _ :: _ => (stop .value .grammar, none)
  | '0' :: _ :: _, _ => (stop .value .grammar, none)
  | ds, _ =>
    let (digits, excess) := absorb 0 ds
    match cs.dropWhile Char.isDigit with
    | '.' :: rest => fraction negative digits excess.length rest
    | 'e' :: rest | 'E' :: rest => exponent negative digits excess.length rest
    | rest =>
      (if excess.isEmpty then whole negative digits else float negative digits excess.length,
        some rest)

def number : List Char → Scanned
  | '-' :: cs => magnitude true cs
  | cs => magnitude false cs

/-! ### Strings -/

/-- A part of a string: a character, or the code unit of a hexadecimal escape. -/
inductive Piece where
  | char (c : Char)
  | unit (n : Nat)

def hexDigit? (c : Char) : Option Nat :=
  if c.isDigit then some (c.toNat - '0'.toNat)
  else if 'a' ≤ c ∧ c ≤ 'f' then some (c.toNat - 'a'.toNat + 10)
  else if 'A' ≤ c ∧ c ≤ 'F' then some (c.toNat - 'A'.toNat + 10)
  else none

def codeUnit? (cs : List Char) : Option Nat :=
  cs.foldlM (fun n c => (hexDigit? c).map (n * 16 + ·)) 0

/-- The character that a letter after a backslash stands for. -/
def unescaped? : Char → Option Char
  | '"' => some '"'
  | '\\' => some '\\'
  | '/' => some '/'
  | 'b' => some '\x08'
  | 'f' => some '\x0c'
  | 'n' => some '\n'
  | 'r' => some '\r'
  | 't' => some '\t'
  | _ => none

/-- The parts of a string up to its closing quote, the first one last, with what follows the quote
or the error that ends the reading. -/
def pieces (done : List Piece) : List Char → List Piece × Except ReadError (List Char)
  | [] => (done, .error .cutShort)
  | '"' :: cs => (done, .ok cs)
  | '\\' :: 'u' :: a :: b :: c :: d :: cs =>
    match codeUnit? [a, b, c, d] with
    | some n => pieces (.unit n :: done) cs
    | none => (done, .error .grammar)
  | '\\' :: 'u' :: cs =>
    (done, .error (if (String.ofList cs).utf8ByteSize < 4 then .cutShort else .grammar))
  | ['\\'] => (done, .error .cutShort)
  | '\\' :: c :: cs =>
    match unescaped? c with
    | some c => pieces (.char c :: done) cs
    | none => (done, .error .grammar)
  | c :: cs => if c.toNat < 32 then (done, .error .grammar) else pieces (.char c :: done) cs

def isLeading (n : Nat) : Bool := 0xD800 ≤ n && n ≤ 0xDBFF
def isTrailing (n : Nat) : Bool := 0xDC00 ≤ n && n ≤ 0xDFFF

/-- The characters of the parts of a string; nothing if a surrogate stands alone. -/
def joined? (done : List Char) : List Piece → Option (List Char)
  | [] => some done.reverse
  | .char c :: ps => joined? (c :: done) ps
  | .unit n :: .unit m :: ps =>
    if isLeading n then
      if isTrailing m then
        joined? (Char.ofNat ((n - 0xD800) * 1024 + (m - 0xDC00) + 0x10000) :: done) ps
      else none
    else if isTrailing n then none
    else joined? (Char.ofNat n :: done) (.unit m :: ps)
  | .unit n :: ps =>
    if isLeading n || isTrailing n then none else joined? (Char.ofNat n :: done) ps

/-- The string that begins after a quote. A leading surrogate at the end of what could be read
might still have been completed, so it is not what went wrong. -/
def string (cs : List Char) : Scanned :=
  match pieces [] cs with
  | (ps, .ok rest) =>
    match joined? [] ps.reverse with
    | some s => (.str (String.ofList s), some rest)
    | none => (.flaw ⟨.value, .grammar, .grammar, none⟩, some rest)
  | (ps, .error e) =>
    let certain :=
      match ps with
      | .unit n :: ps => if isLeading n then ps else .unit n :: ps
      | ps => ps
    let onRead := if (joined? [] certain.reverse).isNone then .grammar else e
    (.flaw ⟨.value, onRead, onRead, some e⟩, none)

/-! ### Values

`fuel` bounds the steps; two for each character are enough, since no two steps in a row leave the
text as it is. -/

/-- The greatest number of containers around a value that is read. -/
def depthLimit : Nat := 127

/-- A container that stands too deep to be read, if it does. -/
def ifShallow (depth : Nat) (found : Scanned) : Scanned :=
  if depth = 0 then (.flaw ⟨.value, .grammar, .grammar, found.1.skipError?⟩, found.2) else found

mutual

/-- A value, with room for `depth` containers around its innermost part. -/
def value : (fuel depth : Nat) → List Char → Scanned
  | 0, _, _ => (stop .value .grammar, none)
  | fuel + 1, depth, cs =>
    match skipBlanks cs with
    | [] => (stop .value .cutShort, none)
    | '[' :: cs =>
      let (ts, rest) := items fuel (depth - 1) true cs
      ifShallow depth (.arr ts, rest)
    | '{' :: cs =>
      let (ms, rest) := members fuel (depth - 1) true cs
      ifShallow depth (.obj ms, rest)
    | '"' :: cs => string cs
    | 'n' :: cs => literal .null .null ['u', 'l', 'l'] cs
    | 't' :: cs => literal .value (.bool true) ['r', 'u', 'e'] cs
    | 'f' :: cs => literal .value (.bool false) ['a', 'l', 's', 'e'] cs
    | c :: cs =>
      if c = '-' || c.isDigit then number (c :: cs) else (stop .value .grammar, none)

/-- The items of an array up to its end, from the first one or from the mark after one. -/
def items : (fuel depth : Nat) → (first : Bool) → List Char →
    List (Tree Flaw) × Option (List Char)
  | 0, _, _, _ => ([stop .mark .grammar], none)
  | fuel + 1, depth, first, cs =>
    let item := fun cs =>
      match value fuel depth cs with
      | (t, some rest) =>
        let (ts, rest) := items fuel depth false rest
        (t :: ts, rest)
      | (t, none) => ([t], none)
    match skipBlanks cs with
    | [] => ([stop .mark .cutShort], none)
    | ']' :: cs => ([], some cs)
    | ',' :: cs => item (if first then ',' :: cs else cs)
    | c :: cs => if first then item (c :: cs) else ([stop .mark .grammar], none)

/-- The members of an object up to its end, from the first one or from the mark after one. -/
def members : (fuel depth : Nat) → (first : Bool) → List Char →
    List (String × Tree Flaw) × Option (List Char)
  | 0, _, _, _ => ([("", stop .mark .grammar)], none)
  | fuel + 1, depth, first, cs =>
    let more := fun (m : String × Tree Flaw) rest =>
      let (ms, rest) := members fuel depth false rest
      (m :: ms, rest)
    let member := fun cs =>
      match skipBlanks cs with
      | [] => ([("", stop .name .cutShort)], none)
      | '"' :: cs =>
        match string cs with
        | (.str name, some rest) =>
          match skipBlanks rest with
          | [] => ([(name, stop .value .cutShort)], none)
          | ':' :: cs =>
            match value fuel depth cs with
            | (t, some rest) => more (name, t) rest
            | (t, none) => ([(name, t)], none)
          | _ => ([(name, stop .value .grammar)], none)
        | (.flaw f, some rest) =>
          match skipBlanks rest with
          | [] => ([("", .flaw ⟨.name, f.onRead, f.onRead, some .cutShort⟩)], none)
          | ':' :: cs =>
            match value fuel depth cs with
            | (t, some rest) => more ("", .flaw ⟨.name, f.onRead, f.onRead, t.skipError?⟩) rest
            | (t, none) => ([("", .flaw ⟨.name, f.onRead, f.onRead, t.skipError?⟩)], none)
          | _ => ([("", .flaw ⟨.name, f.onRead, f.onRead, some .grammar⟩)], none)
        | (.flaw f, none) => ([("", .flaw ⟨.name, f.onRead, f.onRead, f.onSkip⟩)], none)
        | (_, _) => ([("", stop .name .grammar)], none)
      | _ => ([("", stop .name .grammar)], none)
    match skipBlanks cs with
    | [] => ([("", stop .mark .cutShort)], none)
    | '}' :: cs => ([], some cs)
    | ',' :: cs => if first then ([("", stop .name .grammar)], none) else member cs
    | c :: cs => if first then member (c :: cs) else ([("", stop .mark .grammar)], none)

end

end Scan

/-- The value that a text begins with, and what follows it. -/
def Tree.ofText (text : String) : Scanned :=
  let cs := text.toList
  Scan.value (2 * cs.length + 4) Scan.depthLimit cs

/-- Whether nothing but blanks follows a value. -/
def Scanned.complete (found : Scanned) : Bool :=
  match found.2 with
  | some rest => (Scan.skipBlanks rest).isEmpty
  | none => false

end SegmentFlow

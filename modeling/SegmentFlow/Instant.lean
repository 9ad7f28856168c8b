import SegmentFlow.Text.Whitespace
/-!
# Instants

An instant is a date and a time of day in UTC. Its text names any zone; `Instant.parse` moves it to
UTC, and `Instant.text` prints it there. A minute may have a sixty-first second.
-/

namespace SegmentFlow

structure Date where
  year : Int
  month : Nat
  day : Nat
  deriving DecidableEq

namespace Date

def isLeapYear (year : Int) : Bool :=
  year % 4 = 0 && (year % 100 ≠ 0 || year % 400 = 0)

def daysInMonth (year : Int) (month : Nat) : Nat :=
  if month = 2 then (if isLeapYear year then 29 else 28)
  else if month = 4 ∨ month = 6 ∨ month = 9 ∨ month = 11 then 30
  else 31

/-- The first and the last year of the calendar. -/
def firstYear : Int := -262143
def lastYear : Int := 262142

def exists? (d : Date) : Bool :=
  firstYear ≤ d.year && d.year ≤ lastYear && 1 ≤ d.month && d.month ≤ 12
    && 1 ≤ d.day && d.day ≤ daysInMonth d.year d.month

def next (d : Date) : Date :=
  if d.day < daysInMonth d.year d.month then { d with day := d.day + 1 }
  else if d.month < 12 then ⟨d.year, d.month + 1, 1⟩
  else ⟨d.year + 1, 1, 1⟩

def previous (d : Date) : Date :=
  if 1 < d.day then { d with day := d.day - 1 }
  else if 1 < d.month then ⟨d.year, d.month - 1, daysInMonth d.year (d.month - 1)⟩
  else ⟨d.year - 1, 12, 31⟩

end Date

structure Instant where
  date : Date
  hour : Nat
  minute : Nat
  second : Nat
  nanosecond : Nat
  deriving DecidableEq

namespace Instant

/-- The instant of a date and time that is so many minutes ahead of UTC, if the calendar has it. -/
def ofLocal (t : Instant) (ahead : Int) : Option Instant :=
  let minutes : Int := t.hour * 60 + t.minute - ahead
  let date :=
    if minutes < 0 then t.date.previous
    else if minutes < 1440 then t.date
    else t.date.next
  let minutes := (minutes % 1440).toNat
  if t.date.exists? && date.exists? then
    some { t with date, hour := minutes / 60, minute := minutes % 60 }
  else none

/-! ### Reading

A reader takes a beginning off a text, or fails. -/

namespace Reader

abbrev TextReader := StateT (List Char) Option

def whitespace : TextReader Unit :=
  modify skipWhitespace

def oneOf (cs : List Char) : TextReader Char := fun
  | c :: rest => if c ∈ cs then some (c, rest) else none
  | [] => none

def ofDigits (ds : List Char) : Nat :=
  ds.foldl (fun n d => n * 10 + (d.toNat - '0'.toNat)) 0

/-- The digits at the beginning, at least one and no more than `limit` if there is one. -/
def digits (limit : Option Nat) : TextReader (List Char) := fun cs =>
  let all := cs.takeWhile Char.isDigit
  let ds := (limit.map all.take).getD all
  if ds.isEmpty then none else some (ds, cs.drop ds.length)

/-- White space and a number of at most two digits that is not above `greatest`. -/
def number (greatest : Nat) : TextReader Nat := do
  whitespace
  let n := ofDigits (← digits (some 2))
  if n ≤ greatest then return n else failure

def mark (c : Char) : TextReader Unit := do
  whitespace
  discard (oneOf [c])

/-- White space and a year: of up to four digits, or with a sign of any number of them. -/
def year : TextReader Int := do
  whitespace
  match (← get).head? with
  | some '-' => do
    discard (oneOf ['-'])
    return -(ofDigits (← digits none) : Int)
  | some '+' => do
    discard (oneOf ['+'])
    return (ofDigits (← digits none) : Int)
  | _ => return (ofDigits (← digits (some 4)) : Int)

def date : TextReader Date := do
  let year ← year
  mark '-'
  let month ← number 12
  mark '-'
  return ⟨year, month, ← number 31⟩

/-- The nanoseconds after a point, if there is one; digits after the ninth do not count. -/
def fraction : TextReader Nat := do
  match (← get).head? with
  | some '.' => do
    discard (oneOf ['.'])
    let ds := (← digits none).take 9
    return ofDigits (ds ++ List.replicate (9 - ds.length) '0')
  | _ => return 0

def twoDigits : TextReader Nat := do
  let ds ← digits (some 2)
  if ds.length = 2 then return ofDigits ds else failure

/-- How many minutes a zone is ahead of UTC. -/
def zone : TextReader Int := do
  whitespace
  match (← get) with
  | 'Z' :: rest | 'z' :: rest => do
    set rest
    return 0
  | u :: t :: c :: rest =>
    if u.toUpper = 'U' ∧ t.toUpper = 'T' ∧ c.toUpper = 'C' then
      set rest
      return 0
    else offset
  | _ => offset
where
  offset : TextReader Int := do
    let sign ← oneOf ['+', '-', '\u2212']
    let hours ← twoDigits
    modify fun cs => cs.dropWhile fun c => c = ':' || isWhitespace c
    let minutes ← twoDigits
    if hours ≤ 23 ∧ minutes ≤ 59 then
      let ahead : Int := hours * 60 + minutes
      return if sign = '+' then ahead else -ahead
    else failure

def instant : TextReader Instant := do
  let date ← date
  discard (oneOf ['T', 't', ' '])
  let hour ← number 23
  mark ':'
  let minute ← number 59
  mark ':'
  let second ← number 60
  let nanosecond ← fraction
  let ahead ← zone
  whitespace
  ofLocal ⟨date, hour, minute, second, nanosecond⟩ ahead

end Reader

def parse (text : String) : Option Instant :=
  match Reader.instant.run text.toList with
  | some (t, []) => some t
  | _ => none

/-! ### Printing -/

/-- A number with zeros in front up to a number of digits. -/
def padded (width n : Nat) : String :=
  let digits := toString n
  String.ofList (List.replicate (width - digits.length) '0') ++ digits

/-- Years of more than four digits and years before the first have a sign. -/
def yearText (year : Int) : String :=
  if 0 ≤ year ∧ year ≤ 9999 then padded 4 year.toNat
  else (if year < 0 then "-" else "+") ++ padded 4 year.natAbs

/-- The fewest of no, three, six and nine digits that are exact. -/
def fractionText (nanosecond : Nat) : String :=
  if nanosecond = 0 then ""
  else if nanosecond % 1000000 = 0 then "." ++ padded 3 (nanosecond / 1000000)
  else if nanosecond % 1000 = 0 then "." ++ padded 6 (nanosecond / 1000)
  else "." ++ padded 9 nanosecond

def text (t : Instant) : String :=
  yearText t.date.year ++ "-" ++ padded 2 t.date.month ++ "-" ++ padded 2 t.date.day
    ++ "T" ++ padded 2 t.hour ++ ":" ++ padded 2 t.minute ++ ":" ++ padded 2 t.second
    ++ fractionText t.nanosecond ++ "Z"

end Instant

end SegmentFlow

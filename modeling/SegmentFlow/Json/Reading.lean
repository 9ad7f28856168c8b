import SegmentFlow.Json.Normal
import SegmentFlow.Json.Reader
import SegmentFlow.Trace
/-!
# Typed values out of trees

A `Reading α` is the attempt to read an `α`: a value or an error, and the events of trying, which
are told even if it fails later on. A `Shape ε α` reads an `α` out of a tree; it walks the tree in
order, so that of two things that are wrong the first one is the error.
-/

namespace SegmentFlow

abbrev Reading (α : Type) := Traced (Except ReadError α)

namespace Reading

variable {α β : Type}

def fail (e : ReadError) : Reading α :=
  ⟨.error e, []⟩

protected def pure (a : α) : Reading α :=
  ⟨.ok a, []⟩

protected def map (f : α → β) (x : Reading α) : Reading β :=
  ⟨f <$> x.value, x.events⟩

protected def bind (x : Reading α) (f : α → Reading β) : Reading β :=
  match x.value with
  | .ok a => ⟨(f a).value, x.events ++ (f a).events⟩
  | .error e => ⟨.error e, x.events⟩

end Reading

/-- A way to read an `α` out of a tree. -/
abbrev Shape (ε α : Type) := Tree ε → Reading α

namespace Shape

variable {ε α β δ : Type} [Origin ε]

def mismatch : Shape ε α
  | .flaw e => Reading.fail (Origin.flaw e).onRead
  | _ => Reading.fail .shape

/-! ### Plain values -/

def text : Shape ε String
  | .str s => Reading.pure s
  | t => mismatch t

def flag : Shape ε Bool
  | .bool b => Reading.pure b
  | t => mismatch t

/-- A number that may have a fraction; a whole number counts as one. -/
def float : Shape ε Binary64
  | .num (.float x) => Reading.pure x
  | .num (.integer i) => Reading.pure (Binary64.ofInt i)
  | t => mismatch t

/-- A whole number of 32 bits without a sign. -/
def word : Shape ε UInt32
  | .num (.integer i) =>
    if 0 ≤ i ∧ i.toNat < UInt32.size then Reading.pure (UInt32.ofNat i.toNat)
    else Reading.fail .shape
  | t => mismatch t

/-- A text that has to be of a certain form. -/
def parsed (parse : String → Option α) : Shape ε α := fun t =>
  (text t).bind fun s =>
    match parse s with
    | some a => Reading.pure a
    | none => Reading.fail .shape

def optional (shape : Shape ε α) : Shape ε (Option α)
  | .null => Reading.pure none
  | .flaw e =>
    if (Origin.flaw e).place = .null then Reading.fail (Origin.flaw e).onRead
    else (shape (.flaw e)).map some
  | t => (shape t).map some

/-- Any value, in its stored form. All of it has to be in order. -/
def anything : Shape ε Json := fun t =>
  match t.sound with
  | .ok (t : Json) => Reading.pure t.normal
  | .error e => Reading.fail (Origin.flaw e).onRead

def setAside : Shape ε (Tree SetAside) := fun t =>
  match t.sound with
  | .ok t => Reading.pure t
  | .error e => Reading.fail (Origin.flaw e).onRead

def ignored : Shape ε Unit := fun t =>
  match t.skipError? with
  | some e => Reading.fail e
  | none => Reading.pure ()

def readItems (shape : Shape ε α) : List (Tree ε) → Reading (List α)
  | [] => Reading.pure []
  | t :: ts => (shape t).bind fun a => (readItems shape ts).map (a :: ·)

def list (shape : Shape ε α) : Shape ε (List α)
  | .arr ts => readItems shape ts
  | t => mismatch t

/-! ### Names -/

/-- The error of a member that stands where the end of its object is expected. -/
def surplus : List (String × Tree ε) → Reading Unit
  | [] => Reading.pure ()
  | (_, .flaw e) :: _ =>
    Reading.fail (if (Origin.flaw e).place = .mark then (Origin.flaw e).onRead else Origin.misfit ε)
  | _ :: _ => Reading.fail (Origin.misfit ε)

/-- What may follow a name in an object of one member. -/
def blank : Shape ε Unit
  | .null => Reading.pure ()
  | .obj [] => if Origin.blankObject ε then Reading.pure () else Reading.fail .shape
  | t => mismatch t

/-- One of finitely many names, or an object whose one member has it for a name and says nothing
else. -/
def oneOf (find : String → Option α) : Shape ε α
  | .str s =>
    match find s with
    | some a => Reading.pure a
    | none => Reading.fail .shape
  | .obj ((name, t) :: ms) =>
    match t.misplaced?, find name with
    | some e, _ => Reading.fail e
    | none, some a => (blank t).bind fun _ => (surplus ms).map fun _ => a
    | none, none => Reading.fail .shape
  | .flaw e => Reading.fail (Origin.flaw e).onName
  | _ => Reading.fail (Origin.misfit ε)

end Shape

/-! ### Records -/

/-- A member of a record: its name, and how its value changes the draft of the record. -/
structure Field (ε δ : Type) where
  name : String
  read : Shape ε (δ → δ)

namespace Field

variable {ε α δ : Type}

def of (name : String) (shape : Shape ε α) (put : α → δ → δ) : Field ε δ :=
  ⟨name, fun t => (shape t).map put⟩

end Field

namespace Shape

variable {ε α δ : Type} [Origin ε]

/-- Reads the members of an object into a draft. A member of the record may come only once, which
shows before its second value is read; members of other names are left to `other`. -/
def readMembers (fields : List (Field ε δ)) (other : String → Shape ε (δ → δ)) :
    (seen : List String) → δ → List (String × Tree ε) → Reading δ
  | _, draft, [] => Reading.pure draft
  | seen, draft, (name, t) :: ms =>
    match t.misplaced?, fields.find? (·.name = name) with
    | some e, _ => Reading.fail e
    | none, some field =>
      if name ∈ seen then Reading.fail .shape
      else (field.read t).bind fun put => readMembers fields other (name :: seen) (put draft) ms
    | none, none => (other name t).bind fun put => readMembers fields other seen (put draft) ms

/-- Reads the items of an array as the members of a record, in the order of its fields. -/
def readPositions : List (Field ε δ) → δ → List (Tree ε) → Reading δ
  | _, draft, [] => Reading.pure draft
  | [], _, t :: _ => (surplus [("", t)]).bind fun _ => Reading.fail .shape
  | field :: fields, draft, t :: ts =>
    (field.read t).bind fun put => readPositions fields (put draft) ts

/-- The record that a finished draft stands for, unless a member that it needs was missing. -/
def finished (finish : δ → Option α) (draft : δ) : Reading α :=
  match finish draft with
  | some a => Reading.pure a
  | none => Reading.fail .shape

/-- A record, given as an object or as an array of its members. -/
def record (fields : List (Field ε δ)) (start : δ) (finish : δ → Option α) : Shape ε α
  | .obj ms =>
    (readMembers fields (fun _ t => (ignored t).map fun _ => id) [] start ms).bind
      (finished finish)
  | .arr ts => (readPositions fields start ts).bind (finished finish)
  | t => mismatch t

end Shape

/-! ### From a text to a value -/

namespace Reading

variable {α : Type}

/-- Reads the one value of a text. That nothing follows it is seen last. -/
def ofText (shape : Shape Flaw α) (text : String) : Reading α :=
  let found := Tree.ofText text
  (shape found.1).bind fun a => if found.complete then Reading.pure a else fail .grammar

end Reading

/-- The value of a text in its stored form. -/
def Tree.parse (text : String) : Except ReadError Json :=
  (Reading.ofText Shape.anything text).value

end SegmentFlow

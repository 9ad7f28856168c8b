/-!
# Dictionaries

A dictionary is a list of entries in increasing order of their names, each name once. `insert`
keeps that order, so the entries of a dictionary do not tell in which order they were inserted.
`List.lookup` is the look-up.
-/

namespace SegmentFlow.Dictionary

variable {α : Type}

/-- The dictionary with `value` under `name`, whether or not the name was there before. -/
def insert (name : String) (value : α) : List (String × α) → List (String × α)
  | [] => [(name, value)]
  | entry :: entries =>
    if name < entry.1 then (name, value) :: entry :: entries
    else if name = entry.1 then (name, value) :: entries
    else entry :: insert name value entries

def erase (name : String) (entries : List (String × α)) : List (String × α) :=
  entries.filter fun entry => entry.1 != name

/-- Changes the value under a name, if there is one. -/
def update (name : String) (change : α → α) (entries : List (String × α)) : List (String × α) :=
  entries.map fun entry => if entry.1 = name then (entry.1, change entry.2) else entry

/-- The dictionary of a list of entries in any order; of equal names the last one counts. -/
def ofList (entries : List (String × α)) : List (String × α) :=
  entries.foldl (fun dictionary entry => insert entry.1 entry.2 dictionary) []

/-- Names in increasing order, none repeated. -/
def Sorted (entries : List (String × α)) : Prop :=
  entries.Pairwise fun a b => a.1 < b.1

end SegmentFlow.Dictionary

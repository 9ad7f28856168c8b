/-!
# Arguments of the command line

The first word that is no option names a command; options that concern every command may stand
before it or after it, and the later place wins. An option is given once in each place. The value
of an option follows in the next word or in the same one.
-/

namespace SegmentFlow.CommandLine

inductive OptionName where
  | config
  | pretty
  | sourceHandle
  | targetHandle
  deriving DecidableEq

namespace OptionName

def all : List OptionName := [config, pretty, sourceHandle, targetHandle]

def long : OptionName → String
  | config => "config"
  | pretty => "pretty"
  | sourceHandle => "source-handle"
  | targetHandle => "target-handle"

def short? : OptionName → Option Char
  | config => some 'c'
  | pretty => some 'p'
  | _ => none

def takesValue : OptionName → Bool
  | pretty => false
  | _ => true

/-- The options that concern every command. -/
def shared : List OptionName := [config, pretty]

end OptionName

/-- Options with their values; those that take none have an empty one. -/
abbrev Given := List (OptionName × String)

/-- Options read from one word, and the one among them whose value is in the next word. -/
structure Word where
  given : Given
  pending : Option OptionName

/-- The word is written like an option: a single dash is not. -/
def isOption (word : String) : Bool :=
  word.startsWith "-" && word ≠ "-"

/-- The options of a group of letters. -/
def readShort (allowed : List OptionName) : List Char → Option Word
  | [] => some ⟨[], none⟩
  | c :: cs => do
    let o ← allowed.find? fun o => o.short? = some c
    if o.takesValue then
      match cs with
      | [] => return ⟨[], some o⟩
      | '=' :: value => return ⟨[(o, String.ofList value)], none⟩
      | value => return ⟨[(o, String.ofList value)], none⟩
    else
      let word ← readShort allowed cs
      return { word with given := (o, "") :: word.given }

/-- An option by its name, with or without a value. -/
def readLong (allowed : List OptionName) (cs : List Char) : Option Word := do
  let name := String.ofList (cs.takeWhile (· ≠ '='))
  let o ← allowed.find? fun o => o.long = name
  match o.takesValue, cs.dropWhile (· ≠ '=') with
  | true, [] => return ⟨[], some o⟩
  | true, _ :: value => return ⟨[(o, String.ofList value)], none⟩
  | false, [] => return ⟨[(o, "")], none⟩
  | false, _ :: _ => none

def readWord (allowed : List OptionName) (word : String) : Option Word :=
  match word.toList with
  | '-' :: '-' :: cs => readLong allowed cs
  | '-' :: cs => readShort allowed cs
  | _ => none

/-- Adds options, none of which may be there already. -/
def add (given : Given) : Given → Option Given
  | [] => some given
  | g :: gs => if (given.lookup g.1).isSome then none else add (given ++ [g]) gs

/-- Reads options up to the first other word, which is left over with those after it. -/
def readOptions (allowed : List OptionName) (given : Given) :
    List String → Option (Given × List String)
  | [] => some (given, [])
  | word :: words =>
    if isOption word ∧ word ≠ "--" then do
      let w ← readWord allowed word
      let given ← add given w.given
      match w.pending, words with
      | none, words => readOptions allowed given words
      | some o, value :: words =>
        if isOption value then none
        else do readOptions allowed (← add given [(o, value)]) words
      | some _, [] => none
    else some (given, word :: words)

/-- Reads options and other words in any order. After two dashes there are no more options. -/
def readWords (allowed : List OptionName) (given : Given) (words : List String) :
    (fuel : Nat) → Option (Given × List String)
  | 0 => some (given, [])
  | fuel + 1 => do
    let (given, rest) ← readOptions allowed given words
    match rest with
    | [] => return (given, [])
    | "--" :: rest => return (given, rest)
    | word :: rest =>
      let (given, plain) ← readWords allowed given rest fuel
      return (given, word :: plain)

inductive Command where
  | compile (path : String)
  | workflow (path : String)
  | connect (path source target : String) (sourceHandle targetHandle : Option String)
  deriving DecidableEq

structure Invocation where
  config : Option String
  pretty : Bool
  command : Command
  deriving DecidableEq

/-- The files that an invocation names. -/
def Invocation.paths (i : Invocation) : List String :=
  i.config.toList ++
    match i.command with
    | .compile path | .workflow path | .connect path .. => [path]

/-- The options that a command knows. -/
def optionsOf (command : String) : List OptionName :=
  if command = "connect" then OptionName.all else OptionName.shared

def commandOf? (name : String) (given : Given) : List String → Option Command
  | [path] =>
    if name = "compile" then some (.compile path)
    else if name = "workflow" then some (.workflow path)
    else none
  | [path, source, target] =>
    if name = "connect" then
      some (.connect path source target (given.lookup .sourceHandle) (given.lookup .targetHandle))
    else none
  | _ => none

/-- What is asked for, if the arguments are in order. -/
def parse (arguments : List String) : Option Invocation := do
  let (before, rest) ← readOptions OptionName.shared [] arguments
  match rest with
  | [] => none
  | name :: rest =>
    let (after, words) ← readWords (optionsOf name) [] rest (rest.length + 1)
    let command ← commandOf? name after words
    return {
      config := (after.lookup .config).or (before.lookup .config)
      pretty := (after.lookup .pretty).isSome || (before.lookup .pretty).isSome
      command }

end SegmentFlow.CommandLine

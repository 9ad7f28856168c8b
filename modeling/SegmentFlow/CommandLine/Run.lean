import SegmentFlow.Canvas.Connection
import SegmentFlow.Canvas.Report
import SegmentFlow.CommandLine.Arguments
import SegmentFlow.Workflow.Compiled
import SegmentFlow.Workflow.Migration
/-!
# What the command line does

A run depends on nothing but its arguments and the files that it reads; `run` gives all that it
prints and its exit status.
-/

namespace SegmentFlow.CommandLine

open Compile (Assembler Settings)

/-- Why a file could not be read. -/
inductive FileError where
  /-- The system refused, for a reason that has a number. -/
  | refused (reason : String) (number : Nat)
  | notText
  deriving DecidableEq

namespace FileError

def notFound : FileError := refused "No such file or directory" 2
def permissionDenied : FileError := refused "Permission denied" 13
def notDirectory : FileError := refused "Not a directory" 20
def isDirectory : FileError := refused "Is a directory" 21
def nameTooLong : FileError := refused "File name too long" 36

/-- The refusals that have a wording of their own. -/
def known : List (Nat × FileError) :=
  [(2, notFound), (13, permissionDenied), (20, notDirectory), (21, isDirectory), (36, nameTooLong)]

def message : FileError → String
  | refused reason number => reason ++ " (os error " ++ toString number ++ ")"
  | notText => "stream did not contain valid UTF-8"

end FileError

/-- The files that a run may read. -/
abbrev Files := String → Except FileError String

structure Outcome where
  exit : UInt32
  stdout : String
  /-- What goes to the error stream, given how long the run took. -/
  stderr : (elapsed : String) → String

/-- What the settings file holds. -/
structure Configuration where
  compiler : Settings
  geometry : Geometry
  deriving DecidableEq

namespace Configuration

def standard : Configuration := ⟨.standard, .standard⟩

variable {ε : Type}

def fields [Origin ε] : List (Field ε Configuration) :=
  [ .of "compiler" Settings.read fun v c => { c with compiler := v },
    .of "validator" Geometry.read fun v c => { c with geometry := v } ]

def read [Origin ε] : Shape ε Configuration :=
  Shape.record fields standard some

end Configuration

/-! ### Outcomes -/

def lines (ls : List String) : String :=
  String.join (ls.map (· ++ "\n"))

def success (stdout : String) (notes : String → List String) : Outcome :=
  ⟨0, stdout ++ "\n", fun elapsed => lines (notes elapsed)⟩

def failure (notes : List String) (message : String) : Outcome :=
  ⟨1, "", fun _ => lines (notes ++ ["", "Error: " ++ message])⟩

def usage : Outcome :=
  ⟨2, "", fun _ => lines
    [ "Usage: [--config FILE] [--pretty] COMMAND",
      "  compile CONDITIONS",
      "  workflow WORKFLOW",
      "  connect WORKFLOW SOURCE TARGET [--source-handle HANDLE] [--target-handle HANDLE]" ]⟩

def printed (pretty : Bool) (t : Json) : String :=
  if pretty then t.pretty else t.compact

/-! ### Files -/

def readFile (files : Files) (what path : String) : Except String String :=
  match files path with
  | .ok text => .ok text
  | .error e => .error ("Failed to read " ++ what ++ " file '" ++ path ++ "': " ++ e.message)

def readAs {α : Type} (shape : Shape Flaw α) (what text : String) : Except String α :=
  match (Reading.ofText shape text).value with
  | .ok a => .ok a
  | .error e => .error ("Failed to parse " ++ what ++ " JSON: " ++ e.message)

def configuration (files : Files) : Option String → Except String Configuration
  | none => .ok .standard
  | some path => do readAs Configuration.read "config" (← readFile files "config" path)

def workflowFile (files : Files) (path : String) : Except String Workflow := do
  match (Workflow.load (← readFile files "workflow" path)).value with
  | .ok w => .ok w
  | .error e => .error ("Failed to load workflow: " ++ e.message)

/-! ### Commands -/

def runCompile (files : Files) (c : Configuration) (pretty : Bool) (path : String) :
    Except String Outcome := do
  let conditions ←
    readAs (Shape.list Condition.read) "conditions" (← readFile files "conditions" path)
  let assembler : Assembler := ⟨c.compiler, FieldTables.standard.resolve⟩
  let document := (assembler.assemble conditions).value
  return success (printed pretty document.toJson) fun elapsed =>
    conditions.map (fun c => "  - " ++ c.summary)
      ++ ["Compiled " ++ toString conditions.length ++ " conditions in " ++ elapsed]

def runWorkflow (files : Files) (c : Configuration) (pretty : Bool) (path : String) :
    Except String Outcome := do
  let w ← workflowFile files path
  let report := w.graph.report
  let notes :=
    ("Workflow '" ++ w.name ++ "' (" ++ toString w.graph.nodes.length ++ " nodes, "
        ++ toString w.graph.edges.length ++ " edges)")
      :: report.issues.map fun i => "  " ++ i.display
  if report.isValid then
    let assembler : Assembler := ⟨c.compiler, FieldTables.standard.resolve⟩
    let queries := (assembler.queries w.graph).value
    return success (printed pretty (Compile.queriesToJson queries)) fun _ => notes
  else return failure notes ("Workflow is not valid: " ++ report.summary)

def runConnect (files : Files) (c : Configuration) (path : String) (connection : Connection) :
    Except String Outcome := do
  let w ← workflowFile files path
  let what := "Connection " ++ connection.source ++ " -> " ++ connection.target
  match c.geometry.check w.graph connection with
  | .ok () => return success (what ++ " is allowed") fun _ => []
  | .error r => return failure [] (what ++ " rejected: " ++ r.message)

def runCommand (files : Files) (i : Invocation) : Except String Outcome := do
  let c ← configuration files i.config
  match i.command with
  | .compile path => runCompile files c i.pretty path
  | .workflow path => runWorkflow files c i.pretty path
  | .connect path source target sourceHandle targetHandle =>
    runConnect files c path ⟨source, target, sourceHandle, targetHandle⟩

/-- All that a run does. -/
def run (files : Files) (arguments : List String) : Outcome :=
  match parse arguments with
  | none => usage
  | some i =>
    match runCommand files i with
    | .ok outcome => outcome
    | .error message => failure [] message

end SegmentFlow.CommandLine

import SegmentFlow.CommandLine.Run
/-!
# The command line

Reads the files that the arguments name, prints, and exits. All else is `CommandLine.run`.
-/

namespace SegmentFlow.CommandLine

/-- The refusal that a number stands for; some layers of the system give it as its negative in 32
bits. -/
def FileError.ofNumber (number : UInt32) (reason : String) : FileError :=
  let number := (min number (0 - number)).toNat
  (known.lookup number).getD (.refused reason number)

def FileError.ofSystem : IO.Error → FileError
  | .noFileOrDirectory _ number reason
  | .permissionDenied _ number reason
  | .inappropriateType _ number reason
  | .invalidArgument _ number reason => .ofNumber number reason
  | e => .refused (toString e) 0

def readTextFile (path : String) : IO (Except FileError String) := do
  try
    let bytes ← IO.FS.readBinFile path
    match String.fromUTF8? bytes with
    | some text => return .ok text
    | none => return .error .notText
  catch e => return .error (.ofSystem e)

/-- The files that the arguments name, as they are now. -/
def readFiles (arguments : List String) : IO Files := do
  let paths :=
    match parse arguments with
    | some i => i.paths
    | none => []
  let found ← paths.mapM fun path => return (path, ← readTextFile path)
  return fun path => (found.lookup path).getD (.error .notFound)

end SegmentFlow.CommandLine

open SegmentFlow in
def main (arguments : List String) : IO UInt32 := do
  let files ← CommandLine.readFiles arguments
  let start ← IO.monoNanosNow
  let outcome := CommandLine.run files arguments
  let stop ← IO.monoNanosNow
  IO.eprint (outcome.stderr (toString (stop - start) ++ "ns"))
  IO.print outcome.stdout
  return outcome.exit

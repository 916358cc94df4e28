import Vtl.CommandLine

namespace Vtl

namespace CommandLine

/-- The text of an operating system's error, with its number. -/
def systemError (text : String) (code : Nat) : String := s!"{text} (os error {code})"

/-- What an operating system says about a file that cannot be read. -/
def fileErrorText : IO.Error → String
  | .noFileOrDirectory .. => systemError "No such file or directory" 2
  | .permissionDenied _ code details => systemError details code.toNat
  | .inappropriateType _ code details => systemError details code.toNat
  | e => toString e

def readPath (path : String) : IO (Except String String) := do
  try
    let bytes ← IO.FS.readBinFile path
    match String.fromUTF8? bytes with
    | some text => pure (.ok text)
    | none => pure (.error "stream did not contain valid UTF-8")
  catch e => pure (.error (fileErrorText e))

/-- Reads the files that the options name. -/
def readPaths (options : Options) : IO FileReader := do
  let mut contents : List (String × Except String String) := []
  for path in [options.file, options.bindings].filterMap id do
    contents := (path, ← readPath path) :: contents
  let found := contents
  pure fun path => (found.lookup path).getD (.error (systemError "No such file or directory" 2))

def readInput (options : Options) : IO String :=
  if options.expression.isSome || options.file.isSome then pure ""
  else do (← IO.getStdin).readToEnd

/-- Whether a record is shown on the standard error. -/
def shows (debug : Bool) (record : LogRecord) : Bool :=
  match record.level with
  | .warn | .error => true
  | .debug | .info => debug
  | .trace => false

end CommandLine

end Vtl

open Vtl.CommandLine in
def main (args : List String) : IO UInt32 := do
  let asked := request args
  let (files, input, debug) ← match asked with
    | .run options => pure (← readPaths options, ← readInput options, options.debug)
    | _ => pure (fun _ => .error "", "", false)
  let result := asked.result files input
  for record in asked.log files input do
    if shows debug record then IO.eprintln record.line
  IO.eprint result.errors
  IO.print result.output
  pure (UInt32.ofNat result.exit)

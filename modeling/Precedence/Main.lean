import Precedence.CommandLine.Run

/-!
# The program

Runs the command line on the real file system.
-/

namespace Precedence

/-- The reason for a failure to read a file. A directory opens like a file and fails when it is
read, with code 21; a name with the character zero is refused before it is looked up, with
code 22. -/
def ReadError.ofIO : IO.Error → ReadError
  | .noFileOrDirectory _ _ _ => .notFound
  | .inappropriateType _ code _ => if code = 21 then .isDirectory else .notDirectory
  | .invalidArgument _ code _ => if code = 22 then .nulInPath else .nameTooLong
  | error => .other (toString error)

/-- Reads a file as text. -/
def readText (path : String) : IO (Except ReadError String) := do
  try
    let content ← IO.FS.readBinFile path
    match String.fromUTF8? content with
    | some text => return .ok text
    | none => return .error .notText
  catch error => return .error (.ofIO error)

end Precedence

/-- Runs the command line and exits with its code. -/
def main (arguments : List String) : IO UInt32 := do
  let outcome ← Precedence.CommandLine.run Precedence.readText arguments
  (← IO.getStdout).putStr outcome.output
  (← IO.getStderr).putStr outcome.errors
  return outcome.code.toUInt32

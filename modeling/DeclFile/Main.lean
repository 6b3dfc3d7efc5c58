import DeclFile.CommandLine

/-! # The program

Runs the command line on the files and streams of the system.
-/

namespace DeclFile.CommandLine

/-- The fault with a number of the system, which some of its calls report negated. -/
def ReadFault.ofCode (code : UInt32) (details : String) : ReadFault :=
  match (min code (0 - code)).toNat with
  | 2 => .missing
  | 13 => .denied
  | 20 => .notDirectory
  | 21 => .isDirectory
  | 36 => .nameTooLong
  | number => .other s!"{details} (os error {number})"

/-- The fault that the system reported. -/
def ReadFault.ofError : IO.Error → ReadFault
  | .noFileOrDirectory _ code details | .noSuchThing _ code details
  | .permissionDenied _ code details | .inappropriateType _ code details
  | .invalidArgument _ code details | .resourceExhausted _ code details => .ofCode code details
  | error => .other (toString error)

/-- The bytes of a file. -/
def readBytes (file : String) : IO (Except ReadFault ByteArray) := do
  try return .ok (← IO.FS.readBinFile file)
  catch error => return .error (.ofError error)

end DeclFile.CommandLine

open DeclFile.CommandLine in
def main (arguments : List String) : IO UInt32 := do
  let reply ← match ← run readBytes arguments with
    | .ok reply => pure reply
    | .error failure => pure failure.toReply
  IO.print reply.output
  IO.eprint reply.errors
  return reply.code

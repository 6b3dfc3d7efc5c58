import DeclFile.Invocation
import DeclFile.Package
import DeclFile.Report
import DeclFile.Settings
import DeclFile.Syntax.Encoding

/-! # The command line

A run reads the files that its arguments name, through whatever way of reading is given, and
answers with two texts and an exit code. What goes wrong is a `Failure` with a message.
-/

namespace DeclFile

namespace CommandLine

/-- Why a file could not be read as a text. -/
inductive ReadFault where
  | missing
  | denied
  | notDirectory
  | isDirectory
  | nameTooLong
  | notText
  | other (description : String)
deriving DecidableEq, Repr

/-- The description of a fault. -/
def ReadFault.message : ReadFault → String
  | .missing => "No such file or directory (os error 2)"
  | .denied => "Permission denied (os error 13)"
  | .notDirectory => "Not a directory (os error 20)"
  | .isDirectory => "Is a directory (os error 21)"
  | .nameTooLong => "File name too long (os error 36)"
  | .notText => "stream did not contain valid UTF-8"
  | .other description => description

/-- Why a run came to nothing. -/
inductive Failure where
  | misuse
  | unreadable (file : String) (fault : ReadFault)
  | unreadableSettings (file : String) (fault : ReadFault)
  | malformedSettings (file : String)
deriving DecidableEq, Repr

/-- What a run writes to its output and for errors, and its exit code. -/
structure Reply where
  code : UInt32 := 0
  output : String := ""
  errors : String := ""

/-- How the program is called. -/
def usage : String :=
  "Usage: husk-dts [-c FILE] parse FILE [--compact]
       husk-dts [-c FILE] classify FILE
       husk-dts [-c FILE] ident SPECIFIER
"

namespace Failure

/-- The exit code after a failure. -/
def code : Failure → UInt32
  | .misuse => 2
  | _ => 1

/-- The description of a failure. The fault of a settings file is named twice: as part of the
description and as its cause. -/
def message : Failure → String
  | .misuse => usage
  | .unreadable file fault => s!"error: failed to read {file}: {fault.message}\n"
  | .unreadableSettings file fault =>
      s!"error: failed to read {file}: {fault.message}: {fault.message}\n"
  | .malformedSettings file => s!"error: invalid parser configuration: {file}\n"

/-- The reply to a run that came to nothing. -/
def toReply (failure : Failure) : Reply :=
  { code := failure.code, errors := failure.message }

end Failure

section

variable {m : Type → Type} [Monad m]

/-- The text of a file, or the failure that `failure` makes of a fault. -/
def readText (read : String → m (Except ReadFault ByteArray)) (failure : ReadFault → Failure)
    (file : String) : ExceptT Failure m String := do
  match ← read file with
  | .error fault => throw (failure fault)
  | .ok bytes =>
      match String.fromUTF8? bytes with
      | some text => return text
      | none => throw (failure .notText)

/-- The limits in a settings file, if there is one. -/
def readLimits (read : String → m (Except ReadFault ByteArray)) :
    (settings? : Option String) → ExceptT Failure m Limits
  | none => return default
  | some file => do
      let text ← readText read (.unreadableSettings file) file
      match Settings.read? text with
      | some limits => return limits
      | none => throw (.malformedSettings file)

/-- Parses a file. The reply has the report of what was wrong and what `write` makes of the
rest. -/
def replyTo (read : String → m (Except ReadFault ByteArray)) (settings? : Option String)
    (file : String) (write : Parsed → String) : ExceptT Failure m Reply := do
  let limits ← readLimits read settings?
  let text ← readText read (.unreadable file) file
  let parsed := parse text ⟨0⟩ limits
  return { code := if parsed.hasErrors then 1 else 0
           output := write parsed ++ "\n"
           errors := renderDiagnostics file text parsed.diagnostics Report.snippet }

/-- Does what an invocation asks for. -/
def perform (read : String → m (Except ReadFault ByteArray)) :
    Invocation → ExceptT Failure m Reply
  | .version => return { output := "husk-dts 0.1.1\n" }
  | .help => return { output := usage }
  | .parse settings? file compact =>
      replyTo read settings? file fun parsed =>
        if compact then parsed.toJson.compact else parsed.toJson.pretty
  | .classify settings? file =>
      replyTo read settings? file fun parsed => (Buckets.ofModule parsed.module).toJson.pretty
  | .ident settings? specifier => do
      let _ ← readLimits read settings?
      return { output := Package.bindingName specifier ++ "\n" }

/-- Runs the program with the given arguments. -/
def run (read : String → m (Except ReadFault ByteArray)) (arguments : List String) :
    m (Except Failure Reply) :=
  ExceptT.run <|
    match Invocation.ofArguments? arguments with
    | some invocation => perform read invocation
    | none => throw .misuse

end

end CommandLine

end DeclFile

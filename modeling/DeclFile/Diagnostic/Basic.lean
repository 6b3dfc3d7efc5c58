import DeclFile.Position

/-! # Diagnostics

A diagnostic says what is wrong at a place, without stopping the reader. Forms that are
legal elsewhere but have no place in a declaration file are warnings; the rest are errors.
-/

namespace DeclFile

/-- What sort of problem a diagnostic reports. -/
inductive DiagnosticKind where
  /-- A certain token was needed. -/
  | expectedToken
  /-- A certain construct was needed. -/
  | expectedConstruct
  /-- A token or construct that cannot stand there. -/
  | unexpectedToken
  /-- The only possible reading failed. -/
  | ambiguous
  /-- A fault in the characters of the text. -/
  | lexical
  /-- A form that has no place in a declaration file. -/
  | unsupported
  /-- A limit of the reader was reached. -/
  | limitExceeded
deriving DecidableEq, Repr

/-- How reports name a kind of problem. -/
def DiagnosticKind.label : DiagnosticKind → String
  | .expectedToken => "expected token"
  | .expectedConstruct => "expected construct"
  | .unexpectedToken => "unexpected token"
  | .ambiguous => "ambiguous syntax"
  | .lexical => "lexical error"
  | .unsupported => "unsupported in declaration file"
  | .limitExceeded => "limit exceeded"

/-- The name of a kind of problem in data. -/
def DiagnosticKind.name : DiagnosticKind → String
  | .expectedToken => "ExpectedToken"
  | .expectedConstruct => "ExpectedConstruct"
  | .unexpectedToken => "UnexpectedToken"
  | .ambiguous => "Ambiguous"
  | .lexical => "Lexical"
  | .unsupported => "Unsupported"
  | .limitExceeded => "LimitExceeded"

/-- How bad a problem is. -/
inductive Severity where
  | warning
  | error
deriving DecidableEq, Repr

/-- How reports name a severity. -/
def Severity.label : Severity → String
  | .warning => "warning"
  | .error => "error"

/-- A problem at a place in the text. -/
structure Diagnostic where
  kind : DiagnosticKind
  span : Span
  message : String
deriving DecidableEq, Repr

namespace Diagnostic

/-- Only what is unsupported is a mere warning. -/
def severity (diagnostic : Diagnostic) : Severity :=
  if diagnostic.kind = .unsupported then .warning else .error

/-- A diagnostic on one line. -/
def render (diagnostic : Diagnostic) : String :=
  s!"{diagnostic.message} at {diagnostic.span.render}"

end Diagnostic

end DeclFile

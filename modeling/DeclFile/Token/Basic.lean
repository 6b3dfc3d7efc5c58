import DeclFile.Position
import DeclFile.Token.Kind

/-! # Tokens and lexical faults

A token carries its kind, its text and its span. The text of a string or template piece has
its escapes resolved and its delimiters removed; a bigint loses its final `n`; a directive
keeps what follows its slashes. Every other text is the source itself.
-/

namespace DeclFile

/-- One token of a source text. -/
structure Token where
  kind : Kind
  text : String
  span : Span
  /-- Whether a line ended between the token before and this one. -/
  newlineBefore : Bool
deriving DecidableEq, Repr, Inhabited

/-- What can be wrong with a stretch of text by itself. -/
inductive Fault where
  | unterminatedString
  | unterminatedTemplate
  | unterminatedComment
  | unexpectedChar (char : Char)
deriving DecidableEq, Repr

/-- The wording of a fault. -/
def Fault.message : Fault → String
  | .unterminatedString => "unterminated string literal"
  | .unterminatedTemplate => "unterminated template literal"
  | .unterminatedComment => "unterminated block comment"
  | .unexpectedChar char => s!"unexpected character `{char}`"

/-- A fault at its place in the source. -/
structure LexicalError where
  fault : Fault
  span : Span
deriving DecidableEq, Repr

end DeclFile

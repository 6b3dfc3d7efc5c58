import DeclFile.Limits
import DeclFile.Parser.Statement
import DeclFile.Reference

/-! # Parsed declaration files

Reading a text or a token source as a declaration file always gives a module; what was wrong
is in the diagnostics, the lexical errors of a text first. A text can also be read as a
single type.
-/

namespace DeclFile

/-- A declaration file and what was wrong with it. -/
structure Parsed where
  module : Module
  diagnostics : List Diagnostic

namespace Parsed

/-- Whether anything was an error and not a mere warning. -/
def hasErrors (parsed : Parsed) : Bool :=
  parsed.diagnostics.any (·.severity == .error)

end Parsed

section

variable {σ : Type} [TokenSource σ]

/-- The number of tokens of a source that exceeds the limit, if it is known to. -/
def excessTokens? (tokens : σ) (limits : Limits) : Option Nat :=
  (TokenSource.count? tokens).filter (limits.maxTokens < ·)

/-- The end of a module: the end of its text or of its last reference. -/
def moduleEnd (textEnd : Pos) (references : List Reference) : Pos :=
  match references.getLast? with
  | some reference => textEnd.later reference.span.stop
  | none => textEnd

/-- Reads tokens as a declaration file. A source with too many tokens is not read. -/
def parseTokens (tokens : σ) (source : SourceId) (limits : Limits) : Parsed :=
  match excessTokens? tokens limits with
  | some count =>
      let start := Span.point source .start
      ⟨⟨source, [], [], start⟩, [(Cause.tooManyTokens count limits.maxTokens).at start]⟩
  | none =>
      let directives := (TokenSource.directives tokens).map Reference.ofDirective
      let references := directives.filterMap Prod.fst
      let outcome := (grammar limits.maxDepth).run source limits.maxDepth
        (Parser.statements false .endOfText) tokens
      let stop := moduleEnd (TokenSource.peek outcome.rest).span.stop references
      ⟨⟨source, outcome.result?.getD [], references, ⟨source, .start, stop⟩⟩,
        directives.flatMap Prod.snd ++ outcome.reported⟩

end

/-- Reads a text as a declaration file. -/
def parse (text : String) (source : SourceId) (limits : Limits) : Parsed :=
  let lexed := lex text source
  let parsed := parseTokens (TokenStream.ofTokens lexed.tokens) source limits
  { parsed with diagnostics := lexed.errors.map LexicalError.toDiagnostic ++ parsed.diagnostics }

/-- Reads a text as a single type. -/
def parseType (text : String) : Option Ty × List Diagnostic :=
  let source : SourceId := ⟨0⟩
  let lexed := lex text source
  let limits : Limits := default
  let outcome := (grammar limits.maxDepth).run source limits.maxDepth Parser.wholeType
    (TokenStream.ofTokens lexed.tokens)
  (outcome.result?, lexed.errors.map LexicalError.toDiagnostic ++ outcome.reported)

end DeclFile

import DeclFile.Diagnostic.Basic
import DeclFile.Token.Basic

/-! # Causes of diagnostics

Everything that can be wrong with a declaration file, with the kind and the wording of each.
-/

namespace DeclFile

/-- The declarations that need `declare` or `export` in front at the top of a file. -/
inductive RuntimeDeclaration where
  | variable
  | function
  | «class»
deriving DecidableEq, Repr

/-- How messages refer to runtime declarations. -/
def RuntimeDeclaration.plural : RuntimeDeclaration → String
  | .variable => "variable declarations"
  | .function => "function declarations"
  | .class => "class declarations"

/-- The cause of a diagnostic. Many name the kind of token that was found instead. -/
inductive Cause where
  | lexical (fault : Fault)
  | malformedReference
  | tooManyTokens (count limit : Nat)
  | tooDeep (limit : Nat)
  | missingToken (wanted found : Kind)
  | missingIdentifier (found : Kind)
  | missingType (found : Kind)
  | missingPropertyName (found : Kind)
  | missingComputedName (found : Kind)
  | missingDeclaration (found : Kind)
  | missingMemberEnd (found : Kind)
  | unclosedSubstitution (found : Kind)
  | afterType (found : Kind)
  | loneTypeParameters
  | optionalTwice
  | optionalAfterType
  | duplicateModifier
  | getterParameters
  | setterWithoutParameter
  | setterParameters
  | setterResult
  | staticBlock
  | implementation
  | propertyInitializer
  | parameterInitializer
  | enumInitializer
  | assignedVariable
  | computedInitializer
  | computedDefaultExport
  | notAmbient (declaration : RuntimeDeclaration)
deriving DecidableEq, Repr

namespace Cause

/-- The kind of problem that a cause makes. -/
def kind : Cause → DiagnosticKind
  | .lexical _ => .lexical
  | .tooManyTokens .. | .tooDeep _ => .limitExceeded
  | .missingToken .. | .missingMemberEnd _ | .unclosedSubstitution _ => .expectedToken
  | .malformedReference | .missingIdentifier _ | .missingType _ | .missingPropertyName _
  | .missingComputedName _ | .setterWithoutParameter => .expectedConstruct
  | .missingDeclaration _ | .afterType _ | .optionalTwice | .optionalAfterType
  | .duplicateModifier | .getterParameters | .setterParameters | .setterResult =>
      .unexpectedToken
  | .loneTypeParameters => .ambiguous
  | .staticBlock | .implementation | .propertyInitializer | .parameterInitializer
  | .enumInitializer | .assignedVariable | .computedInitializer | .computedDefaultExport
  | .notAmbient _ => .unsupported

/-- The wording of a cause. -/
def message : Cause → String
  | .lexical fault => fault.message
  | .malformedReference =>
      "expected `path`, `types`, `lib` or `no-default-lib` in reference directive"
  | .tooManyTokens count limit =>
      s!"file has {count} tokens, more than the maximum of {limit}"
  | .tooDeep limit => s!"nesting exceeds the maximum depth of {limit}"
  | .missingToken wanted found => s!"expected {wanted.describe}, found {found.describe}"
  | .missingIdentifier found => s!"expected identifier, found {found.describe}"
  | .missingType found => s!"expected a type, found {found.describe}"
  | .missingPropertyName found => s!"expected a property name, found {found.describe}"
  | .missingComputedName found => s!"expected a computed property name, found {found.describe}"
  | .missingDeclaration found => s!"expected a declaration, found {found.describe}"
  | .missingMemberEnd found => s!"expected `;` or `,` after member, found {found.describe}"
  | .unclosedSubstitution found =>
      "expected `\x7d` closing a template substitution, found " ++ found.describe
  | .afterType found => s!"unexpected {found.describe} after type"
  | .loneTypeParameters => "`<` in type position must start a generic function type"
  | .optionalTwice =>
      "a labeled tuple element is already optional; remove the `?` after its type"
  | .optionalAfterType =>
      "labeled tuple elements mark optionality after the label, not the type"
  | .duplicateModifier => "duplicate modifier"
  | .getterParameters => "a getter cannot have parameters"
  | .setterWithoutParameter | .setterParameters => "a setter must have exactly one parameter"
  | .setterResult => "a setter cannot have a return type annotation"
  | .staticBlock => "static blocks are not allowed in declaration files"
  | .implementation => "implementations are not allowed in declaration files"
  | .propertyInitializer => "property initializers are not allowed in declaration files"
  | .parameterInitializer => "parameter initializers are not allowed in declaration files"
  | .enumInitializer => "enum initializers must be string or number literals"
  | .assignedVariable =>
      "only `const` declarations can have initializers in declaration files"
  | .computedInitializer => "initializers in declaration files must be literals"
  | .computedDefaultExport =>
      "default exports in declaration files must name a declaration or an identifier"
  | .notAmbient declaration =>
      s!"top-level {declaration.plural} in a declaration file must start with `declare` or `export`"

/-- The diagnostic of a cause at a place. -/
def «at» (cause : Cause) (span : Span) : Diagnostic :=
  ⟨cause.kind, span, cause.message⟩

end Cause

/-- A lexical error as a diagnostic. -/
def LexicalError.toDiagnostic (error : LexicalError) : Diagnostic :=
  (Cause.lexical error.fault).at error.span

end DeclFile

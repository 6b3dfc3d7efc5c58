/-! # Binding identifiers for packages

A package is imported by its specifier, which may hold characters that no identifier has.
-/

namespace DeclFile

namespace Package

/-- The characters of a specifier without its scope: `@scope/` in front is dropped, and a
specifier that is only a scope stays whole. -/
def unscoped (specifier : List Char) : List Char :=
  match specifier with
  | '@' :: name =>
      match name.dropWhile (· != '/') with
      | _ :: bare => bare
      | [] => specifier
  | _ => specifier

/-- Separators inside a specifier become underscores. -/
def identifierChar (c : Char) : Char :=
  if c == '/' || c == '-' || c == '.' then '_' else c

/-- The identifier that binds the package with the given specifier; one that would begin
with a digit gets an underscore in front. -/
def bindingName (specifier : String) : String :=
  let name := (unscoped specifier.toList).map identifierChar
  String.ofList (if name.head?.any Char.isDigit then '_' :: name else name)

end Package

end DeclFile

import DeclFile.Diagnostic.Cause
import DeclFile.Syntax.Statement
import DeclFile.Unicode.WhiteSpace

/-! # Reference directives

A directive such as `<reference path="x" />` names what a declaration file needs. The value
of an attribute is looked for in the text of the directive; of several attributes the first
in a fixed order of names counts.
-/

namespace DeclFile

open Unicode

namespace Reference

/-- The attributes that a directive may have, in the order in which they count. -/
def attributes : List (String × ReferenceKind) :=
  [("path", .path), ("types", .types), ("lib", .lib), ("no-default-lib", .noDefaultLib)]

/-- The text in front of `chars` that is in quotes, if its quotes are closed. -/
def quoted? : List Char → Option (List Char)
  | quote :: rest =>
      if (quote == '"' || quote == '\x27') && rest.contains quote then
        some (rest.takeWhile (· != quote))
      else none
  | [] => none

/-- The value of the first attribute called `name`, looked for from left to right; `skip`
characters belong to a name that was passed over, and `free` says whether a name may begin
here, which is at the front, after white space and after a name passed over. The first
attribute with an equals sign decides, even where its value has no quotes. -/
def valueFrom? (name : List Char) : (skip : Nat) → (free : Bool) → List Char → Option (List Char)
  | _, _, [] => none
  | skip + 1, free, _ :: rest => valueFrom? name skip free rest
  | 0, free, c :: rest =>
      if name.isPrefixOf (c :: rest) then
        match ((c :: rest).drop name.length).dropWhile isWhiteSpace with
        | '=' :: value =>
            if free then quoted? (value.dropWhile isWhiteSpace)
            else valueFrom? name (name.length - 1) true rest
        | _ => valueFrom? name (name.length - 1) true rest
      else valueFrom? name 0 (isWhiteSpace c) rest

/-- What begins the text of a reference directive. -/
def opening : List Char := "<reference".toList

/-- What a directive asks for, and the value it gives. -/
def read? (text : String) : Option (ReferenceKind × String) :=
  if opening.isPrefixOf text.toList then
    let body := text.toList.drop opening.length
    attributes.findSome? fun (name, kind) =>
      (valueFrom? name.toList 0 true body).map fun value => (kind, String.ofList value)
  else none

/-- The reference in a directive, or what is wrong with it. A directive of another sort has
neither. -/
def ofDirective (directive : Token) : Option Reference × List Diagnostic :=
  match read? directive.text with
  | some (kind, value) => (some ⟨kind, value, directive.span⟩, [])
  | none =>
      if opening.isPrefixOf directive.text.toList then
        (none, [Cause.malformedReference.at directive.span])
      else (none, [])

end Reference

end DeclFile

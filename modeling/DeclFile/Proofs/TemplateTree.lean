import DeclFile.Proofs.TypeTree

/-! # Template literals and the types in them

The types that are made of names, arrays, object types and template literals, nested in any way,
with the text that writes one on a single line and the tokens that it comes to. Of a template
literal the tokens are pieces: each one takes the text up to the next substitution.
-/

namespace DeclFile

/-- A word that is no keyword. -/
structure Identifier where
  first : Char
  more : List Char
  starts : isIdentifierStart first = true
  continues : ∀ c ∈ more, isIdentifierContinue c = true
  distinct : Keyword.ofSpelling? (String.ofList (first :: more)) = none

namespace Identifier

def chars (word : Identifier) : List Char := word.first :: word.more

def text (word : Identifier) : String := String.ofList word.chars

def symbol (word : Identifier) : Symbol := ⟨.identifier, word.text⟩

end Identifier

mutual

/-- A type in which substitutions may be nested. -/
inductive TemplateTree : Type
  | name (word : Identifier) (ordinary : word.text ≠ "intrinsic") : TemplateTree
  | array (element : TemplateTree) : TemplateTree
  | object (fields : FieldTrees) : TemplateTree
  | template (parts : PartTrees false) : TemplateTree

/-- The properties of an object type. -/
inductive FieldTrees : Type
  | nil : FieldTrees
  | cons (key : Identifier) (declared : TemplateTree) (more : FieldTrees) : FieldTrees

/-- The parts of a template literal behind a text or not: no two texts are adjacent, and none is
empty. -/
inductive PartTrees : (behindText : Bool) → Type
  | nil {behindText : Bool} : PartTrees behindText
  | text (text : String) (nonempty : text ≠ "") (more : PartTrees true) : PartTrees false
  | type {behindText : Bool} (type : TemplateTree) (more : PartTrees false) : PartTrees behindText

end

/-! ## The types that they are -/

mutual

/-- The type of the tree, without its place. -/
def TemplateTree.type : TemplateTree → Ty
  | .name word _ =>
      ⟨.reference ⟨⟨⟨word.text, default⟩, [], default⟩, none, default⟩, default⟩
  | .array element => ⟨.array element.type, default⟩
  | .object fields => ⟨.object fields.members, default⟩
  | .template parts => ⟨.template parts.parts, default⟩

def FieldTrees.members : FieldTrees → List Member
  | .nil => []
  | .cons key declared more =>
      ⟨.property (.ident ⟨key.text, default⟩) false false (some declared.type), default⟩ ::
        more.members

def PartTrees.parts {behindText : Bool} : PartTrees behindText → List TemplatePart
  | .nil => []
  | .text text _ more => .text text :: more.parts
  | .type type more => .type type.type :: more.parts

end

mutual

/-- How many levels of nesting reading the tree takes: one for the type itself, and one more for
the members of an object type. -/
def TemplateTree.levels : TemplateTree → Nat
  | .name _ _ => 1
  | .array element => element.levels
  | .object fields => fields.levels + 2
  | .template parts => parts.levels + 1

def FieldTrees.levels : FieldTrees → Nat
  | .nil => 0
  | .cons _ declared more => max declared.levels more.levels

def PartTrees.levels {behindText : Bool} : PartTrees behindText → Nat
  | .nil => 0
  | .text _ _ more => more.levels
  | .type type more => max type.levels more.levels

end

/-! ## How they are written -/

/-- The characters that have a meaning of their own in a template literal. -/
def isTemplateSpecial (c : Char) : Bool := c == '\\' || c == '\x60' || c == '$'

/-- A character of a template literal, with a backslash if it has a meaning of its own. -/
def escapeChar (c : Char) : List Char := if isTemplateSpecial c then ['\\', c] else [c]

/-- A text as it stands in a template literal. -/
def escapeText (text : String) : List Char := text.toList.flatMap escapeChar

mutual

/-- The tree as it is written on one line. -/
def TemplateTree.write : TemplateTree → List Char
  | .name word _ => word.chars
  | .array element => element.write ++ ['[', ']']
  | .object fields => '\x7b' :: ' ' :: (fields.write ++ ['\x7d'])
  | .template parts => '\x60' :: parts.write

def FieldTrees.write : FieldTrees → List Char
  | .nil => []
  | .cons key declared more =>
      key.chars ++ ':' :: ' ' :: (declared.write ++ ';' :: ' ' :: more.write)

/-- The parts with the backtick behind them. -/
def PartTrees.write {behindText : Bool} : PartTrees behindText → List Char
  | .nil => ['\x60']
  | .text text _ more => escapeText text ++ more.write
  | .type type more => '$' :: '\x7b' :: ' ' :: (type.write ++ ' ' :: '\x7d' :: more.write)

end

/-- The text of the tree. -/
def TemplateTree.source (tree : TemplateTree) : String := String.ofList tree.write

mutual

/-- The tokens of the tree. -/
def TemplateTree.symbols : TemplateTree → List Symbol
  | .name word _ => [word.symbol]
  | .array element => element.symbols ++ [.mark .openBracket, .mark .closeBracket]
  | .object fields => .mark .openBrace :: (fields.symbols ++ [.mark .closeBrace])
  | .template parts => parts.symbols .templateWhole .templateHead ""

def FieldTrees.symbols : FieldTrees → List Symbol
  | .nil => []
  | .cons key declared more =>
      key.symbol :: .mark .colon :: (declared.symbols ++ .mark .semicolon :: more.symbols)

/-- The pieces of a template literal from one on that begins with the text `before`: it is of the
kind `last` if the literal ends with it and of the kind `part` if a substitution follows. -/
def PartTrees.symbols {behindText : Bool} (parts : PartTrees behindText) (last part : Kind)
    (before : String) : List Symbol :=
  match parts with
  | .nil => [⟨last, before⟩]
  | .text text _ more => more.symbols last part (before ++ text)
  | .type type more =>
      ⟨part, before⟩ :: (type.symbols ++ more.symbols .templateTail .templateMiddle "")

end

end DeclFile

import DeclFile.Proofs.Quiet.Starts
import DeclFile.Proofs.StatementBlank
import DeclFile.Proofs.TypeTree

/-! # Members as they are written

What members of interfaces are made of, how they are written, and what they say. Their names may be
any words, those that are modifiers of members included. One after another, members are ended by
marks or by nothing but the end of the line.
-/

namespace DeclFile

/-! ## Names of members -/

/-- What stands between the brackets of a computed name. -/
inductive ComputedTree where
  | name (first : NameWord) (rest : List NameWord)
  | string (value : String)
  | number (digits : String)

namespace ComputedTree

def expr : ComputedTree → KeyExpr
  | .name first rest =>
      .name ⟨⟨first.text, default⟩, rest.map fun segment => ⟨segment.text, default⟩, default⟩
  | .string value => .string value
  | .number digits => .number digits

def write : ComputedTree → List Symbol
  | .name first rest =>
      first.symbol :: (rest.map NameWord.symbol).flatMap fun segment => [.mark .dot, segment]
  | .string value => [⟨.stringLiteral, value⟩]
  | .number digits => [⟨.numberLiteral, digits⟩]

end ComputedTree

/-- The name of a member. -/
inductive KeyTree where
  | word (word : NameWord)
  | string (value : String)
  | number (digits : String)
  /-- A `#name`, given without its mark. -/
  | privateName (name : String) (unmarked : name.toList.head? ≠ some '#')
  | computed (expr : ComputedTree)

namespace KeyTree

def name : KeyTree → PropertyName
  | .word found => .ident ⟨found.text, default⟩
  | .string value => .string ⟨value, default⟩
  | .number digits => .number digits default
  | .privateName name _ => .privateName ⟨name, default⟩
  | .computed expr => .computed expr.expr default

/-- The first symbol, which is the only one unless the name is computed. -/
def first : KeyTree → Symbol
  | .word found => found.symbol
  | .string value => ⟨.stringLiteral, value⟩
  | .number digits => ⟨.numberLiteral, digits⟩
  | .privateName name _ => ⟨.privateName, "#" ++ name⟩
  | .computed _ => .mark .openBracket

def rest : KeyTree → List Symbol
  | .computed expr => expr.write ++ [.mark .closeBracket]
  | _ => []

def write (key : KeyTree) : List Symbol := key.first :: key.rest

end KeyTree

/-! ## Members -/

/-- The parameters and the result of a method or function. -/
structure SignatureTree where
  params : List ParamTree
  result : TypeTree .full

namespace SignatureTree

def signature (tree : SignatureTree) : Signature :=
  ⟨[], tree.params.map ParamTree.param, some tree.result.type⟩

def write (tree : SignatureTree) : List Symbol :=
  .mark .openParen :: (commas (tree.params.map ParamTree.write) ++
    .mark .closeParen :: .mark .colon :: tree.result.write)

end SignatureTree

/-- A member of an interface. A method called `new` is optional, for without the question mark it is
a construct signature. -/
inductive MemberTree where
  | property (readonly : Bool) (key : KeyTree) (optional : Bool) (declared : TypeTree .full)
  | method (key : KeyTree) (optional : Bool) (signature : SignatureTree)
      (distinct : key.first.kind = .word .new → optional = true)
  | getter (key : KeyTree) (result : TypeTree .full)
  | setter (key : KeyTree) (param : ParamTree)
  | index (readonly : Bool) (name : BindingWord) (keyType declared : TypeTree .full)
  | call (signature : SignatureTree)
  | construct (signature : SignatureTree)

namespace MemberTree

def kind : MemberTree → MemberKind
  | .property readonly key optional declared =>
      .property key.name optional readonly (some declared.type)
  | .method key optional tree _ => .method key.name optional tree.signature
  | .getter key result => .getter key.name (some result.type)
  | .setter key param => .setter key.name param.param
  | .index readonly name keyType declared =>
      .index ⟨readonly, name.ident, keyType.type, declared.type⟩
  | .call tree => .call tree.signature
  | .construct tree => .construct tree.signature

/-- The member, without its place. -/
def member (tree : MemberTree) : Member := ⟨tree.kind, default⟩

def write : MemberTree → List Symbol
  | .property readonly key optional declared =>
      Symbol.onlyIf (.word .readonly) readonly ++ (key.write ++
        (Symbol.onlyIf (.mark .question) optional ++ .mark .colon :: declared.write))
  | .method key optional tree _ =>
      key.write ++ (Symbol.onlyIf (.mark .question) optional ++ tree.write)
  | .getter key result =>
      .word .get :: (key.write ++
        .mark .openParen :: .mark .closeParen :: .mark .colon :: result.write)
  | .setter key param =>
      .word .set :: (key.write ++ .mark .openParen :: (param.write ++ [.mark .closeParen]))
  | .index readonly name keyType declared =>
      Symbol.onlyIf (.word .readonly) readonly ++ (.mark .openBracket :: name.symbol ::
        .mark .colon :: (keyType.write ++ .mark .closeBracket :: .mark .colon :: declared.write))
  | .call tree => tree.write
  | .construct tree => .word .new :: tree.write

end MemberTree

/-! ## Lists of members -/

/-- What ends a member in front of the next one. -/
inductive MemberEnding where
  | semicolon | comma | lineBreak
deriving DecidableEq, Repr

namespace MemberEnding

def places : MemberEnding → List Placed
  | .semicolon => placeFreely [.mark .semicolon]
  | .comma => placeFreely [.mark .comma]
  | .lineBreak => []

/-- Whether the next member must begin a line. -/
def breaks : MemberEnding → Option Bool
  | .semicolon | .comma => none
  | .lineBreak => some true

end MemberEnding

structure EndedMember where
  tree : MemberTree
  ending : MemberEnding

/-- Members one after another, each on one line. -/
def placeMembers (line : Option Bool) : List EndedMember → List Placed
  | [] => []
  | ⟨tree, ending⟩ :: more =>
      placeLine line tree.write ++ (ending.places ++ placeMembers ending.breaks more)

/-- An interface with its members in braces. -/
def interfacePlaces (name : BindingWord) (members : List EndedMember) : List Placed :=
  placeFreely [.word .interface, name.symbol, .mark .openBrace] ++
    (placeMembers none members ++ placeFreely [.mark .closeBrace])

end DeclFile

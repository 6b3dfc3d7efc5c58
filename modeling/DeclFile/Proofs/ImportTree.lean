import DeclFile.Proofs.StatementBlank
import DeclFile.Proofs.TypeTree

/-! # Imports and exports as they are written

What imports, and lists of exported names, are made of, how they are written, and what they say.
Names come from other places than this module, so that most of them may be any words.
-/

namespace DeclFile

/-! ## Names -/

/-- What a module calls something that it exports: any word or a string. -/
inductive ModuleName where
  | word (word : NameWord)
  | string (value : String)

namespace ModuleName

def symbol : ModuleName → Symbol
  | .word found => found.symbol
  | .string value => ⟨.stringLiteral, value⟩

def ident (name : ModuleName) : Ident := ⟨name.symbol.text, default⟩

end ModuleName

/-- A dotted name; after the first dot the segments may be any words. -/
structure EntityTree where
  kind : Kind
  text : String
  opens : kind = .word .this ∨ kind.isBindingName = true
  rest : List NameWord

namespace EntityTree

def entity (tree : EntityTree) : EntityName :=
  ⟨⟨tree.text, default⟩, tree.rest.map fun segment => ⟨segment.text, default⟩, default⟩

def write (tree : EntityTree) : List Symbol :=
  ⟨tree.kind, tree.text⟩ ::
    (tree.rest.map NameWord.symbol).flatMap fun segment => [.mark .dot, segment]

end EntityTree

/-! ## Lists of names -/

/-- A name in an import or export, perhaps renamed. -/
structure SpecifierTree (Alias : Type) where
  typeOnly : Bool
  name : ModuleName
  renamed : Option Alias

namespace SpecifierTree

variable {Alias : Type}

/-- The specifier with its alias as a symbol. -/
def spelled (symbol : Alias → Symbol) (tree : SpecifierTree Alias) : SpecifierTree Symbol :=
  ⟨tree.typeOnly, tree.name, tree.renamed.map symbol⟩

/-- What stands after the name. -/
@[simp] def aliasClause : Option Symbol → List Symbol
  | none => []
  | some symbol => [.word .as, symbol]

def write (tree : SpecifierTree Symbol) : List Symbol :=
  Symbol.onlyIf (.word .type) tree.typeOnly ++ tree.name.symbol :: aliasClause tree.renamed

@[simp] theorem write_typeOnly (name : ModuleName) (renamed : Option Symbol) :
    write ⟨true, name, renamed⟩ = .word .type :: name.symbol :: aliasClause renamed := rfl

@[simp] theorem write_plain (name : ModuleName) (renamed : Option Symbol) :
    write ⟨false, name, renamed⟩ = name.symbol :: aliasClause renamed := rfl

/-- The name `type` with the alias `as` or a string, which looks type-only. -/
def looksTypeOnly (tree : SpecifierTree Symbol) : Bool :=
  !tree.typeOnly && tree.name.symbol.kind == .word .type &&
    tree.renamed.any fun symbol => symbol.kind == .word .as || symbol.kind == .stringLiteral

end SpecifierTree

abbrev ImportName := SpecifierTree BindingWord

abbrev ExportName := SpecifierTree ModuleName

/-- The specifier, without its place. -/
def ImportName.specifier (tree : ImportName) : ImportSpecifier :=
  ⟨tree.name.ident, (tree.renamed.map BindingWord.ident).getD tree.name.ident, tree.typeOnly, default⟩

/-- The specifier, without its place. -/
def ExportName.specifier (tree : ExportName) : ExportSpecifier :=
  ⟨tree.name.ident, tree.renamed.map ModuleName.ident, tree.typeOnly, default⟩

/-- Specifiers in braces; after the last one a comma may stand. -/
def specifierList (trees : List (SpecifierTree Symbol)) (trailing : Bool) : List Symbol :=
  .mark .openBrace :: (commaList trailing (trees.map SpecifierTree.write) ++ [.mark .closeBrace])

/-! ## Imports -/

/-- What an import binds besides a default. -/
inductive BindingsTree where
  | «namespace» (name : BindingWord)
  | named (names : List ImportName) (trailing : Bool)

namespace BindingsTree

def bindings : BindingsTree → ImportBindings
  | .namespace name => .namespace name.ident
  | .named names _ => .named (names.map ImportName.specifier)

def write : BindingsTree → List Symbol
  | .namespace name => [.mark .star, .word .as, name.symbol]
  | .named names trailing =>
      specifierList (names.map (SpecifierTree.spelled BindingWord.symbol)) trailing

/-- The names in braces. -/
def names : BindingsTree → List ImportName
  | .namespace _ => []
  | .named names _ => names

end BindingsTree

/-- What stands before the module in an import: a default, bindings or both. -/
inductive ClauseTree where
  | default (name : BindingWord)
  | bindings (bindings : BindingsTree)
  | both (name : BindingWord) (bindings : BindingsTree)

namespace ClauseTree

def default? : ClauseTree → Option BindingWord
  | .default name | .both name _ => some name
  | .bindings _ => none

def bindings? : ClauseTree → Option BindingsTree
  | .bindings tree | .both _ tree => some tree
  | .default _ => none

def write : ClauseTree → List Symbol
  | .default name => [name.symbol]
  | .bindings tree => tree.write
  | .both name tree => name.symbol :: .mark .comma :: tree.write

end ClauseTree

/-- What an equals sign in an import stands in front of. -/
inductive TargetTree where
  | require (specifier : String)
  | entity (name : EntityTree)

namespace TargetTree

def target : TargetTree → ImportTarget
  | .require specifier => .require ⟨specifier, default⟩
  | .entity name => .entity name.entity

def write : TargetTree → List Symbol
  | .require specifier =>
      [⟨.identifier, "require"⟩, .mark .openParen, ⟨.stringLiteral, specifier⟩, .mark .closeParen]
  | .entity name => name.write

end TargetTree

/-- What an import declares, after its keywords. -/
inductive ImportForm where
  | clause (clause : ClauseTree) (specifier : String)
  | equals (name : BindingWord) (target : TargetTree)

namespace ImportForm

def kind : ImportForm → ImportKind
  | .clause tree specifier =>
      .clause (tree.default?.map BindingWord.ident) (tree.bindings?.map BindingsTree.bindings)
        ⟨specifier, default⟩
  | .equals name target => .equals name.ident target.target

def write : ImportForm → List Symbol
  | .clause tree specifier => tree.write ++ [.word .from, ⟨.stringLiteral, specifier⟩]
  | .equals name target => name.symbol :: .mark .equals :: target.write

/-- The name that the whole module or an alias is bound to. -/
def name? : ImportForm → Option BindingWord
  | .clause tree _ => tree.default?
  | .equals name _ => some name

/-- The names in braces. -/
def names : ImportForm → List ImportName
  | .clause tree _ => (tree.bindings?.map BindingsTree.names).getD []
  | .equals _ _ => []

end ImportForm

/-- An import with its semicolon. -/
structure ImportTree where
  typeOnly : Bool
  form : ImportForm

namespace ImportTree

/-- The declaration, without its places. -/
def decl (tree : ImportTree) : ImportDecl := ⟨tree.typeOnly, tree.form.kind⟩

def write (tree : ImportTree) : List Symbol :=
  .word .import :: (Symbol.onlyIf (.word .type) tree.typeOnly ++
    (tree.form.write ++ [.mark .semicolon]))

end ImportTree

/-- A list of exported names with its semicolon. -/
def exportWrite (names : List ExportName) (trailing : Bool) : List Symbol :=
  .word .export ::
    (specifierList (names.map (SpecifierTree.spelled ModuleName.symbol)) trailing ++ [.mark .semicolon])

end DeclFile

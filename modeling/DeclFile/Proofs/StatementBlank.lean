import DeclFile.Proofs.Blank
import DeclFile.Syntax.Statement

/-! # Statements up to spans

The blank of a statement is the same with all spans in it forgotten, whatever is nested in it.
-/

namespace DeclFile

@[simp] def ClassMemberKind.blank : ClassMemberKind → ClassMemberKind
  | .constructor signature => .constructor signature.blank
  | .property key optional type => .property key.blank optional (blankOptionalType type)
  | .method key optional signature => .method key.blank optional signature.blank
  | .index shape => .index shape.blank
  | .getter key result => .getter key.blank (blankOptionalType result)
  | .setter key param => .setter key.blank param.blank

def ClassMember.blank (member : ClassMember) : ClassMember :=
  ⟨member.kind.blank, member.modifiers, default⟩

def Declarator.blank (declarator : Declarator) : Declarator :=
  ⟨declarator.name.blank, blankOptionalType declarator.type, declarator.init, default⟩

def VarDecl.blank (decl : VarDecl) : VarDecl :=
  ⟨decl.kind, decl.declarators.map Declarator.blank⟩

def FunctionDecl.blank (decl : FunctionDecl) : FunctionDecl :=
  ⟨decl.name.blank, decl.signature.blank⟩

def ClassDecl.blank (decl : ClassDecl) : ClassDecl :=
  ⟨decl.name.map Ident.blank, decl.isAbstract, blankTypeParams decl.typeParams,
    decl.extends?.map TypeRef.blank, decl.implemented.map TypeRef.blank,
    decl.members.map ClassMember.blank⟩

def InterfaceDecl.blank (decl : InterfaceDecl) : InterfaceDecl :=
  ⟨decl.name.blank, blankTypeParams decl.typeParams, decl.bases.map TypeRef.blank,
    decl.members.map Member.blank⟩

def TypeAlias.blank (decl : TypeAlias) : TypeAlias :=
  ⟨decl.name.blank, blankTypeParams decl.typeParams, decl.type.blank⟩

def EnumMember.blank (member : EnumMember) : EnumMember :=
  ⟨member.name.blank, member.init, default⟩

def EnumDecl.blank (decl : EnumDecl) : EnumDecl :=
  ⟨decl.isConst, decl.name.blank, decl.members.map EnumMember.blank⟩

def ImportSpecifier.blank (specifier : ImportSpecifier) : ImportSpecifier :=
  ⟨specifier.imported.blank, specifier.binding.blank, specifier.typeOnly, default⟩

def ImportBindings.blank : ImportBindings → ImportBindings
  | .namespace name => .namespace name.blank
  | .named specifiers => .named (specifiers.map ImportSpecifier.blank)

def ImportTarget.blank : ImportTarget → ImportTarget
  | .require specifier => .require specifier.blank
  | .entity name => .entity name.blank

def ImportKind.blank : ImportKind → ImportKind
  | .sideEffect specifier => .sideEffect specifier.blank
  | .clause default bindings specifier =>
      .clause (default.map Ident.blank) (bindings.map ImportBindings.blank) specifier.blank
  | .equals name target => .equals name.blank target.blank

def ImportDecl.blank (decl : ImportDecl) : ImportDecl := ⟨decl.typeOnly, decl.kind.blank⟩

def ExportSpecifier.blank (specifier : ExportSpecifier) : ExportSpecifier :=
  ⟨specifier.name.blank, specifier.exported.map Ident.blank, specifier.typeOnly, default⟩

mutual

@[simp] def Statement.blank : Statement → Statement
  | ⟨kind, _⟩ => ⟨kind.blank, default⟩

@[simp] def StatementKind.blank : StatementKind → StatementKind
  | .var decl => .var decl.blank
  | .function decl => .function decl.blank
  | .class decl => .class decl.blank
  | .interface decl => .interface decl.blank
  | .typeAlias decl => .typeAlias decl.blank
  | .enum decl => .enum decl.blank
  | .namespace name body => .namespace name.blank (blankStatements body)
  | .ambientModule name none => .ambientModule name.blank none
  | .ambientModule name (some body) => .ambientModule name.blank (some (blankStatements body))
  | .global body => .global (blankStatements body)
  | .import decl => .import decl.blank
  | .export exported => .export exported.blank
  | .ambient inner => .ambient inner.blank

@[simp] def Export.blank : Export → Export
  | .declaration inner => .declaration inner.blank
  | .defaultDeclaration inner => .defaultDeclaration inner.blank
  | .defaultName name => .defaultName name.blank
  | .named typeOnly specifiers specifier =>
      .named typeOnly (specifiers.map ExportSpecifier.blank) (specifier.map StringLit.blank)
  | .all typeOnly name? specifier => .all typeOnly (name?.map Ident.blank) specifier.blank
  | .assignment name => .assignment name.blank
  | .asNamespace name => .asNamespace name.blank

@[simp] def blankStatements : List Statement → List Statement
  | [] => []
  | statement :: statements => statement.blank :: blankStatements statements

end

end DeclFile

import DeclFile.Syntax.Type

/-! # The syntax of statements

Declarations, imports and exports, and the module they make up.
-/

namespace DeclFile

/-- The forms of a class member. -/
inductive ClassMemberKind where
  | constructor (signature : Signature)
  | property (key : PropertyName) (optional : Bool) (type : Option Ty)
  | method (key : PropertyName) (optional : Bool) (signature : Signature)
  | index (index : IndexSignature)
  | getter (key : PropertyName) (result : Option Ty)
  | setter (key : PropertyName) (param : Param)

/-- A class member with its modifiers. -/
structure ClassMember where
  kind : ClassMemberKind
  modifiers : Modifiers
  span : Span

/-- The word that opens a variable declaration. -/
inductive VarKind where
  | var | let | const
deriving DecidableEq, Repr

/-- One variable of a declaration. -/
structure Declarator where
  name : Ident
  type : Option Ty
  init : Option Literal
  span : Span

/-- `const a: A, b: B;` -/
structure VarDecl where
  kind : VarKind
  declarators : List Declarator

/-- Whether the declared variables cannot be assigned. -/
def VarDecl.isReadonly (decl : VarDecl) : Bool := decl.kind == .const

/-- `function name<T>(x: A): B;` -/
structure FunctionDecl where
  name : Ident
  signature : Signature

/-- `class Name<T> extends Base implements I { members }`; only a default export may leave
out the name. -/
structure ClassDecl where
  name : Option Ident
  isAbstract : Bool
  typeParams : List TypeParam
  extends? : Option TypeRef
  implemented : List TypeRef
  members : List ClassMember

/-- `interface Name<T> extends A, B { members }` -/
structure InterfaceDecl where
  name : Ident
  typeParams : List TypeParam
  bases : List TypeRef
  members : List Member

/-- `type Name<T> = Type;` -/
structure TypeAlias where
  name : Ident
  typeParams : List TypeParam
  type : Ty

/-- A member of an enumeration. -/
structure EnumMember where
  name : PropertyName
  init : Option Literal
  span : Span

/-- `enum Name { A, B = 1 }` -/
structure EnumDecl where
  isConst : Bool
  name : Ident
  members : List EnumMember

/-- `imported as local`; without an alias both are the same. -/
structure ImportSpecifier where
  imported : Ident
  binding : Ident
  typeOnly : Bool
  span : Span

/-- What an import clause binds besides a default. -/
inductive ImportBindings where
  | namespace (name : Ident)
  | named (specifiers : List ImportSpecifier)

/-- The right-hand side of `import x = ...`. -/
inductive ImportTarget where
  | require (specifier : StringLit)
  | entity (name : EntityName)

/-- The forms of an import. -/
inductive ImportKind where
  /-- `import "m";` -/
  | sideEffect (specifier : StringLit)
  /-- `import d, { a, b as c } from "m";` -/
  | clause (default : Option Ident) (bindings : Option ImportBindings) (specifier : StringLit)
  /-- `import x = require("m");` -/
  | equals (name : Ident) (target : ImportTarget)

/-- An import declaration. -/
structure ImportDecl where
  typeOnly : Bool
  kind : ImportKind

/-- `name as exported` -/
structure ExportSpecifier where
  name : Ident
  exported : Option Ident
  typeOnly : Bool
  span : Span

mutual

/-- A statement and where it was written. -/
structure Statement where
  kind : StatementKind
  span : Span

/-- The forms of a statement. -/
inductive StatementKind where
  | var (decl : VarDecl)
  | function (decl : FunctionDecl)
  | class (decl : ClassDecl)
  | interface (decl : InterfaceDecl)
  | typeAlias (decl : TypeAlias)
  | enum (decl : EnumDecl)
  /-- `namespace A.B { ... }` -/
  | namespace (name : EntityName) (body : List Statement)
  /-- `module "name" { ... }`, or `module "name";` without a body. -/
  | ambientModule (name : StringLit) (body : Option (List Statement))
  /-- `global { ... }` -/
  | global (body : List Statement)
  | import (decl : ImportDecl)
  | export (exported : Export)
  /-- `declare ...` -/
  | ambient (inner : Statement)

/-- The forms of an export. -/
inductive Export where
  /-- `export` in front of a declaration or import. -/
  | declaration (inner : Statement)
  /-- `export default` in front of a declaration. -/
  | defaultDeclaration (inner : Statement)
  /-- `export default A.B;` -/
  | defaultName (name : EntityName)
  /-- `export { a, b as c } from "m";` -/
  | named (typeOnly : Bool) (specifiers : List ExportSpecifier) (specifier : Option StringLit)
  /-- `export * as a from "m";` -/
  | all (typeOnly : Bool) (name? : Option Ident) (specifier : StringLit)
  /-- `export = A.B;` -/
  | assignment (name : EntityName)
  /-- `export as namespace A;` -/
  | asNamespace (name : Ident)

end

namespace Statement

/-- The statement beneath any `declare`. -/
def unwrapAmbient : Statement → Statement
  | ⟨.ambient inner, _⟩ => inner.unwrapAmbient
  | statement => statement

/-- Whether a statement is an export, perhaps beneath `declare`. -/
def isExport : Statement → Bool
  | ⟨.export _, _⟩ => true
  | ⟨.ambient inner, _⟩ => inner.isExport
  | _ => false

/-- The name that a statement introduces, if it introduces exactly one. -/
def declaredName? : Statement → Option String
  | ⟨.var decl, _⟩ =>
      match decl.declarators with
      | [only] => some only.name.name
      | _ => none
  | ⟨.function decl, _⟩ => some decl.name.name
  | ⟨.class decl, _⟩ => decl.name.map Ident.name
  | ⟨.interface decl, _⟩ => some decl.name.name
  | ⟨.typeAlias decl, _⟩ => some decl.name.name
  | ⟨.enum decl, _⟩ => some decl.name.name
  | ⟨.namespace name _, _⟩ => some name.last.name
  | ⟨.ambientModule name _, _⟩ => some name.value
  | ⟨.export (.declaration inner), _⟩ => inner.declaredName?
  | ⟨.ambient inner, _⟩ => inner.declaredName?
  | _ => none

end Statement

/-- What a reference directive asks for. -/
inductive ReferenceKind where
  | path | types | lib | noDefaultLib
deriving DecidableEq, Repr

/-- A reference directive. -/
structure Reference where
  kind : ReferenceKind
  value : String
  span : Span
deriving DecidableEq, Repr

/-- A whole declaration file. -/
structure Module where
  source : SourceId
  statements : List Statement
  references : List Reference
  span : Span

end DeclFile

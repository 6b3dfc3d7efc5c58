import DeclFile.Syntax.Name

/-! # The syntax of types

Types, and what types are made of: members of object types, parameters, signatures. Every
node keeps the span it was read from. Unions and intersections are lists of operands, and
parentheses are nodes of their own.
-/

namespace DeclFile

/-- The name of a parameter: an identifier, which may be `this`, or a destructuring pattern
of which only the span is kept. -/
inductive BindingName where
  | ident (ident : Ident)
  | pattern (span : Span)
deriving DecidableEq, Repr

namespace BindingName

/-- Where the name of a parameter was written. -/
def span : BindingName → Span
  | .ident id => id.span
  | .pattern place => place

/-- The identifier, unless it is a pattern. -/
def ident? : BindingName → Option Ident
  | .ident id => some id
  | .pattern _ => none

end BindingName

/-- What a mapped type does with a modifier: nothing, adding it, or removing it. -/
inductive MappedModifier where
  | none | add | remove
deriving DecidableEq, Repr

/-- What a type predicate speaks about. -/
inductive PredicateSubject where
  | ident (ident : Ident)
  | this (span : Span)
deriving DecidableEq, Repr

mutual

/-- A type and where it was written. -/
structure Ty where
  kind : TyKind
  span : Span

/-- The forms of a type. -/
inductive TyKind where
  | primitive (primitive : Primitive)
  | literal (literal : Literal)
  | reference (reference : TypeRef)
  /-- `T[]` -/
  | array (element : Ty)
  | tuple (elements : List TupleElement)
  | union (operands : List Ty)
  | intersection (operands : List Ty)
  | function (function : FunctionTy)
  | constructor (isAbstract : Bool) (function : FunctionTy)
  | object (members : List Member)
  | parenthesized (inner : Ty)
  /-- `T[K]` -/
  | indexedAccess (object index : Ty)
  /-- `T extends U ? A : B` -/
  | conditional (check bound whenTrue whenFalse : Ty)
  /-- `infer X extends C` -/
  | infer (param : Ident) (constraint : Option Ty)
  | mapped (mapped : MappedTy)
  | template (parts : List TemplatePart)
  | keyOf (operand : Ty)
  /-- `typeof x.y<T>` -/
  | typeOf (target : QueryTarget) (args : Option (List Ty))
  | importType (imported : ImportTy)
  /-- `x is T`, `asserts x`, `asserts x is T` -/
  | predicate (asserts : Bool) (subject : PredicateSubject) (type : Option Ty)
  | this
  /-- `...T` -/
  | rest (inner : Ty)
  /-- `T?` in a tuple -/
  | optional (inner : Ty)
  | readonly (operand : Ty)

/-- A named type with its arguments. -/
structure TypeRef where
  name : EntityName
  args : Option (List Ty)
  span : Span

/-- `<T>(x: A) => B` -/
structure FunctionTy where
  typeParams : List TypeParam
  params : List Param
  result : Ty

/-- `{ readonly [K in C as N]?: V }` -/
structure MappedTy where
  key : Ident
  constraint : Ty
  nameType : Option Ty
  readonly : MappedModifier
  optional : MappedModifier
  value : Option Ty

/-- A piece of a template literal type. -/
inductive TemplatePart where
  | text (text : String)
  | type (type : Ty)

/-- What `typeof` is applied to. -/
inductive QueryTarget where
  | name (name : EntityName)
  | imported (imported : ImportTy)

/-- `import("m").A.B<T>` -/
structure ImportTy where
  specifier : StringLit
  qualifier : Option EntityName
  args : Option (List Ty)

/-- An element of a tuple. Only labelled elements are marked optional or rest here; the
others carry the mark in their type. -/
structure TupleElement where
  label : Option Ident
  optional : Bool
  rest : Bool
  type : Ty
  span : Span

/-- `const in out T extends C = D` -/
structure TypeParam where
  name : Ident
  constraint : Option Ty
  default : Option Ty
  isIn : Bool
  isOut : Bool
  isConst : Bool
  span : Span

/-- A parameter of a function, method or constructor. -/
structure Param where
  name : BindingName
  type : Option Ty
  optional : Bool
  rest : Bool
  modifiers : Modifiers
  span : Span

/-- Type parameters, parameters and result, as functions and methods share them. -/
structure Signature where
  typeParams : List TypeParam
  params : List Param
  result : Option Ty

/-- `[key: K]: V` -/
structure IndexSignature where
  readonly : Bool
  param : Ident
  keyType : Ty
  type : Ty

/-- A member of an interface or object type. -/
structure Member where
  kind : MemberKind
  span : Span

/-- The forms of a member of an interface or object type. -/
inductive MemberKind where
  | call (signature : Signature)
  | construct (signature : Signature)
  | property (key : PropertyName) (optional : Bool) (readonly : Bool) (type : Option Ty)
  | method (key : PropertyName) (optional : Bool) (signature : Signature)
  | index (index : IndexSignature)
  | getter (key : PropertyName) (result : Option Ty)
  | setter (key : PropertyName) (param : Param)

end

instance : Inhabited Ty := ⟨⟨.this, default⟩⟩

end DeclFile

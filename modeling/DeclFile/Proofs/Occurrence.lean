import DeclFile.Syntax.Statement

/-! # What occurs in syntax

All types in a piece of syntax, however deep, and all statements in a module. Each is listed
with what it is there as, where that bears on the forms it may have.
-/

namespace DeclFile

/-- What a type stands as in what is around it. -/
inductive Role where
  /-- As the type of an element of a tuple. -/
  | element
  /-- As the result of a signature, a function type or a constructor type. -/
  | result
  | other
deriving DecidableEq, Repr

/-- A type somewhere in a piece of syntax. -/
structure Occurrence where
  role : Role
  type : Ty

/-! ## Types in types -/

mutual

/-- The type, which stands as `role`, and all types inside it. -/
@[simp] def Ty.occurrences (role : Role) : Ty → List Occurrence
  | ⟨kind, span⟩ => ⟨role, ⟨kind, span⟩⟩ :: kind.occurrences

/-- All types inside a type of this form. -/
@[simp] def TyKind.occurrences : TyKind → List Occurrence
  | .primitive _ | .literal _ | .this => []
  | .reference reference => reference.occurrences
  | .array inner | .parenthesized inner | .keyOf inner | .rest inner | .optional inner
  | .readonly inner => inner.occurrences .other
  | .tuple elements => elementOccurrences elements
  | .union operands | .intersection operands => typeOccurrences operands
  | .function function | .constructor _ function => function.occurrences
  | .object members => memberOccurrences members
  | .indexedAccess object index => object.occurrences .other ++ index.occurrences .other
  | .conditional check bound whenTrue whenFalse =>
      check.occurrences .other ++ bound.occurrences .other ++
        (whenTrue.occurrences .other ++ whenFalse.occurrences .other)
  | .infer _ constraint => optionalOccurrences .other constraint
  | .mapped mapped => mapped.occurrences
  | .template parts => templateOccurrences parts
  | .typeOf target args => target.occurrences ++ argOccurrences args
  | .importType imported => imported.occurrences
  | .predicate _ _ type => optionalOccurrences .other type

@[simp] def typeOccurrences : List Ty → List Occurrence
  | [] => []
  | type :: types => type.occurrences .other ++ typeOccurrences types

@[simp] def optionalOccurrences (role : Role) : Option Ty → List Occurrence
  | none => []
  | some type => type.occurrences role

@[simp] def argOccurrences : Option (List Ty) → List Occurrence
  | none => []
  | some args => typeOccurrences args

@[simp] def TypeRef.occurrences : TypeRef → List Occurrence
  | ⟨_, args, _⟩ => argOccurrences args

@[simp] def ImportTy.occurrences : ImportTy → List Occurrence
  | ⟨_, _, args⟩ => argOccurrences args

@[simp] def QueryTarget.occurrences : QueryTarget → List Occurrence
  | .name _ => []
  | .imported imported => imported.occurrences

@[simp] def templateOccurrences : List TemplatePart → List Occurrence
  | [] => []
  | .text _ :: parts => templateOccurrences parts
  | .type type :: parts => type.occurrences .other ++ templateOccurrences parts

@[simp] def TupleElement.occurrences : TupleElement → List Occurrence
  | ⟨_, _, _, type, _⟩ => type.occurrences .element

@[simp] def elementOccurrences : List TupleElement → List Occurrence
  | [] => []
  | element :: elements => element.occurrences ++ elementOccurrences elements

@[simp] def MappedTy.occurrences : MappedTy → List Occurrence
  | ⟨_, constraint, nameType, _, _, value⟩ =>
      constraint.occurrences .other ++ optionalOccurrences .other nameType ++
        optionalOccurrences .other value

@[simp] def TypeParam.occurrences : TypeParam → List Occurrence
  | ⟨_, constraint, default, _, _, _, _⟩ =>
      optionalOccurrences .other constraint ++ optionalOccurrences .other default

@[simp] def typeParamOccurrences : List TypeParam → List Occurrence
  | [] => []
  | param :: params => param.occurrences ++ typeParamOccurrences params

@[simp] def Param.occurrences : Param → List Occurrence
  | ⟨_, type, _, _, _, _⟩ => optionalOccurrences .other type

@[simp] def paramOccurrences : List Param → List Occurrence
  | [] => []
  | param :: params => param.occurrences ++ paramOccurrences params

@[simp] def FunctionTy.occurrences : FunctionTy → List Occurrence
  | ⟨typeParams, params, result⟩ =>
      typeParamOccurrences typeParams ++ paramOccurrences params ++ result.occurrences .result

@[simp] def Signature.occurrences : Signature → List Occurrence
  | ⟨typeParams, params, result⟩ =>
      typeParamOccurrences typeParams ++ paramOccurrences params ++
        optionalOccurrences .result result

@[simp] def IndexSignature.occurrences : IndexSignature → List Occurrence
  | ⟨_, _, keyType, type⟩ => keyType.occurrences .other ++ type.occurrences .other

@[simp] def MemberKind.occurrences : MemberKind → List Occurrence
  | .call signature | .construct signature | .method _ _ signature => signature.occurrences
  | .property _ _ _ type => optionalOccurrences .other type
  | .index shape => shape.occurrences
  | .getter _ result => optionalOccurrences .other result
  | .setter _ param => param.occurrences

@[simp] def Member.occurrences : Member → List Occurrence
  | ⟨kind, _⟩ => kind.occurrences

@[simp] def memberOccurrences : List Member → List Occurrence
  | [] => []
  | member :: members => member.occurrences ++ memberOccurrences members

end

theorem typeOccurrences_eq_flatMap (types : List Ty) :
    typeOccurrences types = types.flatMap (Ty.occurrences .other) := by
  induction types with
  | nil => simp
  | cons type types ih => simp [ih]

theorem elementOccurrences_eq_flatMap (elements : List TupleElement) :
    elementOccurrences elements = elements.flatMap TupleElement.occurrences := by
  induction elements with
  | nil => simp
  | cons element elements ih => simp [ih]

theorem typeParamOccurrences_eq_flatMap (params : List TypeParam) :
    typeParamOccurrences params = params.flatMap TypeParam.occurrences := by
  induction params with
  | nil => simp
  | cons param params ih => simp [ih]

theorem paramOccurrences_eq_flatMap (params : List Param) :
    paramOccurrences params = params.flatMap Param.occurrences := by
  induction params with
  | nil => simp
  | cons param params ih => simp [ih]

theorem memberOccurrences_eq_flatMap (members : List Member) :
    memberOccurrences members = members.flatMap Member.occurrences := by
  induction members with
  | nil => simp
  | cons member members ih => simp [ih]

@[simp] theorem templateOccurrences_append (first second : List TemplatePart) :
    templateOccurrences (first ++ second) =
      templateOccurrences first ++ templateOccurrences second := by
  induction first with
  | nil => simp
  | cons part parts ih => cases part <;> simp [ih]

/-! ## Types in declarations -/

def ClassMemberKind.occurrences : ClassMemberKind → List Occurrence
  | .constructor signature | .method _ _ signature => signature.occurrences
  | .property _ _ type => optionalOccurrences .other type
  | .index shape => shape.occurrences
  | .getter _ result => optionalOccurrences .other result
  | .setter _ param => param.occurrences

def Declarator.occurrences (declarator : Declarator) : List Occurrence :=
  optionalOccurrences .other declarator.type

def ClassDecl.occurrences (decl : ClassDecl) : List Occurrence :=
  typeParamOccurrences decl.typeParams ++
    (decl.extends?.toList ++ decl.implemented).flatMap TypeRef.occurrences ++
    decl.members.flatMap fun member => member.kind.occurrences

def InterfaceDecl.occurrences (decl : InterfaceDecl) : List Occurrence :=
  typeParamOccurrences decl.typeParams ++ decl.bases.flatMap TypeRef.occurrences ++
    memberOccurrences decl.members

def TypeAlias.occurrences (decl : TypeAlias) : List Occurrence :=
  typeParamOccurrences decl.typeParams ++ decl.type.occurrences .other

mutual

/-- All types in a statement, those in the statements inside it among them. -/
def Statement.occurrences : Statement → List Occurrence
  | ⟨kind, _⟩ => kind.occurrences

def StatementKind.occurrences : StatementKind → List Occurrence
  | .var decl => decl.declarators.flatMap Declarator.occurrences
  | .function decl => decl.signature.occurrences
  | .class decl => decl.occurrences
  | .interface decl => decl.occurrences
  | .typeAlias decl => decl.occurrences
  | .enum _ | .import _ => []
  | .namespace _ body | .global body => statementOccurrences body
  | .ambientModule _ none => []
  | .ambientModule _ (some body) => statementOccurrences body
  | .export exported => exported.occurrences
  | .ambient inner => inner.occurrences

def Export.occurrences : Export → List Occurrence
  | .declaration inner | .defaultDeclaration inner => inner.occurrences
  | .defaultName _ | .named _ _ _ | .all _ _ _ | .assignment _ | .asNamespace _ => []

def statementOccurrences : List Statement → List Occurrence
  | [] => []
  | statement :: statements => statement.occurrences ++ statementOccurrences statements

end

/-- All types in a module. -/
def Module.occurrences (module : Module) : List Occurrence :=
  statementOccurrences module.statements

/-! ## Statements in statements -/

/-- A statement somewhere in a module. -/
structure Standing where
  /-- Whether it stands directly behind `export default`. -/
  isDefault : Bool
  statement : Statement

mutual

/-- The statement, which stands behind `export default` or not, and all statements inside. -/
def Statement.standings (isDefault : Bool) : Statement → List Standing
  | ⟨kind, span⟩ => ⟨isDefault, ⟨kind, span⟩⟩ :: kind.standings

/-- All statements inside a statement of this form. -/
def StatementKind.standings : StatementKind → List Standing
  | .var _ | .function _ | .class _ | .interface _ | .typeAlias _ | .enum _ | .import _ => []
  | .namespace _ body | .global body => standingsOf body
  | .ambientModule _ none => []
  | .ambientModule _ (some body) => standingsOf body
  | .export exported => exported.standings
  | .ambient inner => inner.standings false

def Export.standings : Export → List Standing
  | .declaration inner => inner.standings false
  | .defaultDeclaration inner => inner.standings true
  | .defaultName _ | .named _ _ _ | .all _ _ _ | .assignment _ | .asNamespace _ => []

def standingsOf : List Statement → List Standing
  | [] => []
  | statement :: statements => statement.standings false ++ standingsOf statements

end

/-- All statements in a module. -/
def Module.standings (module : Module) : List Standing := standingsOf module.statements

end DeclFile

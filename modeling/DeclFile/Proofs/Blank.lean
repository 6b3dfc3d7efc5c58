import DeclFile.Syntax.Type

/-! # Syntax up to spans

The blank of a piece of syntax is the same with all of its spans forgotten. Two pieces that
were read at different places are equal up to spans if their blanks are equal.
-/

namespace DeclFile

def Ident.blank (ident : Ident) : Ident := { ident with span := default }

def StringLit.blank (literal : StringLit) : StringLit := { literal with span := default }

def EntityName.blank (name : EntityName) : EntityName :=
  ⟨name.first.blank, name.rest.map Ident.blank, default⟩

def KeyExpr.blank : KeyExpr → KeyExpr
  | .name entity => .name entity.blank
  | .string value => .string value
  | .number value => .number value

def PropertyName.blank : PropertyName → PropertyName
  | .ident id => .ident id.blank
  | .string literal => .string literal.blank
  | .number value _ => .number value default
  | .computed expr _ => .computed expr.blank default
  | .privateName id => .privateName id.blank

def BindingName.blank : BindingName → BindingName
  | .ident id => .ident id.blank
  | .pattern _ => .pattern default

def PredicateSubject.blank : PredicateSubject → PredicateSubject
  | .ident id => .ident id.blank
  | .this _ => .this default

mutual

@[simp] def Ty.blank : Ty → Ty
  | ⟨kind, _⟩ => ⟨kind.blank, default⟩

@[simp] def TyKind.blank : TyKind → TyKind
  | .primitive primitive => .primitive primitive
  | .literal literal => .literal literal
  | .reference reference => .reference reference.blank
  | .array element => .array element.blank
  | .tuple elements => .tuple (blankElements elements)
  | .union operands => .union (blankTypes operands)
  | .intersection operands => .intersection (blankTypes operands)
  | .function function => .function function.blank
  | .constructor isAbstract function => .constructor isAbstract function.blank
  | .object members => .object (blankMembers members)
  | .parenthesized inner => .parenthesized inner.blank
  | .indexedAccess object index => .indexedAccess object.blank index.blank
  | .conditional check bound whenTrue whenFalse =>
      .conditional check.blank bound.blank whenTrue.blank whenFalse.blank
  | .infer param constraint => .infer param.blank (blankOptionalType constraint)
  | .mapped mapped => .mapped mapped.blank
  | .template parts => .template (blankTemplate parts)
  | .keyOf operand => .keyOf operand.blank
  | .typeOf target args => .typeOf target.blank (blankArgs args)
  | .importType imported => .importType imported.blank
  | .predicate asserts subject type =>
      .predicate asserts subject.blank (blankOptionalType type)
  | .this => .this
  | .rest inner => .rest inner.blank
  | .optional inner => .optional inner.blank
  | .readonly operand => .readonly operand.blank

@[simp] def blankTypes : List Ty → List Ty
  | [] => []
  | type :: types => type.blank :: blankTypes types

@[simp] def blankOptionalType : Option Ty → Option Ty
  | none => none
  | some type => some type.blank

@[simp] def blankArgs : Option (List Ty) → Option (List Ty)
  | none => none
  | some args => some (blankTypes args)

@[simp] def TypeRef.blank : TypeRef → TypeRef
  | ⟨name, args, _⟩ => ⟨name.blank, blankArgs args, default⟩

@[simp] def FunctionTy.blank : FunctionTy → FunctionTy
  | ⟨typeParams, params, result⟩ =>
      ⟨blankTypeParams typeParams, blankParams params, result.blank⟩

@[simp] def MappedTy.blank : MappedTy → MappedTy
  | ⟨key, constraint, nameType, readonly, optional, value⟩ =>
      ⟨key.blank, constraint.blank, blankOptionalType nameType, readonly, optional,
        blankOptionalType value⟩

@[simp] def blankTemplate : List TemplatePart → List TemplatePart
  | [] => []
  | .text text :: parts => .text text :: blankTemplate parts
  | .type type :: parts => .type type.blank :: blankTemplate parts

@[simp] def QueryTarget.blank : QueryTarget → QueryTarget
  | .name entity => .name entity.blank
  | .imported imported => .imported imported.blank

@[simp] def ImportTy.blank : ImportTy → ImportTy
  | ⟨specifier, qualifier, args⟩ =>
      ⟨specifier.blank, qualifier.map EntityName.blank, blankArgs args⟩

@[simp] def TupleElement.blank : TupleElement → TupleElement
  | ⟨label, optional, rest, type, _⟩ =>
      ⟨label.map Ident.blank, optional, rest, type.blank, default⟩

@[simp] def blankElements : List TupleElement → List TupleElement
  | [] => []
  | element :: elements => element.blank :: blankElements elements

@[simp] def TypeParam.blank : TypeParam → TypeParam
  | ⟨name, constraint, fallback, isIn, isOut, isConst, _⟩ =>
      ⟨name.blank, blankOptionalType constraint, blankOptionalType fallback, isIn, isOut, isConst,
        default⟩

@[simp] def blankTypeParams : List TypeParam → List TypeParam
  | [] => []
  | param :: params => param.blank :: blankTypeParams params

@[simp] def Param.blank : Param → Param
  | ⟨name, type, optional, rest, modifiers, _⟩ =>
      ⟨name.blank, blankOptionalType type, optional, rest, modifiers, default⟩

@[simp] def blankParams : List Param → List Param
  | [] => []
  | param :: params => param.blank :: blankParams params

@[simp] def Signature.blank : Signature → Signature
  | ⟨typeParams, params, result⟩ =>
      ⟨blankTypeParams typeParams, blankParams params, blankOptionalType result⟩

@[simp] def IndexSignature.blank : IndexSignature → IndexSignature
  | ⟨readonly, param, keyType, type⟩ => ⟨readonly, param.blank, keyType.blank, type.blank⟩

@[simp] def MemberKind.blank : MemberKind → MemberKind
  | .call signature => .call signature.blank
  | .construct signature => .construct signature.blank
  | .property key optional readonly type =>
      .property key.blank optional readonly (blankOptionalType type)
  | .method key optional signature => .method key.blank optional signature.blank
  | .index shape => .index shape.blank
  | .getter key result => .getter key.blank (blankOptionalType result)
  | .setter key param => .setter key.blank param.blank

@[simp] def Member.blank : Member → Member
  | ⟨kind, _⟩ => ⟨kind.blank, default⟩

@[simp] def blankMembers : List Member → List Member
  | [] => []
  | member :: members => member.blank :: blankMembers members

end

theorem blankTypes_eq_map (types : List Ty) : blankTypes types = types.map Ty.blank := by
  induction types with
  | nil => simp [blankTypes]
  | cons type types ih => simp [blankTypes, ih]

theorem blankElements_eq_map (elements : List TupleElement) :
    blankElements elements = elements.map TupleElement.blank := by
  induction elements with
  | nil => simp [blankElements]
  | cons element elements ih => simp [blankElements, ih]

theorem blankParams_eq_map (params : List Param) : blankParams params = params.map Param.blank := by
  induction params with
  | nil => simp [blankParams]
  | cons param params ih => simp [blankParams, ih]

theorem blankMembers_eq_map (members : List Member) :
    blankMembers members = members.map Member.blank := by
  induction members with
  | nil => simp [blankMembers]
  | cons member members ih => simp [blankMembers, ih]

theorem blankTemplate_append (first second : List TemplatePart) :
    blankTemplate (first ++ second) = blankTemplate first ++ blankTemplate second := by
  induction first with
  | nil => rfl
  | cons part parts ih => cases part <;> simp [ih]

end DeclFile

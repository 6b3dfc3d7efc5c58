import DeclFile.Syntax.Statement
import DeclFile.Token.Kind

/-! # Outlines of syntax

The outline of a piece of syntax is the tree of the spans in it. It lists the parts of each
node in the order in which they are written, whatever they are, and keeps apart the members
or statements that stand between the braces of a body.
-/

namespace DeclFile

/-- A span with the outlines of what has a span in it. -/
inductive Outline where
  | plain (span : Span) (parts : List Outline)
  /-- A node that ends with a body in braces. The head stands in front of the opening brace,
  and the separators are the marks that may stand between the elements of the body. -/
  | braced (span : Span) (separators : List Mark) (head elements : List Outline)

namespace Outline

def span : Outline → Span
  | .plain span _ | .braced span _ _ _ => span

@[simp] theorem span_plain (span : Span) (parts : List Outline) : (plain span parts).span = span :=
  rfl

/-- The outlines directly inside, in the order in which they are written. -/
def parts : Outline → List Outline
  | .plain _ parts => parts
  | .braced _ _ head elements => head ++ elements

mutual

/-- The outline and all outlines inside it. -/
def nodes : Outline → List Outline
  | .plain span parts => .plain span parts :: nodesOf parts
  | .braced span separators head elements =>
      .braced span separators head elements :: (nodesOf head ++ nodesOf elements)

/-- The nodes of several outlines. -/
def nodesOf : List Outline → List Outline
  | [] => []
  | outline :: outlines => outline.nodes ++ nodesOf outlines

end

@[simp] theorem nodesOf_append (first second : List Outline) :
    nodesOf (first ++ second) = nodesOf first ++ nodesOf second := by
  induction first with
  | nil => simp [nodesOf]
  | cons outline outlines ih => simp [nodesOf, ih]

theorem nodes_eq (outline : Outline) : outline.nodes = outline :: nodesOf outline.parts := by
  cases outline <;> simp [nodes, parts]

theorem mem_nodesOf {outline : Outline} {outlines : List Outline} (h : outline ∈ outlines) :
    outline ∈ nodesOf outlines := by
  induction outlines with
  | nil => exact absurd h List.not_mem_nil
  | cons first rest ih =>
      rw [nodesOf, nodes_eq]
      obtain rfl | h := List.mem_cons.mp h
      · exact List.mem_append_left _ List.mem_cons_self
      · exact List.mem_append_right _ (ih h)

end Outline

/-! ## Names -/

def Ident.outline (ident : Ident) : Outline := .plain ident.span []

def StringLit.outline (literal : StringLit) : Outline := .plain literal.span []

def EntityName.outline (name : EntityName) : Outline :=
  .plain name.span (name.segments.map Ident.outline)

def KeyExpr.parts : KeyExpr → List Outline
  | .name entity => [entity.outline]
  | .string _ | .number _ => []

def PropertyName.outline : PropertyName → Outline
  | .ident id | .privateName id => id.outline
  | .string literal => literal.outline
  | .number _ span => .plain span []
  | .computed expr span => .plain span expr.parts

def BindingName.outline (name : BindingName) : Outline := .plain name.span []

def PredicateSubject.outline : PredicateSubject → Outline
  | .ident id => id.outline
  | .this span => .plain span []

/-! ## Types -/

mutual

@[simp] def Ty.outline : Ty → Outline
  | ⟨kind, span⟩ => kind.outline span

/-- The outline of a type of this form with the given span. -/
@[simp] def TyKind.outline (span : Span) : TyKind → Outline
  | .primitive _ | .literal _ | .this => .plain span []
  | .reference reference => .plain span [reference.outline]
  | .array inner | .parenthesized inner | .keyOf inner | .rest inner | .optional inner
  | .readonly inner => .plain span [inner.outline]
  | .tuple elements => .plain span (elementOutlines elements)
  | .union operands | .intersection operands => .plain span (typeOutlines operands)
  | .function function | .constructor _ function => .plain span function.parts
  | .object members => .braced span [.semicolon, .comma] [] (memberOutlines members)
  | .indexedAccess object index => .plain span [object.outline, index.outline]
  | .conditional check bound whenTrue whenFalse =>
      .plain span [check.outline, bound.outline, whenTrue.outline, whenFalse.outline]
  | .infer param constraint => .plain span (param.outline :: optionalTypeOutline constraint)
  | .mapped mapped => .plain span mapped.parts
  | .template parts => .plain span (templateOutlines parts)
  | .typeOf target args => .plain span (target.parts ++ argOutlines args)
  | .importType imported => .plain span imported.parts
  | .predicate _ subject type => .plain span (subject.outline :: optionalTypeOutline type)

@[simp] def typeOutlines : List Ty → List Outline
  | [] => []
  | type :: types => type.outline :: typeOutlines types

@[simp] def optionalTypeOutline : Option Ty → List Outline
  | none => []
  | some type => [type.outline]

@[simp] def argOutlines : Option (List Ty) → List Outline
  | none => []
  | some args => typeOutlines args

@[simp] def TypeRef.outline : TypeRef → Outline
  | ⟨name, args, span⟩ => .plain span (name.outline :: argOutlines args)

@[simp] def ImportTy.parts : ImportTy → List Outline
  | ⟨specifier, qualifier, args⟩ =>
      specifier.outline :: (qualifier.toList.map EntityName.outline ++ argOutlines args)

@[simp] def QueryTarget.parts : QueryTarget → List Outline
  | .name entity => [entity.outline]
  | .imported imported => imported.parts

@[simp] def templateOutlines : List TemplatePart → List Outline
  | [] => []
  | .text _ :: parts => templateOutlines parts
  | .type type :: parts => type.outline :: templateOutlines parts

@[simp] def TupleElement.outline : TupleElement → Outline
  | ⟨label, _, _, type, span⟩ => .plain span (label.toList.map Ident.outline ++ [type.outline])

@[simp] def elementOutlines : List TupleElement → List Outline
  | [] => []
  | element :: elements => element.outline :: elementOutlines elements

@[simp] def MappedTy.parts : MappedTy → List Outline
  | ⟨key, constraint, nameType, _, _, value⟩ =>
      key.outline :: constraint.outline :: (optionalTypeOutline nameType ++ optionalTypeOutline value)

@[simp] def TypeParam.outline : TypeParam → Outline
  | ⟨name, constraint, default, _, _, _, span⟩ =>
      .plain span (name.outline :: (optionalTypeOutline constraint ++ optionalTypeOutline default))

@[simp] def typeParamOutlines : List TypeParam → List Outline
  | [] => []
  | param :: params => param.outline :: typeParamOutlines params

@[simp] def Param.outline : Param → Outline
  | ⟨name, type, _, _, _, span⟩ => .plain span (name.outline :: optionalTypeOutline type)

@[simp] def paramOutlines : List Param → List Outline
  | [] => []
  | param :: params => param.outline :: paramOutlines params

@[simp] def FunctionTy.parts : FunctionTy → List Outline
  | ⟨typeParams, params, result⟩ =>
      typeParamOutlines typeParams ++ paramOutlines params ++ [result.outline]

@[simp] def Signature.parts : Signature → List Outline
  | ⟨typeParams, params, result⟩ =>
      typeParamOutlines typeParams ++ paramOutlines params ++ optionalTypeOutline result

@[simp] def IndexSignature.parts : IndexSignature → List Outline
  | ⟨_, param, keyType, type⟩ => [param.outline, keyType.outline, type.outline]

@[simp] def MemberKind.parts : MemberKind → List Outline
  | .call signature | .construct signature => signature.parts
  | .property key _ _ type => key.outline :: optionalTypeOutline type
  | .method key _ signature => key.outline :: signature.parts
  | .index shape => shape.parts
  | .getter key result => key.outline :: optionalTypeOutline result
  | .setter key param => [key.outline, param.outline]

@[simp] def Member.outline : Member → Outline
  | ⟨kind, span⟩ => .plain span kind.parts

@[simp] def memberOutlines : List Member → List Outline
  | [] => []
  | member :: members => member.outline :: memberOutlines members

end

theorem Ty.span_outline (type : Ty) : type.outline.span = type.span := by
  obtain ⟨kind, span⟩ := type
  cases kind <;> simp [Ty.outline, TyKind.outline, Outline.span]

theorem typeOutlines_eq_map (types : List Ty) : typeOutlines types = types.map Ty.outline := by
  induction types with
  | nil => simp [typeOutlines]
  | cons type types ih => simp [typeOutlines, ih]

theorem elementOutlines_eq_map (elements : List TupleElement) :
    elementOutlines elements = elements.map TupleElement.outline := by
  induction elements with
  | nil => simp [elementOutlines]
  | cons element elements ih => simp [elementOutlines, ih]

theorem typeParamOutlines_eq_map (params : List TypeParam) :
    typeParamOutlines params = params.map TypeParam.outline := by
  induction params with
  | nil => simp [typeParamOutlines]
  | cons param params ih => simp [typeParamOutlines, ih]

theorem paramOutlines_eq_map (params : List Param) :
    paramOutlines params = params.map Param.outline := by
  induction params with
  | nil => simp [paramOutlines]
  | cons param params ih => simp [paramOutlines, ih]

theorem memberOutlines_eq_map (members : List Member) :
    memberOutlines members = members.map Member.outline := by
  induction members with
  | nil => simp [memberOutlines]
  | cons member members ih => simp [memberOutlines, ih]

@[simp] theorem templateOutlines_append (first second : List TemplatePart) :
    templateOutlines (first ++ second) = templateOutlines first ++ templateOutlines second := by
  induction first with
  | nil => simp [templateOutlines]
  | cons part parts ih => cases part <;> simp [templateOutlines, ih]

/-! ## Declarations -/

def ClassMemberKind.parts : ClassMemberKind → List Outline
  | .constructor signature => signature.parts
  | .property key _ type => key.outline :: optionalTypeOutline type
  | .method key _ signature => key.outline :: signature.parts
  | .index shape => shape.parts
  | .getter key result => key.outline :: optionalTypeOutline result
  | .setter key param => [key.outline, param.outline]

def ClassMember.outline (member : ClassMember) : Outline := .plain member.span member.kind.parts

def Declarator.outline (declarator : Declarator) : Outline :=
  .plain declarator.span (declarator.name.outline :: optionalTypeOutline declarator.type)

/-- What stands in front of the body of a class. -/
def ClassDecl.head (decl : ClassDecl) : List Outline :=
  decl.name.toList.map Ident.outline ++ typeParamOutlines decl.typeParams ++
    decl.extends?.toList.map TypeRef.outline ++ decl.implemented.map TypeRef.outline

/-- What stands in front of the body of an interface. -/
def InterfaceDecl.head (decl : InterfaceDecl) : List Outline :=
  decl.name.outline :: (typeParamOutlines decl.typeParams ++ decl.bases.map TypeRef.outline)

def TypeAlias.parts (decl : TypeAlias) : List Outline :=
  decl.name.outline :: (typeParamOutlines decl.typeParams ++ [decl.type.outline])

def EnumMember.outline (member : EnumMember) : Outline :=
  .plain member.span [member.name.outline]

/-- The outline of an import specifier. Without an alias its two names are one. -/
def ImportSpecifier.outline (specifier : ImportSpecifier) : Outline :=
  .plain specifier.span (specifier.imported.outline ::
    if specifier.binding = specifier.imported then [] else [specifier.binding.outline])

def ImportBindings.parts : ImportBindings → List Outline
  | .namespace name => [name.outline]
  | .named specifiers => specifiers.map ImportSpecifier.outline

def ImportTarget.outline : ImportTarget → Outline
  | .require specifier => specifier.outline
  | .entity name => name.outline

def ImportKind.parts : ImportKind → List Outline
  | .sideEffect specifier => [specifier.outline]
  | .clause default bindings specifier =>
      default.toList.map Ident.outline ++ bindings.toList.flatMap ImportBindings.parts ++
        [specifier.outline]
  | .equals name target => [name.outline, target.outline]

def ExportSpecifier.outline (specifier : ExportSpecifier) : Outline :=
  .plain specifier.span
    (specifier.name.outline :: specifier.exported.toList.map Ident.outline)

/-! ## Statements -/

mutual

def Statement.outline : Statement → Outline
  | ⟨kind, span⟩ => kind.outline span

/-- The outline of a statement of this form with the given span. -/
def StatementKind.outline (span : Span) : StatementKind → Outline
  | .var decl => .plain span (decl.declarators.map Declarator.outline)
  | .function decl => .plain span (decl.name.outline :: decl.signature.parts)
  | .class decl =>
      .braced span [.semicolon, .comma] decl.head (decl.members.map ClassMember.outline)
  | .interface decl =>
      .braced span [.semicolon, .comma] decl.head (memberOutlines decl.members)
  | .typeAlias decl => .plain span decl.parts
  | .enum decl => .plain span (decl.name.outline :: decl.members.map EnumMember.outline)
  | .namespace name body => .braced span [.semicolon] [name.outline] (statementOutlines body)
  | .ambientModule name none => .plain span [name.outline]
  | .ambientModule name (some body) =>
      .braced span [.semicolon] [name.outline] (statementOutlines body)
  | .global body => .braced span [.semicolon] [] (statementOutlines body)
  | .import decl => .plain span decl.kind.parts
  | .export exported => .plain span exported.parts
  | .ambient inner => .plain span [inner.outline]

def Export.parts : Export → List Outline
  | .declaration inner | .defaultDeclaration inner => [inner.outline]
  | .defaultName name | .assignment name => [name.outline]
  | .named _ specifiers specifier =>
      specifiers.map ExportSpecifier.outline ++ specifier.toList.map StringLit.outline
  | .all _ name? specifier => name?.toList.map Ident.outline ++ [specifier.outline]
  | .asNamespace name => [name.outline]

def statementOutlines : List Statement → List Outline
  | [] => []
  | statement :: statements => statement.outline :: statementOutlines statements

end

theorem Statement.span_outline (statement : Statement) :
    statement.outline.span = statement.span := by
  obtain ⟨kind, span⟩ := statement
  unfold Statement.outline StatementKind.outline
  split <;> rfl

theorem statementOutlines_eq_map (statements : List Statement) :
    statementOutlines statements = statements.map Statement.outline := by
  induction statements with
  | nil => simp [statementOutlines]
  | cons statement statements ih => simp [statementOutlines, ih]

end DeclFile

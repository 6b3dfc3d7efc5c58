import DeclFile.Buckets
import DeclFile.Json
import DeclFile.Parsed

/-! # Syntax as data

How a module is written as JSON. A structure is an object of its fields; a form without
contents is its name, and one with contents is an object whose only key is its name.
-/

namespace DeclFile

/-- A form with contents. -/
def Json.form (name : String) (contents : Json) : Json := .ofFields [(name, contents)]

def SourceId.toJson (source : SourceId) : Json := .number source.number

def Pos.toJson (pos : Pos) : Json :=
  .ofFields [("offset", .number pos.offset), ("line", .number pos.line),
    ("column", .number pos.column)]

def Span.toJson (span : Span) : Json :=
  .ofFields [("source", span.source.toJson), ("start", span.start.toJson),
    ("end", span.stop.toJson)]

def Diagnostic.toJson (diagnostic : Diagnostic) : Json :=
  .ofFields [("kind", .string diagnostic.kind.name), ("span", diagnostic.span.toJson),
    ("message", .string diagnostic.message)]

/-! ## Names, literals and modifiers -/

def Ident.toJson (ident : Ident) : Json :=
  .ofFields [("name", .string ident.name), ("span", ident.span.toJson)]

def StringLit.toJson (literal : StringLit) : Json :=
  .ofFields [("value", .string literal.value), ("span", literal.span.toJson)]

def EntityName.toJson (name : EntityName) : Json :=
  .ofFields [("segments", .ofList Ident.toJson name.segments), ("span", name.span.toJson)]

def KeyExpr.toJson : KeyExpr → Json
  | .name entity => .form "Name" entity.toJson
  | .string value => .form "String" (.string value)
  | .number value => .form "Number" (.string value)

def PropertyName.toJson : PropertyName → Json
  | .ident id => .form "Ident" id.toJson
  | .string literal => .form "String" literal.toJson
  | .number value span =>
      .form "Number" (.ofFields [("value", .string value), ("span", span.toJson)])
  | .computed expr span =>
      .form "Computed" (.ofFields [("expr", expr.toJson), ("span", span.toJson)])
  | .privateName id => .form "Private" id.toJson

def Literal.toJson : Literal → Json
  | .string value => .form "String" (.string value)
  | .number digits => .form "Number" (.string digits)
  | .bigint digits => .form "BigInt" (.string digits)
  | .boolean value => .form "Boolean" (.bool value)

/-- The name of a primitive type in data. -/
def Primitive.name : Primitive → String
  | .string => "String"
  | .number => "Number"
  | .boolean => "Boolean"
  | .bigint => "BigInt"
  | .symbol => "Symbol"
  | .uniqueSymbol => "UniqueSymbol"
  | .void => "Void"
  | .null => "Null"
  | .undefined => "Undefined"
  | .never => "Never"
  | .any => "Any"
  | .unknown => "Unknown"
  | .object => "Object"
  | .intrinsic => "Intrinsic"

/-- The name of a modifier in data. -/
def Modifier.name : Modifier → String
  | .public => "PUBLIC"
  | .private => "PRIVATE"
  | .protected => "PROTECTED"
  | .static => "STATIC"
  | .readonly => "READONLY"
  | .abstract => "ABSTRACT"
  | .async => "ASYNC"
  | .override => "OVERRIDE"
  | .declare => "DECLARE"
  | .accessor => "ACCESSOR"

def Modifiers.toJson (modifiers : Modifiers) : Json :=
  .string (" | ".intercalate (modifiers.toList.map Modifier.name))

def BindingName.toJson : BindingName → Json
  | .ident id => .form "Ident" id.toJson
  | .pattern span => .form "Pattern" span.toJson

def MappedModifier.toJson : MappedModifier → Json
  | .none => .string "None"
  | .add => .string "Add"
  | .remove => .string "Remove"

def PredicateSubject.toJson : PredicateSubject → Json
  | .ident id => .form "Ident" id.toJson
  | .this span => .form "This" span.toJson

/-! ## Types -/

mutual

def Ty.toJson : Ty → Json
  | ⟨kind, span⟩ => .ofFields [("kind", kind.toJson), ("span", span.toJson)]

def TyKind.toJson : TyKind → Json
  | .primitive primitive => .form "Primitive" (.string primitive.name)
  | .literal literal => .form "Literal" literal.toJson
  | .reference reference => .form "Reference" reference.toJson
  | .array element => .form "Array" element.toJson
  | .tuple elements => .form "Tuple" (.array (elementsToJson elements))
  | .union operands => .form "Union" (.array (typesToJson operands))
  | .intersection operands => .form "Intersection" (.array (typesToJson operands))
  | .function ⟨typeParams, params, result⟩ =>
      .form "Function" (.ofFields [("type_params", .array (typeParamsToJson typeParams)),
        ("params", .array (paramsToJson params)), ("return_type", result.toJson)])
  | .constructor isAbstract ⟨typeParams, params, result⟩ =>
      .form "Constructor" (.ofFields [("is_abstract", .bool isAbstract),
        ("type_params", .array (typeParamsToJson typeParams)),
        ("params", .array (paramsToJson params)), ("return_type", result.toJson)])
  | .object members => .form "Object" (.array (membersToJson members))
  | .parenthesized inner => .form "Parenthesized" inner.toJson
  | .indexedAccess object index =>
      .form "IndexedAccess" (.ofFields [("object", object.toJson), ("index", index.toJson)])
  | .conditional check bound whenTrue whenFalse =>
      .form "Conditional" (.ofFields [("check", check.toJson), ("extends", bound.toJson),
        ("true_type", whenTrue.toJson), ("false_type", whenFalse.toJson)])
  | .infer param constraint =>
      .form "Infer" (.ofFields [("param", param.toJson),
        ("constraint", optionalTypeToJson constraint)])
  | .mapped ⟨key, constraint, nameType, readonly, isOptional, value⟩ =>
      .form "Mapped" (.ofFields [("key", key.toJson), ("constraint", constraint.toJson),
        ("name_type", optionalTypeToJson nameType), ("readonly", readonly.toJson),
        ("optional", isOptional.toJson), ("value", optionalTypeToJson value)])
  | .template parts => .form "TemplateLiteral" (.array (partsToJson parts))
  | .keyOf operand => .form "KeyOf" operand.toJson
  | .typeOf target args =>
      .form "TypeOf" (.ofFields [("target", target.toJson), ("type_args", argsToJson args)])
  | .importType imported => .form "Import" imported.toJson
  | .predicate asserts subject type =>
      .form "Predicate" (.ofFields [("asserts", .bool asserts), ("subject", subject.toJson),
        ("ty", optionalTypeToJson type)])
  | .this => .string "This"
  | .rest inner => .form "Rest" inner.toJson
  | .optional inner => .form "Optional" inner.toJson
  | .readonly operand => .form "Readonly" operand.toJson

def typesToJson : List Ty → List Json
  | [] => []
  | type :: types => type.toJson :: typesToJson types

def optionalTypeToJson : Option Ty → Json
  | none => .null
  | some type => type.toJson

def argsToJson : Option (List Ty) → Json
  | none => .null
  | some args => .array (typesToJson args)

def TypeRef.toJson : TypeRef → Json
  | ⟨name, args, span⟩ =>
      .ofFields [("name", name.toJson), ("type_args", argsToJson args), ("span", span.toJson)]

def ImportTy.toJson : ImportTy → Json
  | ⟨specifier, qualifier, args⟩ =>
      .ofFields [("specifier", specifier.toJson),
        ("qualifier", .ofOption EntityName.toJson qualifier), ("type_args", argsToJson args)]

def QueryTarget.toJson : QueryTarget → Json
  | .name entity => .form "Name" entity.toJson
  | .imported type => .form "Import" type.toJson

def partsToJson : List TemplatePart → List Json
  | [] => []
  | .text text :: parts => .form "Text" (.string text) :: partsToJson parts
  | .type type :: parts => .form "Type" type.toJson :: partsToJson parts

def elementsToJson : List TupleElement → List Json
  | [] => []
  | ⟨label, isOptional, rest, type, span⟩ :: elements =>
      .ofFields [("label", .ofOption Ident.toJson label), ("optional", .bool isOptional),
        ("rest", .bool rest), ("ty", type.toJson), ("span", span.toJson)] ::
        elementsToJson elements

def typeParamsToJson : List TypeParam → List Json
  | [] => []
  | ⟨name, constraint, default, isIn, isOut, isConst, span⟩ :: params =>
      .ofFields [("name", name.toJson), ("constraint", optionalTypeToJson constraint),
        ("default", optionalTypeToJson default), ("is_in", .bool isIn),
        ("is_out", .bool isOut), ("is_const", .bool isConst), ("span", span.toJson)] ::
        typeParamsToJson params

def Param.toJson : Param → Json
  | ⟨name, type, isOptional, rest, modifiers, span⟩ =>
      .ofFields [("name", name.toJson), ("ty", optionalTypeToJson type),
        ("optional", .bool isOptional), ("rest", .bool rest),
        ("modifiers", modifiers.toJson), ("span", span.toJson)]

def paramsToJson : List Param → List Json
  | [] => []
  | param :: params => param.toJson :: paramsToJson params

def Signature.toJson : Signature → Json
  | ⟨typeParams, params, result⟩ =>
      .ofFields [("type_params", .array (typeParamsToJson typeParams)),
        ("params", .array (paramsToJson params)), ("return_type", optionalTypeToJson result)]

def IndexSignature.toJson : IndexSignature → Json
  | ⟨readonly, param, keyType, type⟩ =>
      .ofFields [("readonly", .bool readonly), ("param", param.toJson),
        ("key_type", keyType.toJson), ("ty", type.toJson)]

def MemberKind.toJson : MemberKind → Json
  | .call signature => .form "Call" signature.toJson
  | .construct signature => .form "Construct" signature.toJson
  | .property key isOptional readonly type =>
      .form "Property" (.ofFields [("key", key.toJson), ("optional", .bool isOptional),
        ("readonly", .bool readonly), ("ty", optionalTypeToJson type)])
  | .method key isOptional signature =>
      .form "Method" (.ofFields [("key", key.toJson), ("optional", .bool isOptional),
        ("signature", signature.toJson)])
  | .index shape => .form "Index" shape.toJson
  | .getter key result =>
      .form "Getter" (.ofFields [("key", key.toJson), ("return_type", optionalTypeToJson result)])
  | .setter key param =>
      .form "Setter" (.ofFields [("key", key.toJson), ("param", param.toJson)])

def membersToJson : List Member → List Json
  | [] => []
  | ⟨kind, span⟩ :: members =>
      .ofFields [("kind", kind.toJson), ("span", span.toJson)] :: membersToJson members

end

/-! ## Declarations -/

def ClassMemberKind.toJson : ClassMemberKind → Json
  | .constructor signature => .form "Constructor" signature.toJson
  | .property key isOptional type =>
      .form "Property" (.ofFields [("key", key.toJson), ("optional", .bool isOptional),
        ("ty", optionalTypeToJson type)])
  | .method key isOptional signature =>
      .form "Method" (.ofFields [("key", key.toJson), ("optional", .bool isOptional),
        ("signature", signature.toJson)])
  | .index shape => .form "Index" shape.toJson
  | .getter key result =>
      .form "Getter" (.ofFields [("key", key.toJson), ("return_type", optionalTypeToJson result)])
  | .setter key param =>
      .form "Setter" (.ofFields [("key", key.toJson), ("param", param.toJson)])

def ClassMember.toJson (member : ClassMember) : Json :=
  .ofFields [("kind", member.kind.toJson), ("modifiers", member.modifiers.toJson),
    ("span", member.span.toJson)]

def VarKind.toJson : VarKind → Json
  | .var => .string "Var"
  | .let => .string "Let"
  | .const => .string "Const"

def Declarator.toJson (declarator : Declarator) : Json :=
  .ofFields [("name", declarator.name.toJson), ("ty", optionalTypeToJson declarator.type),
    ("init", .ofOption Literal.toJson declarator.init), ("span", declarator.span.toJson)]

def VarDecl.toJson (decl : VarDecl) : Json :=
  .ofFields [("kind", decl.kind.toJson),
    ("declarators", .ofList Declarator.toJson decl.declarators)]

def FunctionDecl.toJson (decl : FunctionDecl) : Json :=
  .ofFields [("name", decl.name.toJson), ("signature", decl.signature.toJson)]

def ClassDecl.toJson (decl : ClassDecl) : Json :=
  .ofFields [("name", .ofOption Ident.toJson decl.name), ("is_abstract", .bool decl.isAbstract),
    ("type_params", .array (typeParamsToJson decl.typeParams)),
    ("extends", .ofOption TypeRef.toJson decl.extends?),
    ("implements", .ofList TypeRef.toJson decl.implemented),
    ("members", .ofList ClassMember.toJson decl.members)]

def InterfaceDecl.toJson (decl : InterfaceDecl) : Json :=
  .ofFields [("name", decl.name.toJson),
    ("type_params", .array (typeParamsToJson decl.typeParams)),
    ("extends", .ofList TypeRef.toJson decl.bases),
    ("members", .array (membersToJson decl.members))]

def TypeAlias.toJson (decl : TypeAlias) : Json :=
  .ofFields [("name", decl.name.toJson),
    ("type_params", .array (typeParamsToJson decl.typeParams)), ("ty", decl.type.toJson)]

def EnumMember.toJson (member : EnumMember) : Json :=
  .ofFields [("name", member.name.toJson), ("init", .ofOption Literal.toJson member.init),
    ("span", member.span.toJson)]

def EnumDecl.toJson (decl : EnumDecl) : Json :=
  .ofFields [("is_const", .bool decl.isConst), ("name", decl.name.toJson),
    ("members", .ofList EnumMember.toJson decl.members)]

/-! ## Imports and exports -/

def ImportSpecifier.toJson (specifier : ImportSpecifier) : Json :=
  .ofFields [("imported", specifier.imported.toJson), ("local", specifier.binding.toJson),
    ("type_only", .bool specifier.typeOnly), ("span", specifier.span.toJson)]

def ImportBindings.toJson : ImportBindings → Json
  | .namespace name => .form "Namespace" name.toJson
  | .named specifiers => .form "Named" (.ofList ImportSpecifier.toJson specifiers)

def ImportTarget.toJson : ImportTarget → Json
  | .require specifier => .form "Require" specifier.toJson
  | .entity name => .form "Entity" name.toJson

def ImportKind.toJson : ImportKind → Json
  | .sideEffect specifier => .form "SideEffect" (.ofFields [("source", specifier.toJson)])
  | .clause default bindings specifier =>
      .form "Clause" (.ofFields [("default", .ofOption Ident.toJson default),
        ("bindings", .ofOption ImportBindings.toJson bindings), ("source", specifier.toJson)])
  | .equals name target =>
      .form "Equals" (.ofFields [("name", name.toJson), ("target", target.toJson)])

def ImportDecl.toJson (decl : ImportDecl) : Json :=
  .ofFields [("type_only", .bool decl.typeOnly), ("kind", decl.kind.toJson)]

def ExportSpecifier.toJson (specifier : ExportSpecifier) : Json :=
  .ofFields [("local", specifier.name.toJson),
    ("exported", .ofOption Ident.toJson specifier.exported),
    ("type_only", .bool specifier.typeOnly), ("span", specifier.span.toJson)]

/-! ## Statements and modules -/

mutual

def Statement.toJson : Statement → Json
  | ⟨kind, span⟩ => .ofFields [("kind", kind.toJson), ("span", span.toJson)]

def StatementKind.toJson : StatementKind → Json
  | .var decl => .form "Var" decl.toJson
  | .function decl => .form "Function" decl.toJson
  | .class decl => .form "Class" decl.toJson
  | .interface decl => .form "Interface" decl.toJson
  | .typeAlias decl => .form "TypeAlias" decl.toJson
  | .enum decl => .form "Enum" decl.toJson
  | .namespace name body =>
      .form "Namespace" (.ofFields [("name", name.toJson),
        ("body", .array (statementsToJson body))])
  | .ambientModule name body =>
      .form "AmbientModule" (.ofFields [("name", name.toJson), ("body", optionalBodyToJson body)])
  | .global body => .form "Global" (.ofFields [("body", .array (statementsToJson body))])
  | .import decl => .form "Import" decl.toJson
  | .export exported => .form "Export" (.ofFields [("kind", exported.toJson)])
  | .ambient inner => .form "Ambient" inner.toJson

def Export.toJson : Export → Json
  | .declaration inner => .form "Declaration" inner.toJson
  | .defaultDeclaration inner => .form "Default" (.form "Declaration" inner.toJson)
  | .defaultName name => .form "Default" (.form "Name" name.toJson)
  | .named typeOnly specifiers specifier =>
      .form "Named" (.ofFields [("type_only", .bool typeOnly),
        ("specifiers", .ofList ExportSpecifier.toJson specifiers),
        ("source", .ofOption StringLit.toJson specifier)])
  | .all typeOnly exported? specifier =>
      .form "All" (.ofFields [("type_only", .bool typeOnly),
        ("alias", .ofOption Ident.toJson exported?), ("source", specifier.toJson)])
  | .assignment name => .form "Assignment" name.toJson
  | .asNamespace name => .form "AsNamespace" name.toJson

def statementsToJson : List Statement → List Json
  | [] => []
  | statement :: statements => statement.toJson :: statementsToJson statements

def optionalBodyToJson : Option (List Statement) → Json
  | none => .null
  | some body => .array (statementsToJson body)

end

/-- The name of a kind of reference in data. -/
def ReferenceKind.name : ReferenceKind → String
  | .path => "Path"
  | .types => "Types"
  | .lib => "Lib"
  | .noDefaultLib => "NoDefaultLib"

def Reference.toJson (reference : Reference) : Json :=
  .ofFields [("kind", .string reference.kind.name), ("value", .string reference.value),
    ("span", reference.span.toJson)]

def Module.toJson (module : Module) : Json :=
  .ofFields [("source", module.source.toJson),
    ("statements", .array (statementsToJson module.statements)),
    ("references", .ofList Reference.toJson module.references), ("span", module.span.toJson)]

def Parsed.toJson (parsed : Parsed) : Json :=
  .ofFields [("module", parsed.module.toJson),
    ("diagnostics", .ofList Diagnostic.toJson parsed.diagnostics)]

def Buckets.toJson (buckets : Buckets) : Json :=
  .ofFields [("has_top_level_exports", .bool buckets.hasExports),
    ("named_modules", .ofFields (buckets.namedModules.map fun (name, body) =>
      (name, .array (statementsToJson body)))),
    ("global", .array (statementsToJson buckets.global)),
    ("package", .array (statementsToJson buckets.package))]

end DeclFile

import DeclFile.Parser.Name
import DeclFile.Parser.Recovery

/-! # Parsers of types

From the loosest binding to the tightest, a type is a conditional type, a union, an
intersection, an operator applied to an operand, a type with suffixes, or a primary type.
Where two forms begin alike, the longer one is tried first and given up without a trace.
Whether a type stands in the bound of a conditional type only matters to `infer`, so it is
passed down to it.
-/

namespace DeclFile.Parser

/-- A type, one level deeper. -/
def type : Parser Ty := nested .type

/-- A type, built from its form and the span it was read from. -/
def typeOf (form : Parser TyKind) : Parser Ty := spanned Ty.mk form

/-! ## Parameters -/

/-- Type arguments in angle brackets, if they open on the same line. -/
def typeArgs : Parser (Option (List Ty)) := do
  let next ← peek
  if next.kind = .mark .openAngle && !next.newlineBefore then
    let _ ← advance
    let args ← commaSeparated (.mark .closeAngle) (elementOrStop type)
    expectOrReport (.mark .closeAngle)
    return some args
  else return none

/-- A name with its type arguments. -/
def typeRef : Parser TypeRef :=
  spanned (fun (name, args) span => ⟨name, args, span⟩) do
    let name ← entityName
    return (name, ← typeArgs)

/-- The words in front of a type parameter; each must have a name after it. -/
def variances : Parser (List Keyword) :=
  collect do
    let next ← peekKind
    let after ← kindAhead 1
    match next with
    | .word keyword =>
        if (keyword = .in || keyword = .out || keyword = .const) && after.isBindingName then
          let _ ← advance
          return ⟨some keyword, true⟩
        else return ⟨none, false⟩
    | _ => return ⟨none, false⟩

/-- A type after `mark`, if that is next. -/
def typeAfter (kind : Kind) : Parser (Option Ty) := do
  if ← skipIf kind then optional type else return none

/-- A type after a token of the given kind, if that is next; the type must not be missing. -/
def requiredTypeAfter (kind : Kind) : Parser (Option Ty) := do
  if ← skipIf kind then return some (← type) else return none

/-- One type parameter. -/
def typeParam : Parser TypeParam :=
  spanned (fun make span => make span) do
    let words ← variances
    let name ← ident
    let constraint ← typeAfter (.word .extends)
    let default ← typeAfter (.mark .equals)
    return TypeParam.mk name constraint default (words.contains .in) (words.contains .out)
      (words.contains .const)

/-- Type parameters in angle brackets, or none. -/
def typeParams : Parser (List TypeParam) := do
  if ← skipIf (.mark .openAngle) then
    let params ← commaSeparated (.mark .closeAngle) (elementOrStop typeParam)
    expectOrReport (.mark .closeAngle)
    return params
  else return []

/-- The modifier that a word is in front of a parameter. -/
def paramModifier? : Kind → Option Modifier
  | .word .public => some .public
  | .word .private => some .private
  | .word .protected => some .protected
  | .word .readonly => some .readonly
  | .word .override => some .override
  | _ => none

/-- Whether a token after a word shows that the word is a modifier of a parameter. -/
def beginsParamName (kind : Kind) : Bool :=
  kind.isBindingName || kind == .mark .openBrace || kind == .mark .openBracket ||
    kind == .word .this

/-- A word that is a modifier of the parameter after it. -/
def modifierTurn : Parser (Turn Modifier) := do
  let next ← peekKind
  let after ← kindAhead 1
  match paramModifier? next with
  | some modifier =>
      if beginsParamName after then
        let _ ← advance
        return ⟨some modifier, true⟩
      else return ⟨none, false⟩
  | none => return ⟨none, false⟩

/-- The modifiers in front of a parameter. -/
def paramModifiers : Parser Modifiers := do
  let found ← collect modifierTurn
  return found.foldl Modifiers.insert .empty

/-- The name of a parameter. -/
def bindingName : Parser BindingName := do
  match ← peekKind with
  | .mark .openBrace | .mark .openBracket => spanned (fun _ span => .pattern span) skipGroup
  | .word .this => return .ident (← readIdent)
  | _ => return .ident (← ident)

/-- Reports an initializer and skips it. -/
def skipUnsupportedInitializer (cause : Cause) : Parser Unit := do
  if (← peekKind) = .mark .equals then
    reportHere cause
    let _ ← advance
    skipInitializer

/-- One parameter. -/
def param : Parser Param :=
  spanned (fun make span => make span) do
    let modifiers ← paramModifiers
    let rest ← skipIf (.mark .ellipsis)
    let name ← bindingName
    let isOptional ← skipIf (.mark .question)
    let annotation ← typeAfter (.mark .colon)
    skipUnsupportedInitializer .parameterInitializer
    return Param.mk name annotation isOptional rest modifiers

/-- Where a broken parameter ends: at the next one, at the end of the list, or at a token
that cannot be inside it. -/
def endsParam (token : Token) : Bool :=
  match token.kind with
  | .mark .comma | .mark .closeParen | .mark .semicolon | .mark .openBrace | .mark .closeBrace
  | .mark .arrow => true
  | _ => beginsStatement token

/-- A parameter of a list; a broken one is skipped. -/
def paramTurn : Parser (Turn Param) := do
  match ← optional param with
  | some found => return ⟨some found, true⟩
  | none =>
      skipGroupsUntil endsParam
      return ⟨none, true⟩

/-- Parameters in parentheses. -/
def params : Parser (List Param) := do
  let _ ← expect (.mark .openParen)
  let found ← commaSeparated (.mark .closeParen) paramTurn
  expectOrReport (.mark .closeParen)
  return found

/-! ## Functions -/

/-- What a type predicate speaks about. -/
def predicateSubject : Parser PredicateSubject := do
  if (← peekKind) = .word .this then return .this (← advance).span
  else return .ident (← ident)

/-- A type predicate from its subject on. Without a type it must have begun with `asserts`. -/
def predicateRest (asserts : Bool) : Parser TyKind := do
  let subject ← predicateSubject
  let next ← peek
  if next.kind = .word .is && !next.newlineBefore then
    let _ ← advance
    return .predicate asserts subject (some (← type))
  else if asserts then return .predicate asserts subject none
  else fail

/-- A type predicate. -/
def predicate : Parser Ty :=
  typeOf do
    let next ← peekKind
    let after ← kindAhead 1
    if next = .word .asserts && after ≠ .word .is &&
        (after = .word .this || after.isBindingName) then
      let _ ← advance
      if ← atLineStart then fail else predicateRest true
    else predicateRest false

/-- A type where a function's result stands, which may be a predicate. -/
def resultType : Parser Ty := do
  let next ← peekKind
  let after ← kindAhead 1
  let maybePredicate := next = .word .asserts ||
    ((next = .word .this || next.isBindingName) && after = .word .is)
  if maybePredicate then
    match ← attempt predicate with
    | some found => return found
    | none => type
  else type

/-- The parameters and result of a function type. -/
def functionTail (typeParams : List TypeParam) : Parser FunctionTy := do
  let params ← params
  let _ ← expect (.mark .arrow)
  return ⟨typeParams, params, ← resultType⟩

/-- A constructor type, from `new` on. -/
def constructorType (isAbstract : Bool) : Parser TyKind := do
  let _ ← expect (.word .new)
  let typeParams ← typeParams
  return .constructor isAbstract (← functionTail typeParams)

/-- A constructor type that begins with `abstract`; nothing else can. -/
def abstractConstructorType : Parser TyKind := do
  let constructed ← attempt do
    let _ ← advance
    constructorType true
  match constructed with
  | some kind => return kind
  | none => refuse .missingType

/-- A function type, or a type in parentheses. -/
def parenType : Parser TyKind := do
  match ← attempt (functionTail []) with
  | some function => return .function function
  | none =>
      let _ ← advance
      let inner ← type
      expectOrReport (.mark .closeParen)
      return .parenthesized inner

/-- A function type with type parameters; nothing else begins with `<`. -/
def genericFunctionType : Parser TyKind := do
  let function ← attempt do
    let typeParams ← typeParams
    functionTail typeParams
  match function with
  | some function => return .function function
  | none => refuse fun _ => .loneTypeParameters

/-- The type parameters, parameters and result of a method or function. -/
def signature : Parser Signature := do
  let typeParams ← typeParams
  let params ← params
  let result ← do if ← skipIf (.mark .colon) then optional resultType else pure none
  return ⟨typeParams, params, result⟩

/-! ## Tuples, object types and template literals -/

/-- Whether a label follows after `skipped` tokens: a word and a colon, perhaps with a
question mark between. -/
def labelFollows (skipped : Nat) : Parser Bool := do
  let word ← kindAhead skipped
  let next ← kindAhead (skipped + 1)
  let after ← kindAhead (skipped + 2)
  return word.isName &&
    (next = .mark .colon || (next = .mark .question && after = .mark .colon))

/-- An element of a tuple without a label. A question mark after its type makes it
optional. -/
def plainElement : Parser TupleElement := do
  let ((type, isOptional), span) ← withSpan none do
    let type ← type
    return (type, ← skipIf (.mark .question))
  if isOptional then return ⟨none, false, false, ⟨.optional type, span⟩, span⟩
  else return ⟨none, false, false, type, type.span⟩

/-- An element of a tuple with a label. A question mark after its type is reported. -/
def labelledElement : Parser TupleElement :=
  spanned (fun make span => make span) do
    let rest ← skipIf (.mark .ellipsis)
    let label ← anyIdent
    let isOptional ← skipIf (.mark .question)
    let _ ← expect (.mark .colon)
    let type ← type
    if (← peekKind) = .mark .question then
      let (marker, span) ← withSpan type.span.start advance
      let cause := if isOptional then Cause.optionalTwice else .optionalAfterType
      report (cause.at marker.span)
      return TupleElement.mk (some label) isOptional rest ⟨.optional type, span⟩
    else return TupleElement.mk (some label) isOptional rest type

/-- An element of a tuple. -/
def tupleElement : Parser TupleElement := do
  let dots ← nextIs (.mark .ellipsis)
  if ← labelFollows dots.toNat then labelledElement else plainElement

/-- A tuple type. -/
def tupleType : Parser TyKind := do
  let _ ← advance
  let elements ← commaSeparated (.mark .closeBracket) (elementOrStop tupleElement)
  expectOrReport (.mark .closeBracket)
  return .tuple elements

/-- What a mapped type does with the modifier `kind`: the modifier by itself adds it, and a
sign in front says which. -/
def mappedModifier (kind : Kind) : Parser MappedModifier := do
  let next ← peekKind
  if next = .mark .plus || next = .mark .minus then
    let _ ← advance
    let _ ← expect kind
    return if next = .mark .minus then .remove else .add
  else if ← skipIf kind then return .add
  else return .none

/-- A mapped type. -/
def mappedType : Parser MappedTy := do
  let _ ← expect (.mark .openBrace)
  let readonly ← mappedModifier (.word .readonly)
  let _ ← expect (.mark .openBracket)
  let key ← ident
  let _ ← expect (.word .in)
  let constraint ← type
  let nameType ← requiredTypeAfter (.word .as)
  let _ ← expect (.mark .closeBracket)
  let isOptional ← mappedModifier (.mark .question)
  let value ← requiredTypeAfter (.mark .colon)
  let ended ← skipIf (.mark .semicolon)
  if !ended then
    let _ ← skipIf (.mark .comma)
  let _ ← expect (.mark .closeBrace)
  return ⟨key, constraint, nameType, readonly, isOptional, value⟩

/-- A mapped type, or an object type. -/
def braceType : Parser TyKind := do
  match ← attempt mappedType with
  | some mapped => return .mapped mapped
  | none =>
      let _ ← advance
      let members ← nested .members
      expectOrReport (.mark .closeBrace)
      return .object members

/-- The text of a template piece, unless it is empty. -/
def textPart (text : String) : List TemplatePart :=
  if text.isEmpty then [] else [.text text]

/-- The parts of a template from its first substitution on. -/
def templateRest : Parser (List TemplatePart) :=
  List.flatten <$> collect do
    let type ← type
    let next ← peek
    match next.kind with
    | .templateMiddle =>
        let _ ← advance
        return ⟨some (.type type :: textPart next.text), true⟩
    | .templateTail =>
        let _ ← advance
        return ⟨some (.type type :: textPart next.text), false⟩
    | kind =>
        reportHere (.unclosedSubstitution kind)
        return ⟨some [.type type], false⟩

/-- A template literal type. -/
def templateType : Parser TyKind := do
  let head ← advance
  let rest ← if head.kind = .templateHead then templateRest else pure []
  return .template (textPart head.text ++ rest)

/-! ## Names and other primary types -/

/-- An import type. -/
def importType : Parser ImportTy := do
  let _ ← expect (.word .import)
  let _ ← expect (.mark .openParen)
  let specifier ← stringLit
  let _ ← expect (.mark .closeParen)
  let qualifier ← do if ← skipIf (.mark .dot) then some <$> qualifier else pure none
  return ⟨specifier, qualifier, ← typeArgs⟩

/-- The type of a value. -/
def queryType : Parser TyKind := do
  let _ ← advance
  let next ← peekKind
  let target ← if next = .word .import then QueryTarget.imported <$> importType
    else QueryTarget.name <$> entityName
  return .typeOf target (← typeArgs)

/-- The primitive type that a keyword is. -/
def primitive? : Kind → Option Primitive
  | .word .string => some .string
  | .word .number => some .number
  | .word .boolean => some .boolean
  | .word .bigint => some .bigint
  | .word .symbol => some .symbol
  | .word .object => some .object
  | .word .void => some .void
  | .word .null => some .null
  | .word .undefined => some .undefined
  | .word .any => some .any
  | .word .unknown => some .unknown
  | .word .never => some .never
  | _ => none

/-- A type that begins with a name or with none of the signs of another type. -/
def namedType : Parser TyKind := do
  let next ← peek
  let after ← kindAhead 1
  if next.kind = .identifier && next.text == "intrinsic" && after ≠ .mark .dot
      && after ≠ .mark .openAngle then
    let _ ← advance
    return .primitive .intrinsic
  else if next.kind.isBindingName then .reference <$> typeRef
  else refuse .missingType

/-- A number or bigint after its minus sign. -/
def negativeType : Parser TyKind := do
  let after ← kindAhead 1
  if after = .numberLiteral || after = .bigintLiteral then
    let _ ← advance
    let token ← advance
    let digits := "-" ++ token.text
    return .literal (if after = .bigintLiteral then .bigint digits else .number digits)
  else refuse .missingType

/-- The form of a primary type, which begins with a token of its own. -/
def primaryKind : Parser TyKind := do
  let next ← peek
  match primitive? next.kind with
  | some primitive =>
      let _ ← advance
      return .primitive primitive
  | none =>
    match next.kind with
    | .word .true =>
        let _ ← advance
        return .literal (.boolean true)
    | .word .false =>
        let _ ← advance
        return .literal (.boolean false)
    | .stringLiteral =>
        let _ ← advance
        return .literal (.string next.text)
    | .numberLiteral =>
        let _ ← advance
        return .literal (.number next.text)
    | .bigintLiteral =>
        let _ ← advance
        return .literal (.bigint next.text)
    | .mark .minus => negativeType
    | .templateWhole | .templateHead => templateType
    | .word .this =>
        let _ ← advance
        return .this
    | .mark .openParen => parenType
    | .mark .openAngle => genericFunctionType
    | .word .new => constructorType false
    | .word .abstract => abstractConstructorType
    | .mark .openBracket => tupleType
    | .mark .openBrace => braceType
    | .word .typeof => queryType
    | .word .import => .importType <$> importType
    | .mark .ellipsis =>
        let _ ← advance
        return .rest (← type)
    | _ => namedType

/-! ## Suffixes and operators -/

/-- What follows a type in square brackets. -/
inductive Suffix where
  | array
  | index (index : Ty)
  | broken

/-- A pair of square brackets after a type. -/
def suffix : Parser Suffix := do
  let _ ← advance
  if ← skipIf (.mark .closeBracket) then return .array
  else
    match ← optional type with
    | some index =>
        expectOrReport (.mark .closeBracket)
        return .index index
    | none => return .broken

/-- Puts one more pair of square brackets after a type, if they open on the same line. -/
def suffixTurn (type : Ty) : Parser (Step Ty Ty) := do
  let next ← peek
  if next.kind = .mark .openBracket && !next.newlineBefore then
    match ← withSpan type.span.start suffix with
    | (.array, span) => return .more ⟨.array type, span⟩
    | (.index index, span) => return .more ⟨.indexedAccess type index, span⟩
    | (.broken, _) => return .done type
  else return .done type

/-- A primary type with the square brackets after it. -/
def suffixedType : Parser Ty := do
  let first ← typeOf primaryKind
  loop first suffixTurn

/-- Whether a token after `readonly` shows that a type follows. -/
def beginsType (kind : Kind) : Bool :=
  kind.isName ||
    match kind with
    | .mark .openParen | .mark .openBracket | .mark .openBrace | .mark .openAngle
    | .mark .minus | .mark .ellipsis | .stringLiteral | .numberLiteral | .bigintLiteral
    | .templateWhole | .templateHead => true
    | _ => false

/-- An inferred type. Its constraint is found one level deeper. -/
def inferredType (inBound : Bool) : Parser TyKind := do
  let _ ← advance
  let param ← ident
  let next ← peekKind
  if next = .word .extends then return .infer param (← nested (.constraint inBound))
  else return .infer param none

/-- An operator with its operand, or a type with suffixes. -/
def operatorType (inBound : Bool) : Parser Ty := do
  let next ← peekKind
  let after ← kindAhead 1
  if next = .word .keyof then
    typeOf do
      let _ ← advance
      return .keyOf (← nested (.operand inBound))
  else if next = .word .unique && after = .word .symbol then
    typeOf do
      let _ ← advance
      let _ ← advance
      return .primitive .uniqueSymbol
  else if next = .word .readonly && beginsType after then
    typeOf do
      let _ ← advance
      return .readonly (← nested (.operand inBound))
  else if next = .word .infer then typeOf (inferredType inBound)
  else suffixedType

/-- Operands with `mark` between them and perhaps in front; a single operand is itself. -/
def operands (mark : Mark) (wrap : List Ty → TyKind) (operand : Parser Ty) : Parser Ty :=
  let make : Ty × Option (List Ty) → Span → Ty
    | (first, none), _ => first
    | (first, some rest), span => ⟨wrap (first :: rest), span⟩
  spanned make do
    let _ ← skipIf (.mark mark)
    let first ← operand
    let more ← nextIs (.mark mark)
    if more then return (first, some (← afterEach mark operand)) else return (first, none)

/-- A union, or one operand of it. -/
def unionType (inBound : Bool) : Parser Ty :=
  operands .pipe .union (operands .ampersand .intersection (operatorType inBound))

/-- What follows the bound of a conditional type, with the bound. -/
def conditionalRest : Parser (Ty × Ty × Ty) := do
  let _ ← advance
  let bound ← unionType true
  let _ ← expect (.mark .question)
  let whenTrue ← type
  let _ ← expect (.mark .colon)
  return (bound, whenTrue, ← type)

/-- A conditional type, or its first part where the rest is missing or broken. -/
def conditionalType : Parser Ty :=
  let make : Ty × Option (Ty × Ty × Ty) → Span → Ty
    | (check, none), _ => check
    | (check, some (bound, whenTrue, whenFalse)), span =>
        ⟨.conditional check bound whenTrue whenFalse, span⟩
  spanned make do
    let check ← unionType false
    let next ← peek
    if next.kind = .word .extends && !next.newlineBefore then
      return (check, ← optional conditionalRest)
    else return (check, none)

/-- The constraint of an inferred type. Outside the bound of a conditional type, one that is
followed by a question mark is the bound of a conditional type instead. -/
def inferConstraint (inBound : Bool) : Parser (Option Ty) :=
  attempt do
    let _ ← advance
    let type ← unionType true
    let next ← peekKind
    if !inBound && next = .mark .question then fail
    else return type

/-- A type that must take up the whole text. -/
def wholeType : Parser Ty := do
  let found ← type
  let next ← peek
  if next.kind ≠ .endOfText then report ((Cause.afterType next.kind).at next.span)
  return found

end DeclFile.Parser

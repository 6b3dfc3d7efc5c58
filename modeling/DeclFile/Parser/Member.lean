import DeclFile.Parser.Type

/-! # Parsers of members

Members of interfaces, object types and classes. Words such as `readonly`, `get` or `static`
may be names of members themselves, so what follows them decides. A broken member is skipped
and the next one goes on.
-/

namespace DeclFile.Parser

/-- Whether a modifier is meant as such: what follows does not end or annotate a member, and
stands on the same line. -/
def modifierFollowed : Parser Bool := do
  let after ← look 1
  return match after.kind with
    | .mark .colon | .mark .question | .mark .openParen | .mark .openAngle | .mark .equals
    | .mark .bang | .mark .semicolon | .mark .comma | .mark .closeBrace | .endOfText => false
    | _ => !after.newlineBefore

/-- The name and key type of an index signature, in its brackets. -/
def indexHead : Parser (Ident × Ty) := do
  let _ ← expect (.mark .openBracket)
  let param ← ident
  let _ ← expect (.mark .colon)
  let keyType ← type
  let _ ← expect (.mark .closeBracket)
  return (param, keyType)

/-- An index signature, if the brackets open one; nothing if they open a computed name. -/
def indexSignature? (readonly : Bool) : Parser (Option IndexSignature) := do
  if (← peekKind) = .mark .openBracket then
    match ← attempt indexHead with
    | some (param, keyType) =>
        let _ ← expect (.mark .colon)
        return some ⟨readonly, param, keyType, ← type⟩
    | none => return none
  else return none

/-- A getter or setter. -/
inductive Accessor where
  | getter (key : PropertyName) (result : Option Ty)
  | setter (key : PropertyName) (param : Param)

/-- The word and the name of an accessor, which must have parentheses after them. -/
def accessorHead : Parser (Bool × PropertyName) := do
  let word ← advance
  if ← atLineStart then fail
  let key ← propertyName
  if (← peekKind) = .mark .openParen then return (word.kind == .word .get, key) else fail

/-- A getter after its name; its parameters are reported. -/
def getterRest (key : PropertyName) : Parser Accessor := do
  let (params, span) ← withSpan none params
  if !params.isEmpty then report (Cause.getterParameters.at span)
  return .getter key (← typeAfter (.mark .colon))

/-- A setter after its name. It needs one parameter; more of them, or a result, are
reported. -/
def setterRest (key : PropertyName) : Parser Accessor := do
  let (params, span) ← withSpan none params
  match params with
  | [] =>
      report (Cause.setterWithoutParameter.at span)
      fail
  | param :: more =>
      if !more.isEmpty then report (Cause.setterParameters.at span)
      if (← peekKind) = .mark .colon then
        reportHere .setterResult
        let _ ← advance
        let _ ← optional type
      return .setter key param

/-- An accessor, if `get` or `set` is next and is not itself the name of a member. -/
def accessor? : Parser (Option Accessor) := do
  let next ← peekKind
  if next = .word .get || next = .word .set then
    match ← attempt accessorHead with
    | some (isGetter, key) =>
        some <$> if isGetter then getterRest key else setterRest key
    | none => return none
  else return none

/-- Whether a token opens the type parameters or parameters of a signature. -/
def opensSignature (kind : Kind) : Bool :=
  kind == .mark .openParen || kind == .mark .openAngle

/-! ## Interfaces and object types -/

/-- A method or property, from its name on. -/
def namedMember (readonly : Bool) : Parser MemberKind := do
  let key ← propertyName
  let isOptional ← skipIf (.mark .question)
  if opensSignature (← peekKind) then return .method key isOptional (← signature)
  else return .property key isOptional readonly (← typeAfter (.mark .colon))

/-- A member that is no call or construct signature. -/
def keyedMember : Parser MemberKind := do
  let next ← peekKind
  let followed ← modifierFollowed
  let readonly := next = .word .readonly && followed
  if readonly then
    let _ ← advance
  match ← indexSignature? readonly with
  | some index => return .index index
  | none =>
    match ← accessor? with
    | some (.getter key result) => return .getter key result
    | some (.setter key param) => return .setter key param
    | none => namedMember readonly

/-- A member of an interface or object type. -/
def member : Parser Member :=
  spanned Member.mk do
    let next ← peekKind
    let after ← kindAhead 1
    if opensSignature next then return .call (← signature)
    else if next = .word .new && opensSignature after then
      let _ ← advance
      return .construct (← signature)
    else keyedMember

/-- Ends a member: a semicolon or comma, or else a line break, a closing brace or the end of
the text after it. Tells whether it ended. -/
def endMember : Parser Bool := do
  let next ← peek
  if next.kind = .mark .semicolon || next.kind = .mark .comma then
    let _ ← advance
    return true
  else if next.kind = .mark .closeBrace || next.kind = .endOfText || next.newlineBefore then
    return true
  else
    report ((Cause.missingMemberEnd next.kind).at next.span)
    return false

/-- Members up to the closing brace. Those that fail or do not end are reported and
skipped past; tokens for which `skips` holds stand between members. -/
def memberList {α : Type} (skips : Kind → Bool) (element : Parser α) : Parser (List α) :=
  collect do
    let next ← peekKind
    if next = .mark .closeBrace || next = .endOfText then return ⟨none, false⟩
    else if skips next then
      let _ ← advance
      return ⟨none, true⟩
    else
      match ← settle element with
      | .done found =>
          let ended ← endMember
          if !ended then recoverMember false
          return ⟨some found, true⟩
      | .failed progress =>
          recoverMember progress
          return ⟨none, true⟩

/-- The members of an interface or object type. -/
def members : Parser (List Member) :=
  memberList (fun kind => kind == .mark .semicolon || kind == .mark .comma) member

/-! ## Classes -/

/-- The modifier that a word is in front of a class member. -/
def classModifier? : Kind → Option Modifier
  | .word .public => some .public
  | .word .private => some .private
  | .word .protected => some .protected
  | .word .static => some .static
  | .word .readonly => some .readonly
  | .word .abstract => some .abstract
  | .word .async => some .async
  | .word .override => some .override
  | .word .declare => some .declare
  | .word .accessor => some .accessor
  | _ => none

/-- The modifiers in front of a class member. A second one of a kind is reported. -/
def classModifiers : Parser Modifiers :=
  loop Modifiers.empty fun modifiers => do
    let next ← peekKind
    match classModifier? next with
    | some modifier =>
        if ← modifierFollowed then
          if modifiers.contains modifier then reportHere .duplicateModifier
          let _ ← advance
          return .more (modifiers.insert modifier)
        else return .done modifiers
    | none => return .done modifiers

/-- Whether a constructor is next. -/
def constructorFollows : Parser Bool := do
  let next ← peek
  let after ← kindAhead 1
  return (next.kind = .identifier || next.kind = .stringLiteral) &&
    next.text == "constructor" && after = .mark .openParen

/-- A method or property of a class, from its name on. -/
def namedClassMember : Parser ClassMemberKind := do
  let key ← propertyName
  let isOptional ← skipIf (.mark .question)
  if !isOptional then
    let _ ← skipIf (.mark .bang)
  if opensSignature (← peekKind) then
    let signature ← signature
    skipBody
    return .method key isOptional signature
  else
    let type ← typeAfter (.mark .colon)
    skipUnsupportedInitializer .propertyInitializer
    return .property key isOptional type

/-- A class member after its modifiers. -/
def classMemberKind (modifiers : Modifiers) : Parser ClassMemberKind := do
  if (← peekKind) = .mark .openBrace && modifiers.toList = [.static] then
    reportHere .staticBlock
    skipGroup
    fail
  else if ← constructorFollows then
    let _ ← advance
    let signature ← signature
    skipBody
    return .constructor signature
  else
    match ← indexSignature? (modifiers.contains .readonly) with
    | some index => return .index index
    | none =>
      match ← accessor? with
      | some (.getter key result) =>
          skipBody
          return .getter key result
      | some (.setter key param) =>
          skipBody
          return .setter key param
      | none => namedClassMember

/-- A class member. -/
def classMember : Parser ClassMember :=
  spanned (fun (kind, modifiers) span => ⟨kind, modifiers, span⟩) do
    let modifiers ← classModifiers
    return (← classMemberKind modifiers, modifiers)

/-- The members of a class. -/
def classMembers : Parser (List ClassMember) :=
  memberList (· == .mark .semicolon) classMember

end DeclFile.Parser

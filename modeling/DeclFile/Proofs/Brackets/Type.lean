import DeclFile.Proofs.Brackets.Name
import DeclFile.Proofs.Reading.Type

/-! # Brackets in types

The types inside of a type are reached one level deeper. Only parameters may be destructured,
so only behind an opening parenthesis or what stands between parameters is a group skipped.
-/

namespace DeclFile

theorem precedesParam_of_paramModifier {kind : Kind} {modifier : Modifier}
    (h : Parser.paramModifier? kind = some modifier) : precedesParam kind = true := by
  unfold Parser.paramModifier? at h
  split at h
  all_goals first | rfl | cases h

namespace Parser

variable {α : Type} {place : Place} {silent : Prop} {source : TokenStream} {awaited : List Mark}
  {fresh : Bool}

section

variable [place.Bracketed]

theorem type_brackets : type.Brackets place silent source awaited awaited :=
  (Place.Bracketed.brackets .type nofun).quietly

/-! ## Parameters -/

theorem typeArgs_brackets : typeArgs.Brackets place silent source awaited awaited := by
  refine .observe .peek ?_
  split
  next h =>
    simp only [Bool.and_eq_true, decide_eq_true_eq] at h
    exact .plain_bind (h.1 ▸ rfl) <| .bind
      (commaSeparated_brackets fun _ => elementOrStop_carries type_brackets) fun _ _ =>
      .bind (.expectOrReport rfl) fun _ _ => .idle
  next => exact .idle

theorem typeRef_brackets : typeRef.Brackets place silent source awaited awaited :=
  .spanned <| .bind entityName_brackets fun _ _ =>
    .bind typeArgs_brackets fun _ _ => .idle

omit [place.Bracketed] in
theorem variances_brackets : variances.Brackets place silent source awaited awaited := by
  refine .collect fun source => .observe .peekKind <| .observe (.kindAhead 1) ?_
  split
  next h =>
    split
    · exact .plain_bind (h ▸ rfl) <| .idle
    · exact .idle
  next => exact .idle

theorem typeAfter_brackets {kind : Kind} (h : isBracket kind = false) :
    (typeAfter kind).Brackets place silent source awaited awaited := by
  refine .bind (.skipIf h) fun found _ => ?_
  split
  · exact .optional type_brackets
  · exact .idle

theorem requiredTypeAfter_brackets {kind : Kind} (h : isBracket kind = false) :
    (requiredTypeAfter kind).Brackets place silent source awaited awaited := by
  refine .bind (.skipIf h) fun found _ => ?_
  split
  · exact .bind type_brackets fun _ _ => .idle
  · exact .idle

theorem typeParam_brackets : typeParam.Brackets place silent source awaited awaited :=
  .spanned <| .bind variances_brackets fun _ _ => .bind ident_brackets fun _ _ =>
    .bind (typeAfter_brackets rfl) fun _ _ => .bind (typeAfter_brackets rfl) fun _ _ => .idle

theorem typeParams_brackets :
    typeParams.Carries place silent source (Nests fresh awaited) fun _ => Nests false awaited := by
  refine .bind (.skipIf rfl) fun found _ => ?_
  split
  · exact .bind (commaSeparated_brackets fun _ => elementOrStop_carries typeParam_brackets)
      fun _ _ => .bind (.expectOrReport rfl) fun _ _ => .idle
  · exact .idle

omit [place.Bracketed] in
/-- After the modifiers of a parameter it may still be destructured. -/
theorem paramModifiers_carries :
    paramModifiers.Carries place silent source (Nests true (.closeParen :: awaited))
      fun _ => Nests true (.closeParen :: awaited) := by
  refine .bind (.collect fun source => ?_) fun _ _ => .idle
  refine .observe .peekKind <| .observe (.kindAhead 1) ?_
  split
  next h =>
    split
    · refine .advance_bind (fun _ => .of_preceding (precedesParam_of_paramModifier h)) ?_
      exact .idle
    · exact .idle
  next => exact .idle

omit [place.Bracketed] in
theorem bindingName_carries {mark : Mark} :
    bindingName.Carries place silent source (Nests true (mark :: awaited))
      fun _ => Nests false (mark :: awaited) := by
  refine .observe .peekKind ?_
  split
  next h => exact .spanned (skipPattern_carries (.inl h))
  next h => exact .spanned (skipPattern_carries (.inr h))
  next h => exact .bind (readIdent_brackets (h ▸ rfl)) fun _ _ => .idle
  next => exact .bind ident_brackets fun _ _ => .idle

omit [place.Bracketed] in
/-- What follows a report is of no concern. -/
theorem skipUnsupportedInitializer_brackets (cause : Cause) :
    (skipUnsupportedInitializer cause).Brackets place silent source awaited awaited := by
  refine .observe .peekKind ?_
  split
  · exact .reportHere_bind
  · exact .idle

theorem param_carries :
    param.Carries place silent source (Nests true (.closeParen :: awaited))
      fun _ => Nests false (.closeParen :: awaited) := by
  -- Only the name may be destructured, so what follows it is read as anything else.
  refine .spanned <| .bind paramModifiers_carries fun _ rest => ?_
  refine .bind (Q := fun _ => Nests true (.closeParen :: awaited)) (.skipIf_of ?_ fun _ => id)
    fun _ _ => ?_
  · exact fun h => .of_preceding (h ▸ rfl)
  · exact .bind bindingName_carries fun _ _ => .bind (.skipIf rfl) fun _ _ =>
      .bind (typeAfter_brackets rfl) fun _ _ =>
        .bind (skipUnsupportedInitializer_brackets _) fun _ _ => .idle

theorem params_brackets :
    params.Carries place silent source (Nests fresh awaited) fun _ => Nests false awaited := by
  refine .bind .expect_paren fun _ _ => .bind (commaSeparated_carries (F := Nests false _)
    (fun _ h => h.fresh true) (fun _ h => .of_preceding (h ▸ rfl)) fun _ => ?_) fun _ _ => ?_
  · exact .optional_bind param_carries fun _ _ => .idle
  · exact .bind .expectOrReport_closing fun _ _ => .idle

/-! ## Functions -/

omit [place.Bracketed] in
theorem predicateSubject_brackets :
    predicateSubject.Brackets place silent source awaited awaited := by
  refine .observe .peekKind ?_
  split
  next h => exact .plain_bind (h ▸ rfl) <| .idle
  next => exact .bind ident_brackets fun _ _ => .idle

/-- What is no predicate fails in silence. -/
theorem predicateRest_brackets (asserts : Bool) :
    (predicateRest asserts).Brackets place True source awaited awaited := by
  refine .bind predicateSubject_brackets fun _ _ => .observe .peek ?_
  split
  next h =>
    simp only [Bool.and_eq_true, decide_eq_true_eq] at h
    exact .plain_bind (h.1 ▸ rfl) <| .bind type_brackets fun _ _ => .idle
  next =>
    split
    · exact .idle
    · exact .fail trivial

theorem predicate_brackets : predicate.Brackets place True source awaited awaited := by
  refine .spanned <| .observe .peekKind <| .observe (.kindAhead 1) ?_
  split
  next h =>
    simp only [Bool.and_eq_true, decide_eq_true_eq] at h
    refine .plain_bind (h.1.1 ▸ rfl) <| .observe .atLineStart ?_
    split
    · exact .fail trivial
    · exact predicateRest_brackets true
  next => exact predicateRest_brackets false

theorem resultType_brackets : resultType.Brackets place silent source awaited awaited := by
  refine .observe .peekKind <| .observe (.kindAhead 1) ?_
  dsimp only
  split
  · exact .attempt_bind predicate_brackets (fun _ _ => .idle) type_brackets
  · exact type_brackets

theorem functionTail_brackets (typeParams : List TypeParam) :
    (functionTail typeParams).Brackets place silent source awaited awaited :=
  .bind params_brackets fun _ _ => .bind (.expect rfl) fun _ _ =>
    .bind resultType_brackets fun _ _ => .idle

theorem constructorType_brackets (isAbstract : Bool) :
    (constructorType isAbstract).Brackets place silent source awaited awaited :=
  .bind (.expect rfl) fun _ _ => .bind typeParams_brackets fun _ _ =>
    .bind (functionTail_brackets _) fun _ _ => .idle

theorem abstractConstructorType_brackets (h : isBracket source.peek.kind = false) :
    abstractConstructorType.Brackets place silent source awaited awaited :=
  .attempt_bind (.plain_bind h (constructorType_brackets true))
    (fun _ _ => .idle) .refuse

theorem parenType_brackets (h : source.peek.kind = .mark .openParen) :
    parenType.Brackets place silent source awaited awaited :=
  .attempt_bind (functionTail_brackets []) (fun _ _ => .idle) <|
    .opening_bind h rfl <| .bind type_brackets fun _ _ =>
      .bind .expectOrReport_closing fun _ _ => .idle

theorem genericFunctionType_brackets :
    genericFunctionType.Brackets place silent source awaited awaited :=
  .attempt_bind (.bind typeParams_brackets fun _ _ => functionTail_brackets _)
    (fun _ _ => .idle) .refuse

theorem signature_brackets : signature.Brackets place silent source awaited awaited := by
  refine .bind typeParams_brackets fun _ _ => .bind params_brackets fun _ _ =>
    .bind (.skipIf rfl) fun found _ => ?_
  split
  · exact .bind (.optional resultType_brackets) fun _ _ => .idle
  · exact .bind .idle fun _ _ => .idle

/-! ## Tuples, object types and template literals -/

theorem plainElement_brackets : plainElement.Brackets place silent source awaited awaited := by
  refine .bind (.withSpan (Q := fun _ => Nests false awaited) <| .bind type_brackets fun _ _ =>
    .bind (.skipIf rfl) fun _ _ => .idle) fun found _ => ?_
  obtain ⟨⟨type, isOptional⟩, span⟩ := found
  cases isOptional <;> exact .idle

theorem labelledElement_brackets :
    labelledElement.Brackets place silent source awaited awaited := by
  refine .spanned <| .bind (.skipIf rfl) fun _ _ => .bind anyIdent_brackets fun _ _ =>
    .bind (.skipIf rfl) fun _ _ => .bind (.expect rfl) fun _ _ =>
      .bind type_brackets fun _ _ => .observe .peekKind ?_
  split
  next h =>
    exact .bind (.withSpan (Q := fun _ => Nests false awaited) <|
      .advance fun _ => .of_plain (h ▸ rfl)) fun _ _ => .report_bind
  next => exact .idle

theorem tupleElement_brackets : tupleElement.Brackets place silent source awaited awaited := by
  obtain ⟨found, hfound⟩ := labelFollows_observes source
    (source.peek.kind == .mark .ellipsis).toNat
  refine .observe (.nextIs _) <| .observe hfound ?_
  split
  · exact labelledElement_brackets
  · exact plainElement_brackets

theorem tupleType_brackets (h : source.peek.kind = .mark .openBracket) :
    tupleType.Brackets place silent source awaited awaited :=
  .opening_bind h rfl <|
    .bind (commaSeparated_brackets fun _ => elementOrStop_carries tupleElement_brackets)
      fun _ _ => .bind .expectOrReport_closing fun _ _ => .idle

omit [place.Bracketed] in
theorem mappedModifier_brackets {kind : Kind} (h : isBracket kind = false) :
    (mappedModifier kind).Brackets place silent source awaited awaited := by
  refine .observe .peekKind ?_
  split
  next hsign =>
    refine .plain_bind ?_ <| .bind (.expect h) fun _ _ => .idle
    obtain hplus | hminus := by simpa using hsign
    · exact hplus ▸ rfl
    · exact hminus ▸ rfl
  next =>
    refine .bind (.skipIf h) fun found _ => ?_
    cases found <;> exact .idle

theorem mappedType_brackets : mappedType.Brackets place silent source awaited awaited := by
  refine .bind (.expect_opening rfl) fun _ _ => .bind (mappedModifier_brackets rfl) fun _ _ =>
    .bind (.expect_opening rfl) fun _ _ => .bind ident_brackets fun _ _ =>
    .bind (.expect rfl) fun _ _ => .bind type_brackets fun _ _ =>
    .bind (requiredTypeAfter_brackets rfl) fun _ _ => .bind .expect_closing fun _ _ =>
    .bind (mappedModifier_brackets rfl) fun _ _ =>
    .bind (requiredTypeAfter_brackets rfl) fun _ _ => .bind (.skipIf rfl) fun ended _ => ?_
  dsimp only
  cases ended
  · exact .bind (.skipIf rfl) fun _ _ => .bind .expect_closing fun _ _ => .idle
  · exact .bind .expect_closing fun _ _ => .idle

theorem braceType_brackets (h : source.peek.kind = .mark .openBrace) :
    braceType.Brackets place silent source awaited awaited :=
  .attempt_bind mappedType_brackets (fun _ _ => .idle) <|
    .opening_bind h rfl <| .bind (Place.Bracketed.brackets .members nofun).quietly fun _ _ =>
      .bind .expectOrReport_closing fun _ _ => .idle

theorem templateRest_brackets : templateRest.Brackets place silent source awaited awaited := by
  refine .map <| .collect fun source => .bind type_brackets fun _ _ => .observe .peek ?_
  split
  next h => exact .plain_bind (h ▸ rfl) <| .idle
  next h => exact .plain_bind (h ▸ rfl) <| .idle
  next => exact .reportHere_bind

theorem templateType_brackets (h : isBracket source.peek.kind = false) :
    templateType.Brackets place silent source awaited awaited := by
  refine .plain_bind h ?_
  split
  · exact .bind templateRest_brackets fun _ _ => .idle
  · exact .bind .idle fun _ _ => .idle

/-! ## Names and other primary types -/

theorem importType_brackets : importType.Brackets place silent source awaited awaited := by
  refine .bind (.expect rfl) fun _ _ => .bind (.expect_opening rfl) fun _ _ =>
    .bind stringLit_brackets fun _ _ => .bind .expect_closing fun _ _ =>
    .bind (.skipIf rfl) fun found _ => ?_
  cases found
  · exact .bind .idle fun _ _ => .bind typeArgs_brackets fun _ _ => .idle
  · exact .bind (.map qualifier_brackets) fun _ _ => .bind typeArgs_brackets fun _ _ => .idle

theorem queryType_brackets (h : isBracket source.peek.kind = false) :
    queryType.Brackets place silent source awaited awaited := by
  refine .plain_bind h <| .observe .peekKind ?_
  split
  · exact .bind (.map importType_brackets) fun _ _ => .bind typeArgs_brackets fun _ _ => .idle
  · exact .bind (.map entityName_brackets) fun _ _ => .bind typeArgs_brackets fun _ _ => .idle

theorem namedType_brackets : namedType.Brackets place silent source awaited awaited := by
  refine .observe .peek <| .observe (.kindAhead 1) ?_
  split
  next h =>
    simp only [Bool.and_eq_true, decide_eq_true_eq] at h
    exact .plain_bind (h.1.1.1 ▸ rfl) <| .idle
  next =>
    split
    · exact .map typeRef_brackets
    · exact .refuse

omit [place.Bracketed] in
theorem negativeType_brackets (h : isBracket source.peek.kind = false) :
    negativeType.Brackets place silent source awaited awaited := by
  refine .observe (.kindAhead 1) ?_
  split
  next hafter =>
    rw [source.ahead_one] at hafter
    refine .plain_bind h <| .plain_bind ?_ <| .idle
    obtain hnumber | hbigint := by simpa using hafter
    · exact hnumber ▸ rfl
    · exact hbigint ▸ rfl
  next => exact .refuse

omit [place.Bracketed] in
theorem isBracket_of_primitive {kind : Kind} {primitive : Primitive}
    (h : primitive? kind = some primitive) : isBracket kind = false := by
  unfold primitive? at h
  split at h
  all_goals first | rfl | cases h

theorem primaryKind_brackets : primaryKind.Brackets place silent source awaited awaited := by
  refine .observe .peek ?_
  split
  next h => exact .plain_bind (isBracket_of_primitive h) <| .idle
  next =>
    split
    next h => exact .plain_bind (h ▸ rfl) <| .idle
    next h => exact .plain_bind (h ▸ rfl) <| .idle
    next h => exact .plain_bind (h ▸ rfl) <| .idle
    next h => exact .plain_bind (h ▸ rfl) <| .idle
    next h => exact .plain_bind (h ▸ rfl) <| .idle
    next h => exact negativeType_brackets (h ▸ rfl)
    next h => exact templateType_brackets (h ▸ rfl)
    next h => exact templateType_brackets (h ▸ rfl)
    next h => exact .plain_bind (h ▸ rfl) <| .idle
    next h => exact parenType_brackets h
    next => exact genericFunctionType_brackets
    next => exact constructorType_brackets false
    next h => exact abstractConstructorType_brackets (h ▸ rfl)
    next h => exact tupleType_brackets h
    next h => exact braceType_brackets h
    next h => exact queryType_brackets (h ▸ rfl)
    next => exact .map importType_brackets
    next h => exact .plain_bind (h ▸ rfl) <| .bind type_brackets fun _ _ => .idle
    next => exact namedType_brackets

/-! ## Suffixes and operators -/

theorem suffix_brackets (h : source.peek.kind = .mark .openBracket) :
    suffix.Brackets place silent source awaited awaited := by
  -- The bracket is closed at once or behind the index.
  refine .opening_bind h rfl <| .bind (Q := fun found => Nests false
    (if found then awaited else .closeBracket :: awaited)) (.skipIf_of .of_closing fun _ => id)
    fun found _ => ?_
  cases found
  · exact .optional_bind type_brackets fun _ _ => .bind .expectOrReport_closing fun _ _ => .idle
  · exact .idle

theorem suffixedType_brackets : suffixedType.Brackets place silent source awaited awaited := by
  refine .bind (.spanned primaryKind_brackets) fun first _ =>
    .loop (I := fun _ => Nests false awaited) (fun type source => ?_) first
  refine .observe .peek ?_
  split
  next h =>
    simp only [Bool.and_eq_true, decide_eq_true_eq] at h
    refine .bind (.withSpan (Q := fun _ => Nests false awaited) (suffix_brackets h.1))
      fun found _ => ?_
    obtain ⟨suffix, span⟩ := found
    cases suffix <;> exact .idle
  next => exact .idle

theorem inferredType_brackets (inBound : Bool) (h : isBracket source.peek.kind = false) :
    (inferredType inBound).Brackets place silent source awaited awaited := by
  refine .plain_bind h <| .bind ident_brackets fun _ _ => .observe .peekKind ?_
  split
  next hextends =>
    refine .bind (Q := fun _ => Nests false awaited) ?_ fun _ _ => .idle
    exact (Place.Bracketed.brackets (.constraint inBound) fun _ _ => hextends).quietly
  next => exact .idle

theorem operand_brackets (inBound : Bool) :
    (Parser.nested (.operand inBound)).Brackets place silent source awaited awaited :=
  (Place.Bracketed.brackets (.operand inBound) nofun).quietly

theorem operatorType_brackets (inBound : Bool) :
    (operatorType inBound).Brackets place silent source awaited awaited := by
  refine .observe .peekKind <| .observe (.kindAhead 1) ?_
  split
  next h =>
    exact .spanned <| .plain_bind (h ▸ rfl) <| .bind (operand_brackets _) fun _ _ => .idle
  next =>
    split
    next h =>
      simp only [Bool.and_eq_true, decide_eq_true_eq, source.ahead_one] at h
      exact .spanned <| .plain_bind (h.1 ▸ rfl) <| .plain_bind (h.2 ▸ rfl) <| .idle
    next =>
      split
      next h =>
        simp only [Bool.and_eq_true, decide_eq_true_eq] at h
        exact .spanned <| .plain_bind (h.1 ▸ rfl) <| .bind (operand_brackets _) fun _ _ => .idle
      next =>
        split
        next h => exact .spanned (inferredType_brackets inBound (h ▸ rfl))
        next => exact suffixedType_brackets

omit [place.Bracketed] in
theorem operands_brackets {mark : Mark} {wrap : List Ty → TyKind} {operand : Parser Ty}
    (hmark : isBracket (.mark mark) = false)
    (h : ∀ silent source, operand.Brackets place silent source awaited awaited) :
    (operands mark wrap operand).Brackets place silent source awaited awaited := by
  unfold operands
  refine .spanned <| .bind (.skipIf hmark) fun _ _ => .bind (h _ _) fun _ _ =>
    .observe (.nextIs _) ?_
  split
  · exact .bind (afterEach_brackets hmark (h _)) fun _ _ => .idle
  · exact .idle

theorem unionType_brackets (inBound : Bool) :
    (unionType inBound).Brackets place silent source awaited awaited :=
  operands_brackets rfl fun _ _ => operands_brackets rfl fun _ _ => operatorType_brackets inBound

theorem conditionalType_brackets :
    conditionalType.Brackets place silent source awaited awaited := by
  unfold conditionalType
  refine .spanned <| .bind (unionType_brackets false) fun _ _ => .observe .peek ?_
  split
  next h =>
    simp only [Bool.and_eq_true, decide_eq_true_eq] at h
    refine .optional_bind ?_ fun _ _ => .idle
    exact .plain_bind (h.1 ▸ rfl) <| .bind (unionType_brackets true) fun _ _ =>
      .bind (.expect rfl) fun _ _ => .bind type_brackets fun _ _ =>
      .bind (.expect rfl) fun _ _ => .bind type_brackets fun _ _ => .idle
  next => exact .idle

theorem inferConstraint_brackets (inBound : Bool) (h : isBracket source.peek.kind = false) :
    (inferConstraint inBound).Brackets place silent source awaited awaited := by
  -- Without a constraint nothing was read, not even the keyword.
  refine .attempt (.plain_bind h <| .bind (unionType_brackets true) fun _ _ =>
    .observe .peekKind ?_) fun _ => id
  split
  · exact .fail trivial
  · exact .idle

end

end Parser

end DeclFile

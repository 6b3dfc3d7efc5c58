import DeclFile.Parser.Type
import DeclFile.Proofs.Succession.Basic

/-! # Diagnostics of names, gaps and types

Nothing is reported while tokens are skipped, and of what is tried nothing is kept that reports.
Only the question mark behind a labelled element of a tuple is read before it is reported.
-/

namespace DeclFile.Parser

variable {α : Type} {text : List Token} {place : Place} {source : TokenStream}

/-! ## Names -/

theorem readIdent_proceeds : readIdent.Proceeds text place source :=
  .bind .advance fun _ _ => .pure

theorem ident_proceeds : ident.Proceeds text place source := by
  refine .observe .peekKind ?_
  split
  · exact readIdent_proceeds
  · exact .refuse

theorem anyIdent_proceeds : anyIdent.Proceeds text place source := by
  refine .observe .peekKind ?_
  split
  · exact readIdent_proceeds
  · exact .refuse

theorem stringLit_proceeds : stringLit.Proceeds text place source :=
  .bind .expect fun _ _ => .pure

theorem moreSegments_proceeds : moreSegments.Proceeds text place source := by
  refine .collect fun source => .observe .peekKind (.observe (.kindAhead 1) ?_)
  split
  · exact .bind .advance fun _ _ => readIdent_proceeds.bind fun _ _ => .pure
  · exact .pure

theorem entityName_proceeds : entityName.Proceeds text place source :=
  .spanned (.observe .peekKind (.either readIdent_proceeds ident_proceeds fun _ _ =>
    moreSegments_proceeds.bind fun _ _ => .pure))

theorem qualifier_proceeds : qualifier.Proceeds text place source :=
  .spanned (anyIdent_proceeds.bind fun _ _ => moreSegments_proceeds.bind fun _ _ => .pure)

theorem exportName_proceeds : exportName.Proceeds text place source := by
  refine .observe .peekKind ?_
  split
  · exact readIdent_proceeds
  · exact anyIdent_proceeds

theorem keyExpr_proceeds : keyExpr.Proceeds text place source := by
  refine .observe .peekKind ?_
  split
  · exact .bind .advance fun _ _ => .pure
  · exact .bind .advance fun _ _ => .pure
  split
  · exact .spanned (readIdent_proceeds.bind fun _ _ => moreSegments_proceeds.bind fun _ _ => .pure)
  · exact .refuse

theorem propertyName_proceeds : propertyName.Proceeds text place source := by
  refine .observe .peek ?_
  split
  · exact .bind .advance fun _ _ => .pure
  · exact .bind .advance fun _ _ => .pure
  · exact .bind .advance fun _ _ => .pure
  · exact .spanned (.bind .advance fun _ _ => keyExpr_proceeds.bind fun _ _ =>
      .bind .expect fun _ _ => .pure)
  split
  · exact readIdent_proceeds.bind fun _ _ => .pure
  · exact .refuse

/-! ## Skipping and recovery -/

theorem skipGroup_proceeds : skipGroup.Proceeds text place source := by
  refine .loop fun depth source => .observe .peekKind ?_
  split
  · exact .pure
  refine .bind .advance fun token rest => ?_
  repeat' split
  all_goals exact .pure

theorem skipGroupsUntil_proceeds (stop : Token → Bool) :
    (skipGroupsUntil stop).Proceeds text place source := by
  refine .loop fun _ source => .observe .peek ?_
  split
  · exact .pure
  · exact skipGroup_proceeds.bind fun _ _ => .pure

theorem skipInitializer_proceeds : skipInitializer.Proceeds text place source := by
  refine .loop fun begun source => .observe .peek ?_
  split
  · exact .pure
  split
  · exact skipGroup_proceeds.bind fun _ _ => .pure
  split
  · exact .pure
  · exact .bind .advance fun _ _ => .pure

theorem skipBlockRest_proceeds : skipBlockRest.Proceeds text place source := by
  refine .loop fun depth source => .bind .advance fun token rest => ?_
  split <;> exact .pure

theorem skipToStatement_proceeds : skipToStatement.Proceeds text place source := by
  refine .loop fun _ source => .observe .peek ?_
  split
  · exact .pure
  · exact .pure
  · exact .bind .advance fun _ _ => .pure
  · exact skipGroup_proceeds.bind fun _ _ => .pure
  split
  · exact .pure
  · exact .bind .advance fun _ _ => .pure

theorem recoverStatement_proceeds (progress : Bool) :
    (recoverStatement progress).Proceeds text place source := by
  refine .observe .peekKind ?_
  split
  · exact skipToStatement_proceeds
  refine .bind .advance fun token rest => ?_
  split
  · exact .pure
  · exact skipBlockRest_proceeds.bind fun _ _ => skipToStatement_proceeds
  · exact skipToStatement_proceeds

theorem skipToMember_proceeds : skipToMember.Proceeds text place source := by
  refine .loop fun _ source => .observe .peek ?_
  split
  · exact .pure
  · exact .pure
  · exact .bind .advance fun _ _ => .pure
  · exact .bind .advance fun _ _ => .pure
  split
  · exact .pure
  split
  · exact skipGroup_proceeds.bind fun _ _ => .pure
  · exact .bind .advance fun _ _ => .pure

theorem recoverMember_proceeds (progress : Bool) :
    (recoverMember progress).Proceeds text place source := by
  refine .observe .peekKind ?_
  split
  · exact skipToMember_proceeds
  refine .bind .advance fun token rest => ?_
  split
  · exact .pure
  · exact .pure
  · exact skipToMember_proceeds

theorem endStatement_proceeds : endStatement.Proceeds text place source := by
  refine .observe .peek ?_
  split
  · exact .bind .advance fun _ _ => .pure
  split
  · exact .pure
  · exact .expectOrReport

theorem skipBody_proceeds : skipBody.Proceeds text place source := by
  refine .observe .peekKind ?_
  split
  · exact .bind .reportHere fun _ _ => skipGroup_proceeds
  · exact .pure

/-! ## Parameters and functions -/

theorem variances_proceeds : variances.Proceeds text place source := by
  refine .collect fun source => .observe .peekKind (.observe (.kindAhead 1) ?_)
  split
  · split
    · exact .bind .advance fun _ _ => .pure
    · exact .pure
  · exact .pure

theorem modifierTurn_proceeds : modifierTurn.Proceeds text place source := by
  refine .observe .peekKind (.observe (.kindAhead 1) ?_)
  split
  · split
    · exact .bind .advance fun _ _ => .pure
    · exact .pure
  · exact .pure

theorem bindingName_proceeds : bindingName.Proceeds text place source := by
  refine .observe .peekKind ?_
  split
  · exact .spanned skipGroup_proceeds
  · exact .spanned skipGroup_proceeds
  · exact readIdent_proceeds.bind fun _ _ => .pure
  · exact ident_proceeds.bind fun _ _ => .pure

theorem skipUnsupportedInitializer_proceeds (cause : Cause) :
    (skipUnsupportedInitializer cause).Proceeds text place source := by
  refine .observe .peekKind ?_
  split
  · exact .bind .reportHere fun _ _ => .bind .advance fun _ _ => skipInitializer_proceeds
  · exact .pure

theorem abstractConstructorType_proceeds : abstractConstructorType.Proceeds text place source := by
  refine .bind .attempt fun found rest => ?_
  split
  · exact .pure
  · exact .refuse

theorem genericFunctionType_proceeds : genericFunctionType.Proceeds text place source := by
  refine .bind .attempt fun found rest => ?_
  split
  · exact .pure
  · exact .refuse

theorem negativeType_proceeds : negativeType.Proceeds text place source := by
  refine .observe (.kindAhead 1) ?_
  split
  · exact .bind .advance fun _ _ => .bind .advance fun _ _ => .pure
  · exact .refuse

theorem operands_proceeds {mark : Mark} {wrap : List Ty → TyKind} {operand : Parser Ty}
    (h : ∀ source, operand.Proceeds text place source) :
    (operands mark wrap operand).Proceeds text place source := by
  unfold operands
  refine .spanned (.bind .skipIf fun _ rest => (h rest).bind fun _ source =>
    .observe (.nextIs _) ?_)
  split
  · exact .bind (.afterEach h) fun _ _ => .pure
  · exact .pure

section

variable [place.Successive text]

theorem type_proceeds : type.Proceeds text place source :=
  Place.Successive.proceeds .type

theorem typeArgs_proceeds : typeArgs.Proceeds text place source := by
  refine .observe .peek ?_
  split
  · exact .bind .advance fun _ _ => .bind (.commaSeparated fun _ => type_proceeds.elementOrStop)
      fun _ _ => .bind .expectOrReport fun _ _ => .pure
  · exact .pure

theorem typeRef_proceeds : typeRef.Proceeds text place source :=
  .spanned (entityName_proceeds.bind fun _ _ => typeArgs_proceeds.bind fun _ _ => .pure)

theorem typeAfter_proceeds (kind : Kind) : (typeAfter kind).Proceeds text place source := by
  refine .bind .skipIf fun skipped rest => ?_
  split
  · exact type_proceeds.optional
  · exact .pure

theorem typeParam_proceeds : typeParam.Proceeds text place source :=
  .spanned (variances_proceeds.bind fun _ _ => ident_proceeds.bind fun _ _ =>
    (typeAfter_proceeds _).bind fun _ _ => (typeAfter_proceeds _).bind fun _ _ => .pure)

theorem typeParams_proceeds : typeParams.Proceeds text place source := by
  refine .bind .skipIf fun skipped rest => ?_
  split
  · exact .bind (.commaSeparated fun _ => typeParam_proceeds.elementOrStop) fun _ _ =>
      .bind .expectOrReport fun _ _ => .pure
  · exact .pure

theorem param_proceeds : param.Proceeds text place source :=
  .spanned (.bind (.bind (.collect fun _ => modifierTurn_proceeds) fun _ _ => .pure) fun _ _ =>
    .bind .skipIf fun _ _ => bindingName_proceeds.bind fun _ _ => .bind .skipIf fun _ _ =>
      (typeAfter_proceeds _).bind fun _ _ =>
        (skipUnsupportedInitializer_proceeds _).bind fun _ _ => .pure)

theorem params_proceeds : params.Proceeds text place source := by
  refine .bind .expect fun _ _ => .bind (.commaSeparated fun source => ?_) fun _ _ =>
    .bind .expectOrReport fun _ _ => .pure
  refine param_proceeds.optional.bind fun found rest => ?_
  split
  · exact .pure
  · exact (skipGroupsUntil_proceeds _).bind fun _ _ => .pure

theorem resultType_proceeds : resultType.Proceeds text place source := by
  refine .observe .peekKind (.observe (.kindAhead 1) ?_)
  dsimp only
  split
  · refine .bind .attempt fun found rest => ?_
    split
    · exact .pure
    · exact type_proceeds
  · exact type_proceeds

theorem functionTail_proceeds (typeParams : List TypeParam) :
    (functionTail typeParams).Proceeds text place source :=
  params_proceeds.bind fun _ _ => .bind .expect fun _ _ => resultType_proceeds.bind fun _ _ =>
    .pure

theorem constructorType_proceeds (isAbstract : Bool) :
    (constructorType isAbstract).Proceeds text place source :=
  .bind .expect fun _ _ => typeParams_proceeds.bind fun _ _ =>
    (functionTail_proceeds _).bind fun _ _ => .pure

theorem parenType_proceeds : parenType.Proceeds text place source := by
  refine .bind .attempt fun found rest => ?_
  split
  · exact .pure
  · exact .bind .advance fun _ _ => type_proceeds.bind fun _ _ =>
      .bind .expectOrReport fun _ _ => .pure

theorem signature_proceeds : signature.Proceeds text place source := by
  refine typeParams_proceeds.bind fun _ _ => params_proceeds.bind fun _ _ =>
    .bind .skipIf fun skipped rest => ?_
  exact .either resultType_proceeds.optional .pure fun _ _ => .pure

/-! ## Tuples, object types and template literals -/

theorem plainElement_proceeds : plainElement.Proceeds text place source := by
  refine .bind (.withSpan (type_proceeds.bind fun _ _ => .bind .skipIf fun _ _ => .pure))
    fun found rest => ?_
  dsimp only
  split <;> exact .pure

/-- The question mark that is reported is the last token that is read. -/
theorem labelledElement_proceeds : labelledElement.Proceeds text place source := by
  refine .spanned (.bind .skipIf fun _ _ => anyIdent_proceeds.bind fun _ _ =>
    .bind .skipIf fun isOptional _ => .bind .expect fun _ _ => type_proceeds.bind fun type source =>
      .observe .peekKind ?_)
  split
  · exact .spannedToken_bind fun _ hfront =>
      .bind (.report (.inl (Nat.le_refl _)) hfront) fun _ _ => .pure
  · exact .pure

theorem tupleElement_proceeds : tupleElement.Proceeds text place source := by
  refine .observe (.nextIs _) (.bind ?_ fun labelled rest => ?_)
  · exact .observe (.kindAhead _) (.observe (.kindAhead _) (.observe (.kindAhead _) .pure))
  split
  · exact labelledElement_proceeds
  · exact plainElement_proceeds

theorem tupleType_proceeds : tupleType.Proceeds text place source :=
  .bind .advance fun _ _ => .bind (.commaSeparated fun _ => tupleElement_proceeds.elementOrStop)
    fun _ _ => .bind .expectOrReport fun _ _ => .pure

theorem braceType_proceeds : braceType.Proceeds text place source := by
  refine .bind .attempt fun found rest => ?_
  split
  · exact .pure
  · exact .bind .advance fun _ _ => .bind (Place.Successive.proceeds .members) fun _ _ =>
      .bind .expectOrReport fun _ _ => .pure

theorem templateType_proceeds : templateType.Proceeds text place source := by
  refine .bind .advance fun head rest => .either (.map (.collect fun source => ?_)) .pure
    fun _ _ => .pure
  refine type_proceeds.bind fun type source => .observe .peek ?_
  split
  · exact .bind .advance fun _ _ => .pure
  · exact .bind .advance fun _ _ => .pure
  · exact .bind .reportHere fun _ _ => .pure

/-! ## Names and other primary types -/

theorem importType_proceeds : importType.Proceeds text place source :=
  .bind .expect fun _ _ => .bind .expect fun _ _ => stringLit_proceeds.bind fun _ _ =>
    .bind .expect fun _ _ => .bind .skipIf fun _ _ =>
      .either (.map qualifier_proceeds) .pure fun _ _ => typeArgs_proceeds.bind fun _ _ => .pure

theorem queryType_proceeds : queryType.Proceeds text place source :=
  .bind .advance fun _ _ => .observe .peekKind
    (.either (.map importType_proceeds) (.map entityName_proceeds) fun _ _ =>
      typeArgs_proceeds.bind fun _ _ => .pure)

theorem namedType_proceeds : namedType.Proceeds text place source := by
  refine .observe .peek (.observe (.kindAhead 1) ?_)
  split
  · exact .bind .advance fun _ _ => .pure
  split
  · exact .map typeRef_proceeds
  · exact .refuse

theorem primaryKind_proceeds : primaryKind.Proceeds text place source := by
  refine .observe .peek ?_
  split
  · exact .bind .advance fun _ _ => .pure
  split
  · exact .bind .advance fun _ _ => .pure
  · exact .bind .advance fun _ _ => .pure
  · exact .bind .advance fun _ _ => .pure
  · exact .bind .advance fun _ _ => .pure
  · exact .bind .advance fun _ _ => .pure
  · exact negativeType_proceeds
  · exact templateType_proceeds
  · exact templateType_proceeds
  · exact .bind .advance fun _ _ => .pure
  · exact parenType_proceeds
  · exact genericFunctionType_proceeds
  · exact constructorType_proceeds _
  · exact abstractConstructorType_proceeds
  · exact tupleType_proceeds
  · exact braceType_proceeds
  · exact queryType_proceeds
  · exact .map importType_proceeds
  · exact .bind .advance fun _ _ => type_proceeds.bind fun _ _ => .pure
  · exact namedType_proceeds

/-! ## Suffixes and operators -/

theorem suffixTurn_proceeds (type : Ty) : (suffixTurn type).Proceeds text place source := by
  refine .observe .peek ?_
  split
  · refine .bind (.withSpan (.bind .advance fun _ _ => .bind .skipIf fun closed rest => ?_))
      fun found rest => ?_
    · split
      · exact .pure
      · refine type_proceeds.optional.bind fun found rest => ?_
        split
        · exact .bind .expectOrReport fun _ _ => .pure
        · exact .pure
    · split <;> exact .pure
  · exact .pure

theorem suffixedType_proceeds : suffixedType.Proceeds text place source :=
  .bind primaryKind_proceeds.spanned fun _ _ => .loop fun _ _ => suffixTurn_proceeds _

theorem inferredType_proceeds (inBound : Bool) :
    (inferredType inBound).Proceeds text place source := by
  refine .bind .advance fun _ _ => ident_proceeds.bind fun _ source => .observe .peekKind ?_
  split
  · exact .bind (Place.Successive.proceeds _) fun _ _ => .pure
  · exact .pure

theorem operatorType_proceeds (inBound : Bool) :
    (operatorType inBound).Proceeds text place source := by
  refine .observe .peekKind (.observe (.kindAhead 1) ?_)
  split
  · exact .spanned (.bind .advance fun _ _ => .bind (Place.Successive.proceeds _) fun _ _ => .pure)
  split
  · exact .spanned (.bind .advance fun _ _ => .bind .advance fun _ _ => .pure)
  split
  · exact .spanned (.bind .advance fun _ _ => .bind (Place.Successive.proceeds _) fun _ _ => .pure)
  split
  · exact (inferredType_proceeds inBound).spanned
  · exact suffixedType_proceeds

theorem unionType_proceeds (inBound : Bool) : (unionType inBound).Proceeds text place source :=
  operands_proceeds fun _ => operands_proceeds fun _ => operatorType_proceeds inBound

theorem conditionalRest_proceeds : conditionalRest.Proceeds text place source :=
  .bind .advance fun _ _ => (unionType_proceeds true).bind fun _ _ => .bind .expect fun _ _ =>
    type_proceeds.bind fun _ _ => .bind .expect fun _ _ => type_proceeds.bind fun _ _ => .pure

theorem conditionalType_proceeds : conditionalType.Proceeds text place source := by
  unfold conditionalType
  refine .spanned ((unionType_proceeds false).bind fun _ source => .observe .peek ?_)
  split
  · exact conditionalRest_proceeds.optional.bind fun _ _ => .pure
  · exact .pure

/-- What stands behind a whole type is reported where it begins. -/
theorem wholeType_proceeds : wholeType.Proceeds text place source :=
  type_proceeds.bind fun _ _ => .observe .peek
    (.when (.report (.inl (Nat.le_refl _)) (Nat.le_refl _)) fun _ => .pure)

end

end DeclFile.Parser

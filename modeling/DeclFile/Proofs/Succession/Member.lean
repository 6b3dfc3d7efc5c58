import DeclFile.Parser.Member
import DeclFile.Proofs.Succession.Type

/-! # Diagnostics of members

The parameters of a getter or setter are reported with the span over all of them, after what was
wrong inside.
-/

namespace DeclFile.Parser

variable {α : Type} {text : List Token} {place : Place} {source : TokenStream}

/-! ## Getters and setters -/

/-- The parameters of a getter or setter are reported when all of them were read. -/
theorem report_belated {cause : Cause} {span : Span}
    (hcause : cause ∈ accessorCauses) (hstart : span.start.offset ≤ source.front)
    (hstop : ∀ token ∈ text, span.stop.offset ≤ token.span.start.offset →
      source.front ≤ token.span.start.offset) :
    (report (cause.at span)).Proceeds text place source :=
  .report (.inr ⟨⟨cause, hcause, rfl⟩, hstop⟩) hstart

section

variable [place.Successive text]

theorem getterRest_proceeds (key : PropertyName) : (getterRest key).Proceeds text place source := by
  refine .withSpan_bind params_proceeds fun params span rest hstart hstop => ?_
  refine .when (report_belated (by decide) hstart hstop) fun _ => ?_
  exact (typeAfter_proceeds _).bind fun _ _ => .pure

theorem setterRest_proceeds (key : PropertyName) : (setterRest key).Proceeds text place source := by
  refine .withSpan_bind params_proceeds fun params span rest hstart hstop => ?_
  cases params with
  | nil => exact .bind (report_belated (by decide) hstart hstop) fun _ _ => .fail
  | cons param more =>
      refine .when (report_belated (by decide) hstart hstop) fun rest =>
        .observe .peekKind ?_
      split
      · exact .bind .reportHere fun _ _ => .bind .advance fun _ _ =>
          type_proceeds.optional.bind fun _ _ => .pure
      · exact .pure

theorem accessor?_proceeds : accessor?.Proceeds text place source := by
  refine .observe .peekKind ?_
  split
  · refine .bind .attempt fun found rest => ?_
    split
    · split
      · exact .map (getterRest_proceeds _)
      · exact .map (setterRest_proceeds _)
    · exact .pure
  · exact .pure

/-! ## Interfaces and object types -/

theorem indexSignature?_proceeds (readonly : Bool) :
    (indexSignature? readonly).Proceeds text place source := by
  refine .observe .peekKind ?_
  split
  · refine .bind .attempt fun found rest => ?_
    split
    · exact .bind .expect fun _ _ => type_proceeds.bind fun _ _ => .pure
    · exact .pure
  · exact .pure

theorem namedMember_proceeds (readonly : Bool) :
    (namedMember readonly).Proceeds text place source := by
  refine propertyName_proceeds.bind fun _ _ => .bind .skipIf fun _ _ => .observe .peekKind ?_
  split
  · exact signature_proceeds.bind fun _ _ => .pure
  · exact (typeAfter_proceeds _).bind fun _ _ => .pure

end

theorem modifierFollowed_proceeds : modifierFollowed.Proceeds text place source :=
  .observe (.look 1) .pure

section

variable [place.Successive text]

theorem keyedMember_proceeds : keyedMember.Proceeds text place source := by
  refine .observe .peekKind (modifierFollowed_proceeds.bind fun _ _ => .when .advance fun _ =>
    (indexSignature?_proceeds _).bind fun found rest => ?_)
  split
  · exact .pure
  refine accessor?_proceeds.bind fun found rest => ?_
  split
  · exact .pure
  · exact .pure
  · exact namedMember_proceeds _

theorem member_proceeds : member.Proceeds text place source := by
  refine .spanned (.observe .peekKind (.observe (.kindAhead 1) ?_))
  split
  · exact signature_proceeds.bind fun _ _ => .pure
  split
  · exact .bind .advance fun _ _ => signature_proceeds.bind fun _ _ => .pure
  · exact keyedMember_proceeds

end

theorem endMember_proceeds : endMember.Proceeds text place source := by
  refine .observe .peek ?_
  split
  · exact .bind .advance fun _ _ => .pure
  split
  · exact .pure
  · exact .bind (.report (.inl (Nat.le_refl _)) (Nat.le_refl _)) fun _ _ => .pure

theorem memberList_proceeds {skips : Kind → Bool} {element : Parser α}
    (h : ∀ source, element.Proceeds text place source) :
    (memberList skips element).Proceeds text place source := by
  refine .collect fun source => .observe .peekKind ?_
  split
  · exact .pure
  split
  · exact .bind .advance fun _ _ => .pure
  refine (h source).settle.bind fun settled rest => ?_
  split
  · exact endMember_proceeds.bind fun _ _ => .when (recoverMember_proceeds false) fun _ => .pure
  · exact (recoverMember_proceeds _).bind fun _ _ => .pure

/-! ## Classes -/

theorem classModifiers_proceeds : classModifiers.Proceeds text place source := by
  refine .loop fun modifiers source => .observe .peekKind ?_
  split
  · refine modifierFollowed_proceeds.bind fun followed rest => ?_
    split
    · exact .when .reportHere fun _ => .bind .advance fun _ _ => .pure
    · exact .pure
  · exact .pure

section

variable [place.Successive text]

theorem namedClassMember_proceeds : namedClassMember.Proceeds text place source := by
  refine propertyName_proceeds.bind fun _ _ => .bind .skipIf fun _ _ => .when .skipIf fun _ =>
    .observe .peekKind ?_
  split
  · exact signature_proceeds.bind fun _ _ => skipBody_proceeds.bind fun _ _ => .pure
  · exact (typeAfter_proceeds _).bind fun _ _ =>
      (skipUnsupportedInitializer_proceeds _).bind fun _ _ => .pure

theorem classMemberKind_proceeds (modifiers : Modifiers) :
    (classMemberKind modifiers).Proceeds text place source := by
  refine .observe .peekKind ?_
  split
  · exact .bind .reportHere fun _ _ => skipGroup_proceeds.bind fun _ _ => .fail
  refine .bind (.observe .peek (.observe (.kindAhead 1) .pure)) fun isConstructor rest => ?_
  split
  · exact .bind .advance fun _ _ => signature_proceeds.bind fun _ _ =>
      skipBody_proceeds.bind fun _ _ => .pure
  refine (indexSignature?_proceeds _).bind fun found rest => ?_
  split
  · exact .pure
  refine accessor?_proceeds.bind fun found rest => ?_
  split
  · exact skipBody_proceeds.bind fun _ _ => .pure
  · exact skipBody_proceeds.bind fun _ _ => .pure
  · exact namedClassMember_proceeds

theorem classMember_proceeds : classMember.Proceeds text place source :=
  .spanned (classModifiers_proceeds.bind fun _ _ => (classMemberKind_proceeds _).bind fun _ _ =>
    .pure)

end

end DeclFile.Parser

import DeclFile.Parser.Member
import DeclFile.Proofs.Shape.Type

/-! # The shape of parsed members

All types in a member stand where any type may, but for the results of its signatures. Broken
members are left out of their list, so nothing is asked of them.
-/

namespace DeclFile

open DeclFile.Parser (Accessor)

/-- All types in a getter or setter. -/
def Parser.Accessor.occurrences : Accessor → List Occurrence
  | .getter _ result => optionalOccurrences .other result
  | .setter _ param => param.occurrences

theorem allSound_members {clean : Prop} {members : List Member} :
    AllSound clean (memberOccurrences members) ↔
      ∀ member ∈ members, AllSound clean member.occurrences := by
  rw [memberOccurrences_eq_flatMap, allSound_flatMap]

namespace Parser

variable {α : Type} {clean : Prop} {place : Place} {source : TokenStream}

/-- What is ensured of each element is ensured of all members of a list. -/
theorem memberList_ensures {skips : Kind → Bool} {element : Parser α} {Q : α → Prop}
    (h : ∀ source, element.Ensures clean place source Q) :
    (memberList skips element).Ensures clean place source fun found =>
      ∀ result ∈ found, Q result := by
  refine .collect fun source => .skip fun next rest => ?_
  split
  · exact .pure (by simp)
  split
  · exact .skip fun _ _ => .pure (by simp)
  · refine .bind (h rest).settle fun settled rest hsettled => ?_
    cases settled with
    | done found =>
        refine .skip fun ended rest => .when fun rest => .pure ?_
        rintro result ⟨⟩
        exact hsettled
    | failed progress => exact .skip fun _ _ => .pure (by simp)

section

variable [place.Shaped clean]

theorem indexHead_ensures :
    indexHead.Ensures clean place source fun found =>
      AllSound clean (found.2.occurrences .other) :=
  .skip fun _ _ => .skip fun _ _ => .skip fun _ _ => type_ensures.bind fun _ _ hkey =>
    .skip fun _ _ => .pure hkey.all

theorem indexSignature?_ensures (readonly : Bool) :
    (indexSignature? readonly).Ensures clean place source fun found =>
      ∀ index ∈ found, AllSound clean index.occurrences := by
  refine .skip fun next rest => ?_
  split
  · refine .bind (.attempt indexHead_ensures) fun found rest hfound => ?_
    rcases found with _ | ⟨param, keyType⟩
    · exact .pure (by simp)
    · refine .skip fun _ _ => type_ensures.bind fun type rest htype => .pure ?_
      rintro index ⟨⟩
      simpa using ⟨hfound _ rfl, htype.all⟩
  · exact .pure (by simp)

theorem getterRest_ensures (key : PropertyName) :
    (getterRest key).Ensures clean place source fun found =>
      AllSound clean found.occurrences := by
  refine .skip fun (params, span) rest => .when fun rest =>
    (typeAfter_ensures _).bind fun result rest hresult => .pure ?_
  exact allSound_of_optional hresult

theorem setterRest_ensures (key : PropertyName) :
    (setterRest key).Ensures clean place source fun found =>
      AllSound clean found.occurrences := by
  refine .bind params_ensures.withSpan fun found rest hfound => ?_
  rcases found with ⟨_ | ⟨param, more⟩, span⟩
  · exact .skip fun _ _ => .fail
  · have hparam := allSound_params.mp hfound param (by simp)
    refine .when fun rest => .skip fun next rest => ?_
    split
    · exact .skip fun _ _ => .skip fun _ _ => .skip fun _ _ => .pure hparam
    · exact .pure hparam

theorem accessor?_ensures :
    accessor?.Ensures clean place source fun found =>
      ∀ accessor ∈ found, AllSound clean accessor.occurrences := by
  refine .skip fun next rest => ?_
  split
  · refine .skip fun found rest => ?_
    rcases found with _ | ⟨isGetter, key⟩
    · exact .pure (by simp)
    · refine .map (Ensures.mono (P := fun found => AllSound clean found.occurrences) ?_
        fun accessor haccessor => by simpa using haccessor)
      cases isGetter with
      | true => exact getterRest_ensures key
      | false => exact setterRest_ensures key
  · exact .pure (by simp)

/-! ## Interfaces and object types -/

theorem namedMember_ensures (readonly : Bool) :
    (namedMember readonly).Ensures clean place source fun kind =>
      AllSound clean kind.occurrences := by
  refine .skip fun key rest => .skip fun isOptional rest => .skip fun next rest => ?_
  split
  · exact signature_ensures.bind fun signature rest h => .pure (by simpa using h)
  · refine (typeAfter_ensures _).bind fun type rest htype => .pure ?_
    rw [MemberKind.occurrences]
    exact allSound_of_optional htype

theorem keyedMember_ensures :
    keyedMember.Ensures clean place source fun kind => AllSound clean kind.occurrences := by
  refine .skip fun next rest => .skip fun followed rest => .when fun rest => ?_
  refine .bind (indexSignature?_ensures _) fun index? rest hindex => ?_
  cases index? with
  | some index => exact .pure (by simpa using hindex index rfl)
  | none =>
      refine .bind accessor?_ensures fun accessor? rest haccessor => ?_
      rcases accessor? with _ | ⟨key, result⟩ | ⟨key, param⟩
      · exact namedMember_ensures _
      · exact .pure (by simpa [Accessor.occurrences] using haccessor _ rfl)
      · exact .pure (by simpa [Accessor.occurrences] using haccessor _ rfl)

theorem member_ensures :
    member.Ensures clean place source fun member => AllSound clean member.occurrences := by
  refine .spanned (Ensures.mono (P := fun kind => AllSound clean kind.occurrences) ?_
    fun kind hkind span => by simpa using hkind)
  refine .skip fun next rest => .skip fun after rest => ?_
  split
  · exact signature_ensures.bind fun signature rest h => .pure (by simpa using h)
  split
  · exact .skip fun _ _ => signature_ensures.bind fun signature rest h =>
      .pure (by simpa using h)
  · exact keyedMember_ensures

theorem members_ensures :
    members.Ensures clean place source fun found => AllSound clean (memberOccurrences found) :=
  (memberList_ensures fun _ => member_ensures).mono fun _ => allSound_members.mpr

/-! ## Classes -/

theorem namedClassMember_ensures :
    namedClassMember.Ensures clean place source fun kind => AllSound clean kind.occurrences := by
  refine .skip fun key rest => .skip fun isOptional rest => .when fun rest =>
    .skip fun next rest => ?_
  split
  · exact signature_ensures.bind fun signature rest h => .skip fun _ _ => .pure h
  · refine (typeAfter_ensures _).bind fun type rest htype => .skip fun _ _ => .pure ?_
    exact allSound_of_optional htype

theorem classMemberKind_ensures (modifiers : Modifiers) :
    (classMemberKind modifiers).Ensures clean place source fun kind =>
      AllSound clean kind.occurrences := by
  refine .skip fun next rest => ?_
  split
  · exact .skip fun _ _ => .skip fun _ _ => .fail
  refine .skip fun follows rest => ?_
  split
  · exact .skip fun _ _ => signature_ensures.bind fun signature rest h => .skip fun _ _ => .pure h
  refine .bind (indexSignature?_ensures _) fun index? rest hindex => ?_
  cases index? with
  | some index => exact .pure (hindex index rfl)
  | none =>
      refine .bind accessor?_ensures fun accessor? rest haccessor => ?_
      rcases accessor? with _ | ⟨key, result⟩ | ⟨key, param⟩
      · exact namedClassMember_ensures
      · exact .skip fun _ _ => .pure (haccessor _ rfl)
      · exact .skip fun _ _ => .pure (haccessor _ rfl)

theorem classMember_ensures :
    classMember.Ensures clean place source fun member =>
      AllSound clean member.kind.occurrences :=
  .spanned <| .skip fun modifiers _ => (classMemberKind_ensures modifiers).bind
    fun _ _ hkind => .pure fun _ => hkind

theorem classMembers_ensures :
    classMembers.Ensures clean place source fun found =>
      AllSound clean (found.flatMap (·.kind.occurrences)) :=
  (memberList_ensures fun _ => classMember_ensures).mono fun _ => allSound_flatMap.mpr

end

end Parser

end DeclFile

import DeclFile.Proofs.Brackets.Type
import DeclFile.Proofs.Shape.Basic

/-! # The shape of parsed types

Each parser of types is judged from the parsers that it calls. Where a form breaks off, what
was read before is still returned, and it binds tightly enough for its place.
-/

namespace DeclFile

section

variable {clean : Prop}

theorem allSound_types {types : List Ty} :
    AllSound clean (typeOccurrences types) ↔
      ∀ type ∈ types, AllSound clean (type.occurrences .other) := by
  rw [typeOccurrences_eq_flatMap, allSound_flatMap]

theorem allSound_typeParams {params : List TypeParam} :
    AllSound clean (typeParamOccurrences params) ↔
      ∀ param ∈ params, AllSound clean param.occurrences := by
  rw [typeParamOccurrences_eq_flatMap, allSound_flatMap]

theorem allSound_params {params : List Param} :
    AllSound clean (paramOccurrences params) ↔
      ∀ param ∈ params, AllSound clean param.occurrences := by
  rw [paramOccurrences_eq_flatMap, allSound_flatMap]

theorem allSound_elements {elements : List TupleElement} :
    AllSound clean (elementOccurrences elements) ↔
      ∀ element ∈ elements, AllSound clean element.occurrences := by
  rw [elementOccurrences_eq_flatMap, allSound_flatMap]

end

namespace Parser

variable {α : Type} {clean : Prop} {place : Place} {source : TokenStream}

theorem typeOf_ensures {level : Nat} {form : Parser TyKind}
    (h : form.Ensures clean place source (TyKind.Sound clean level)) :
    (typeOf form).Ensures clean place source (Ty.Sound clean level) :=
  .spanned (h.mono fun _ hkind span => hkind.ty span)

section

variable [place.Shaped clean]

theorem type_ensures : type.Ensures clean place source (Ty.Sound clean 4) :=
  Place.Shaped.ensures .type

/-! ## Parameters -/

theorem typeArgs_ensures :
    typeArgs.Ensures clean place source fun args => AllSound clean (argOccurrences args) := by
  refine .skip fun next rest => ?_
  split
  · refine .skip fun _ _ => .bind (.commaSeparated fun _ => .elementOrStop type_ensures)
      fun args rest hargs => .skip fun _ _ => .pure ?_
    exact allSound_types.mpr fun type htype => (hargs type htype).all
  · exact .pure allSound_nil

theorem typeRef_ensures :
    typeRef.Ensures clean place source fun found => AllSound clean found.occurrences :=
  .spanned <| .skip fun name rest => typeArgs_ensures.bind fun args rest hargs =>
    .pure fun span => by simpa using hargs

theorem typeAfter_ensures (kind : Kind) :
    (typeAfter kind).Ensures clean place source fun found =>
      ∀ type ∈ found, type.Sound clean 4 := by
  refine .skip fun skipped rest => ?_
  split
  · exact .optional type_ensures
  · exact .pure (by simp)

theorem requiredTypeAfter_ensures (kind : Kind) :
    (requiredTypeAfter kind).Ensures clean place source fun found =>
      ∀ type ∈ found, type.Sound clean 4 := by
  refine .skip fun skipped rest => ?_
  split
  · exact type_ensures.bind fun type rest htype => .pure (by simpa using htype)
  · exact .pure (by simp)

/-- A type that may be missing is sound if it is there. -/
theorem allSound_of_optional {level : Nat} {type? : Option Ty}
    (h : ∀ type ∈ type?, type.Sound clean level) :
    AllSound clean (optionalOccurrences .other type?) :=
  allSound_optional.mpr fun type htype => (h type htype).all

theorem typeParam_ensures :
    typeParam.Ensures clean place source fun param => AllSound clean param.occurrences := by
  refine .spanned <| .skip fun words rest => .skip fun name rest =>
    (typeAfter_ensures _).bind fun constraint rest hconstraint =>
    (typeAfter_ensures _).bind fun default rest hdefault => .pure fun span => ?_
  rw [TypeParam.occurrences, allSound_append]
  exact ⟨allSound_of_optional hconstraint, allSound_of_optional hdefault⟩

theorem typeParams_ensures :
    typeParams.Ensures clean place source fun params =>
      AllSound clean (typeParamOccurrences params) := by
  refine .skip fun skipped rest => ?_
  split
  · refine .bind (.commaSeparated fun _ => .elementOrStop typeParam_ensures)
      fun params rest hparams => .skip fun _ _ => .pure ?_
    exact allSound_typeParams.mpr hparams
  · exact .pure (by simp)

theorem param_ensures :
    param.Ensures clean place source fun param => AllSound clean param.occurrences := by
  refine .spanned <| .skip fun modifiers rest => .skip fun isRest rest => .skip fun name rest =>
    .skip fun isOptional rest => (typeAfter_ensures _).bind fun annotation rest hannotation =>
    .skip fun _ _ => .pure fun span => ?_
  rw [Param.occurrences]
  exact allSound_of_optional hannotation

theorem params_ensures :
    params.Ensures clean place source fun params => AllSound clean (paramOccurrences params) := by
  refine .skip fun _ _ => .bind (.commaSeparated fun _ => ?_) fun params rest hparams =>
    .skip fun _ _ => .pure (allSound_params.mpr hparams)
  refine .bind (.optional param_ensures) fun found rest hfound => ?_
  cases found with
  | some param => exact .pure hfound
  | none => exact .skip fun _ _ => .pure (by simp)

/-! ## Functions -/

/-- Without a type, what is predicated must be asserted. -/
theorem predicateRest_ensures (asserts : Bool) :
    (predicateRest asserts).Ensures clean place source fun kind =>
      ∀ span, AllSound clean ((⟨kind, span⟩ : Ty).occurrences .result) := by
  refine .skip fun subject rest => .skip fun next rest => ?_
  split
  · refine .skip fun _ _ => type_ensures.bind fun type rest htype => .pure fun span => ?_
    exact allSound_cons.mpr ⟨⟨trivial, rfl, nofun⟩, htype.all⟩
  · split
    next hasserts =>
      refine .pure fun span => allSound_cons.mpr ⟨⟨trivial, rfl, fun _ => hasserts⟩, ?_⟩
      simp
    next => exact .fail

theorem predicate_ensures :
    predicate.Ensures clean place source fun type =>
      AllSound clean (type.occurrences .result) := by
  refine .spanned <| .skip fun next rest => .skip fun after rest => ?_
  split
  · refine .skip fun _ _ => .skip fun broken rest => ?_
    split
    · exact .fail
    · exact predicateRest_ensures true
  · exact predicateRest_ensures false

theorem resultType_ensures :
    resultType.Ensures clean place source fun type =>
      AllSound clean (type.occurrences .result) := by
  have htype (rest : TokenStream) : type.Ensures clean place rest fun type =>
      AllSound clean (type.occurrences .result) :=
    type_ensures.mono fun _ h => h.standingAs .result
  refine .skip fun next rest => .skip fun after rest => ?_
  dsimp only
  split
  · refine .bind (.attempt predicate_ensures) fun found rest hfound => ?_
    cases found with
    | some predicate => exact .pure (hfound predicate rfl)
    | none => exact htype rest
  · exact htype rest

theorem functionTail_ensures {typeParams : List TypeParam}
    (h : AllSound clean (typeParamOccurrences typeParams)) :
    (functionTail typeParams).Ensures clean place source fun function =>
      AllSound clean function.occurrences := by
  refine params_ensures.bind fun params rest hparams => .skip fun _ _ =>
    resultType_ensures.bind fun result rest hresult => .pure ?_
  simp [h, hparams, hresult]

theorem constructorType_ensures (isAbstract : Bool) :
    (constructorType isAbstract).Ensures clean place source (TyKind.Sound clean 0) := by
  refine .skip fun _ _ => typeParams_ensures.bind fun typeParams rest htypeParams =>
    (functionTail_ensures htypeParams).bind fun function rest hfunction => .pure ?_
  exact .of_isPrimary rfl (by simpa using hfunction)

theorem abstractConstructorType_ensures :
    abstractConstructorType.Ensures clean place source (TyKind.Sound clean 0) := by
  refine .bind (.attempt (.skip fun _ _ => constructorType_ensures true))
    fun found rest hfound => ?_
  cases found with
  | some kind => exact .pure (hfound kind rfl)
  | none => exact .refuse

theorem parenType_ensures :
    parenType.Ensures clean place source (TyKind.Sound clean 0) := by
  refine .bind (.attempt (functionTail_ensures (by simp))) fun found rest hfound => ?_
  cases found with
  | some function =>
      exact .pure (.of_isPrimary rfl (by simpa using hfound function rfl))
  | none =>
      refine .skip fun _ _ => type_ensures.bind fun inner rest hinner => .skip fun _ _ => .pure ?_
      exact .of_isPrimary rfl (by simpa using hinner.all)

theorem genericFunctionType_ensures :
    genericFunctionType.Ensures clean place source (TyKind.Sound clean 0) := by
  refine .bind (.attempt (typeParams_ensures.bind fun _ _ htypeParams =>
    functionTail_ensures htypeParams)) fun found rest hfound => ?_
  cases found with
  | some function =>
      exact .pure (.of_isPrimary rfl (by simpa using hfound function rfl))
  | none => exact .refuse

theorem signature_ensures :
    signature.Ensures clean place source fun found => AllSound clean found.occurrences := by
  refine typeParams_ensures.bind fun typeParams rest htypeParams =>
    params_ensures.bind fun params rest hparams => .skip fun _ _ => ?_
  refine .either (Q := fun result => AllSound clean (optionalOccurrences .result result))
    (fun _ => ?_) (fun _ => .pure (by simp)) fun result rest hresult => .pure ?_
  · exact (Ensures.optional resultType_ensures).mono fun _ => allSound_optional.mpr
  · simp [htypeParams, hparams, hresult]

/-! ## Tuples, object types and template literals -/

theorem plainElement_ensures :
    plainElement.Ensures clean place source fun element =>
      AllSound clean element.occurrences ∧ element.MarkedOnce clean := by
  refine .bind (.withSpan (Q := fun found => found.1.Sound clean 4) <| type_ensures.bind
    fun type rest htype => .skip fun _ _ => .pure htype) fun found rest hfound => ?_
  rcases found with ⟨⟨type, isOptional⟩, span⟩
  dsimp only at hfound ⊢
  split
  · refine .pure ⟨allSound_cons.mpr ⟨⟨trivial, rfl⟩, hfound.all⟩, fun _ => ⟨rfl, rfl⟩, ?_⟩
    exact fun _ hlabel => absurd rfl hlabel
  · refine .pure ⟨hfound.standingAs .element, fun _ => ⟨rfl, rfl⟩, ?_⟩
    exact fun _ hlabel => absurd rfl hlabel

theorem labelledElement_ensures :
    labelledElement.Ensures clean place source fun element =>
      AllSound clean element.occurrences ∧ element.MarkedOnce clean := by
  refine .spanned <| .skip fun isRest rest => .skip fun label rest => .skip fun isOptional rest =>
    .skip fun _ _ => type_ensures.bind fun type rest htype => .skip fun next rest => ?_
  split
  · -- The type is marked as well as the element, which was reported.
    refine .skip fun marker rest => .bind (Q := fun _ => ¬clean) (.report id)
      fun _ rest hunclean => .pure fun span => ⟨?_, nofun, ?_⟩
    · exact allSound_cons.mpr ⟨⟨trivial, rfl⟩, htype.all⟩
    · exact fun hclean => absurd hclean hunclean
  · refine .pure fun span => ⟨htype.standingAs .element, nofun, fun _ _ inner => ?_⟩
    exact htype.kind_ne_optional inner

theorem tupleElement_ensures :
    tupleElement.Ensures clean place source fun element =>
      AllSound clean element.occurrences ∧ element.MarkedOnce clean := by
  refine .skip fun dots rest => .skip fun labelled rest => ?_
  split
  · exact labelledElement_ensures
  · exact plainElement_ensures

theorem tupleType_ensures : tupleType.Ensures clean place source (TyKind.Sound clean 0) := by
  refine .skip fun _ _ => .bind (.commaSeparated fun _ => .elementOrStop tupleElement_ensures)
    fun elements rest helements => .skip fun _ _ => .pure ⟨Nat.le_refl _, trivial, ?_, ?_⟩
  · exact fun element helement => (helements element helement).2
  · rw [TyKind.occurrences]
    exact allSound_elements.mpr fun element helement => (helements element helement).1

theorem mappedType_ensures :
    mappedType.Ensures clean place source fun mapped => AllSound clean mapped.occurrences := by
  refine .skip fun _ _ => .skip fun readonly _ => .skip fun _ _ => .skip fun key _ =>
    .skip fun _ _ => type_ensures.bind fun constraint _ hconstraint =>
    (requiredTypeAfter_ensures _).bind fun nameType _ hnameType => .skip fun _ _ =>
    .skip fun isOptional _ => (requiredTypeAfter_ensures _).bind fun value _ hvalue =>
    .skip fun ended rest => .when fun rest => .skip fun _ _ => .pure ?_
  simp only [MappedTy.occurrences, allSound_append]
  exact ⟨⟨hconstraint.all, allSound_of_optional hnameType⟩, allSound_of_optional hvalue⟩

theorem braceType_ensures : braceType.Ensures clean place source (TyKind.Sound clean 0) := by
  refine .bind (.attempt mappedType_ensures) fun found rest hfound => ?_
  cases found with
  | some mapped =>
      exact .pure (.of_isPrimary rfl (by simpa using hfound mapped rfl))
  | none =>
      refine .skip fun _ _ => .bind (Place.Shaped.ensures .members) fun members rest hmembers =>
        .skip fun _ _ => .pure (.of_isPrimary rfl ?_)
      rw [TyKind.occurrences]
      exact hmembers

omit [place.Shaped clean] in
@[simp] theorem templateOccurrences_textPart (text : String) :
    templateOccurrences (textPart text) = [] := by
  unfold textPart
  split <;> simp

omit [place.Shaped clean] in
theorem allSound_templates {pieces : List (List TemplatePart)}
    (h : ∀ parts ∈ pieces, AllSound clean (templateOccurrences parts)) :
    AllSound clean (templateOccurrences pieces.flatten) := by
  induction pieces with
  | nil => simp
  | cons parts pieces ih =>
      rw [List.flatten_cons, templateOccurrences_append, allSound_append]
      exact ⟨h parts (by simp), ih fun parts hparts => h parts (by simp [hparts])⟩

theorem templateRest_ensures :
    templateRest.Ensures clean place source fun parts =>
      AllSound clean (templateOccurrences parts) := by
  refine .map <| Ensures.mono (.collect fun source => ?_) fun _ => allSound_templates
  refine type_ensures.bind fun type rest htype => .skip fun next rest => ?_
  split
  · exact .skip fun _ _ => .pure (by simpa using htype.all)
  · exact .skip fun _ _ => .pure (by simpa using htype.all)
  · exact .skip fun _ _ => .pure (by simpa using htype.all)

theorem templateType_ensures : templateType.Ensures clean place source (TyKind.Sound clean 0) := by
  refine .skip fun head rest => .either
    (Q := fun parts => AllSound clean (templateOccurrences parts))
    (fun _ => templateRest_ensures) (fun _ => .pure (by simp)) fun parts rest hparts => .pure ?_
  exact .of_isPrimary rfl (by simpa using hparts)

/-! ## Names and other primary types -/

theorem importType_ensures :
    importType.Ensures clean place source fun imported => AllSound clean imported.occurrences := by
  refine .skip fun _ _ => .skip fun _ _ => .skip fun specifier _ => .skip fun _ _ =>
    .skip fun dotted rest => .either (Q := fun _ => True) (fun _ => .any) (fun _ => .any)
      fun qualifier rest _ => typeArgs_ensures.bind fun args rest hargs => .pure ?_
  simpa using hargs

theorem queryType_ensures : queryType.Ensures clean place source (TyKind.Sound clean 0) := by
  refine .skip fun _ _ => .skip fun next rest => .either
    (Q := fun target => AllSound clean target.occurrences) (fun _ => .map ?_)
    (fun _ => .map (Ensures.any.mono fun name _ => by simp)) fun target rest htarget =>
    typeArgs_ensures.bind fun args rest hargs => .pure (.of_isPrimary rfl ?_)
  · exact importType_ensures.mono fun _ => by simp
  · simpa using ⟨htarget, hargs⟩

theorem namedType_ensures : namedType.Ensures clean place source (TyKind.Sound clean 0) := by
  refine .skip fun next rest => .skip fun after rest => ?_
  split
  · exact .skip fun _ _ => .pure (.of_isPrimary rfl (by simp))
  · split
    · refine .map (typeRef_ensures.mono fun reference hreference => ?_)
      exact .of_isPrimary rfl (by simpa using hreference)
    · exact .refuse

omit [place.Shaped clean] in
theorem negativeType_ensures : negativeType.Ensures clean place source (TyKind.Sound clean 0) := by
  refine .skip fun after rest => ?_
  split
  · exact .skip fun _ _ => .skip fun _ _ => .pure (.of_isPrimary rfl (by simp))
  · exact .refuse

/-- No single keyword is the type `unique symbol`. -/
theorem isPrimary_of_primitive? {kind : Kind} {primitive : Primitive}
    (h : primitive? kind = some primitive) : (TyKind.primitive primitive).isPrimary = true := by
  unfold primitive? at h
  split at h <;> cases h <;> rfl

theorem primaryKind_ensures : primaryKind.Ensures clean place source (TyKind.Sound clean 0) := by
  have hplain {kind : TyKind} {rest : TokenStream} (h : kind.isPrimary = true)
      (hinner : AllSound clean kind.occurrences) :
      (do let _ ← advance; return kind).Ensures clean place rest (TyKind.Sound clean 0) :=
    .skip fun _ _ => .pure (.of_isPrimary h hinner)
  refine .skip fun next rest => ?_
  split
  next h => exact hplain (isPrimary_of_primitive? h) (by simp)
  next =>
    split
    · exact hplain rfl (by simp)
    · exact hplain rfl (by simp)
    · exact hplain rfl (by simp)
    · exact hplain rfl (by simp)
    · exact hplain rfl (by simp)
    · exact negativeType_ensures
    · exact templateType_ensures
    · exact templateType_ensures
    · exact hplain rfl (by simp)
    · exact parenType_ensures
    · exact genericFunctionType_ensures
    · exact constructorType_ensures false
    · exact abstractConstructorType_ensures
    · exact tupleType_ensures
    · exact braceType_ensures
    · exact queryType_ensures
    · refine .map (importType_ensures.mono fun imported himported => ?_)
      exact .of_isPrimary rfl (by simpa using himported)
    · refine .skip fun _ _ => type_ensures.bind fun inner rest hinner => .pure ?_
      exact .of_isPrimary rfl (by simpa using hinner.all)
    · exact namedType_ensures

/-! ## Suffixes and operators -/

theorem suffix_ensures :
    suffix.Ensures clean place source fun
      | .index index => index.Sound clean 4
      | _ => True := by
  refine .skip fun _ _ => .skip fun closed rest => ?_
  split
  · exact .pure trivial
  · refine .bind (.optional type_ensures) fun found rest hfound => ?_
    cases found with
    | some index => exact .skip fun _ _ => .pure (hfound index rfl)
    | none => exact .pure trivial

/-- A broken pair of brackets leaves the type in front of it, which is as tight as before. -/
theorem suffixTurn_ensures {type : Ty} (h : type.Sound clean 0) :
    (suffixTurn type).Ensures clean place source
      (Step.Leaves (Ty.Sound clean 0) (Ty.Sound clean 0)) := by
  have htight := Nat.le_zero.mp h.looseness_le
  refine .skip fun next rest => ?_
  split
  · refine .bind (.withSpan suffix_ensures) fun found rest hfound => ?_
    rcases found with ⟨_ | index | _, span⟩
    · have harray : (TyKind.array type).Sound clean 0 :=
        ⟨Nat.le_refl _, htight, trivial, by simpa using h.all⟩
      exact .pure (harray.ty _)
    · have hindexed : (TyKind.indexedAccess type index).Sound clean 0 :=
        ⟨Nat.le_refl _, htight, trivial, by simpa using ⟨h.all, hfound.all⟩⟩
      exact .pure (hindexed.ty _)
    · exact .pure h
  · exact .pure h

theorem suffixedType_ensures : suffixedType.Ensures clean place source (Ty.Sound clean 0) :=
  (typeOf_ensures primaryKind_ensures).bind fun _ _ hfirst =>
    .loop hfirst fun _ _ => suffixTurn_ensures

theorem inferredType_ensures (inBound : Bool) :
    (inferredType inBound).Ensures clean place source (TyKind.Sound clean 1) := by
  refine .skip fun _ _ => .skip fun param rest => .skip fun next rest => ?_
  split
  · refine .bind (Place.Shaped.ensures (.constraint inBound)) fun constraint rest hconstraint =>
      .pure ⟨Nat.le_refl _, ?_, trivial, ?_⟩
    · exact fun type htype => (hconstraint type htype).looseness_lt
    · rw [TyKind.occurrences]
      exact allSound_of_optional hconstraint
  · exact .pure ⟨Nat.le_refl _, nofun, trivial, by simp⟩

theorem operatorType_ensures (inBound : Bool) :
    (operatorType inBound).Ensures clean place source (Ty.Sound clean 1) := by
  have hoperand (rest : TokenStream) : (Parser.nested (.operand inBound)).Ensures clean place rest
      (Ty.Sound clean 1) := Place.Shaped.ensures (.operand inBound)
  refine .skip fun next rest => .skip fun after rest => ?_
  split
  · refine typeOf_ensures <| .skip fun _ rest => (hoperand rest).bind fun operand _ h => .pure ?_
    exact ⟨Nat.le_refl _, h.looseness_lt, trivial, by simpa using h.all⟩
  split
  · refine typeOf_ensures <| .skip fun _ _ => .skip fun _ _ => .pure ?_
    exact ⟨Nat.le_refl _, trivial, trivial, by simp⟩
  split
  · refine typeOf_ensures <| .skip fun _ rest => (hoperand rest).bind fun operand _ h => .pure ?_
    exact ⟨Nat.le_refl _, h.looseness_lt, trivial, by simpa using h.all⟩
  split
  · exact typeOf_ensures (inferredType_ensures inBound)
  · exact suffixedType_ensures.mono fun _ h => h.mono (Nat.zero_le _)

/-! ## Operands -/

omit [place.Shaped clean] in
theorem skipIf_of_peek {kind : Kind} (h : source.peek.kind = kind) :
    (skipIf kind).Ensures clean place source fun skipped => skipped = true := by
  refine .observe .peekKind ?_
  rw [if_pos h]
  exact .skip fun _ _ => .pure rfl

omit [place.Shaped clean] in
/-- Behind a mark that is there, an operand follows in a clean run. -/
theorem afterEach_ensures {mark : Mark} {element : Parser α} {Q : α → Prop}
    {P M : List Token → Prop} (hmark : source.peek.kind = .mark mark)
    (helement : ∀ source, element.Ensures clean place source Q)
    (hloud : ∀ source, element.Carries place False source P fun _ => M) :
    (afterEach mark element).Ensures clean place source fun found =>
      (∀ result ∈ found, Q result) ∧ (clean → found ≠ []) := by
  refine (Ensures.afterEach helement).and ?_
  refine .collect_ne_nil <| (skipIf_of_peek hmark).bind fun skipped rest hskipped => ?_
  rw [if_pos hskipped]
  exact .bind (.optional_of_carries (helement rest) (hloud rest)) fun _ _ hfound => .pure hfound.2

omit [place.Shaped clean] in
/-- A single operand is itself, and several are as loose as the mark between them. Operands
that failed in silence could leave a clean run with one operand and a mark behind it. -/
theorem operands_ensures {mark : Mark} {wrap : List Ty → TyKind} {operand : Parser Ty}
    {level : Nat} {P M : List Token → Prop}
    (hoperand : ∀ source, operand.Ensures clean place source (Ty.Sound clean level))
    (hloud : ∀ source, operand.Carries place False source P fun _ => M)
    (hwrap : ∀ operands : List Ty, (∀ operand ∈ operands, operand.kind.looseness < level + 1) →
      operands ≠ [] → (clean → 2 ≤ operands.length) → AllSound clean (typeOccurrences operands) →
      (wrap operands).Sound clean (level + 1)) :
    (operands mark wrap operand).Ensures clean place source (Ty.Sound clean (level + 1)) := by
  unfold operands
  refine .spanned <| .skip fun _ rest => (hoperand rest).bind fun first rest hfirst =>
    .observe (.nextIs _) ?_
  split
  next hmore =>
    refine .bind (afterEach_ensures (beq_iff_eq.mp hmore) hoperand hloud) fun others rest hothers =>
      .pure fun span => TyKind.Sound.ty (hwrap (first :: others) ?_ (by simp) ?_ ?_) span
    · exact List.forall_mem_cons.mpr
        ⟨hfirst.looseness_lt, fun operand h => (hothers.1 operand h).looseness_lt⟩
    · intro hclean
      have hlength := List.length_pos_of_ne_nil (hothers.2 hclean)
      exact Nat.succ_le_succ hlength
    · exact allSound_types.mpr <| List.forall_mem_cons.mpr
        ⟨hfirst.all, fun operand h => (hothers.1 operand h).all⟩
  next => exact .pure fun _ => hfirst.mono (Nat.le_succ level)

section

variable [place.Bracketed]

theorem intersectionType_ensures (inBound : Bool) :
    (operands .ampersand .intersection (operatorType inBound)).Ensures clean place source
      (Ty.Sound clean 2) := by
  have hloud (source : TokenStream) : (operatorType inBound).Brackets place False source [] [] :=
    operatorType_brackets inBound
  refine operands_ensures (fun _ => operatorType_ensures inBound) hloud ?_
  intro operands htight hne hlength hall
  exact ⟨Nat.le_refl _, ⟨htight, hne, hlength⟩, trivial, by simpa using hall⟩

theorem unionType_ensures (inBound : Bool) :
    (unionType inBound).Ensures clean place source (Ty.Sound clean 3) := by
  have hloud (source : TokenStream) : (operands .ampersand .intersection
      (operatorType inBound)).Brackets place False source [] [] :=
    operands_brackets rfl fun _ _ => operatorType_brackets inBound
  refine operands_ensures (fun _ => intersectionType_ensures inBound) hloud ?_
  intro operands htight hne hlength hall
  exact ⟨Nat.le_refl _, ⟨htight, hne, hlength⟩, trivial, by simpa using hall⟩

theorem conditionalRest_ensures :
    conditionalRest.Ensures clean place source fun (bound, whenTrue, whenFalse) =>
      bound.Sound clean 3 ∧ whenTrue.Sound clean 4 ∧ whenFalse.Sound clean 4 :=
  .skip fun _ _ => (unionType_ensures true).bind fun _ _ hbound => .skip fun _ _ =>
    type_ensures.bind fun _ _ htrue => .skip fun _ _ =>
    type_ensures.bind fun _ _ hfalse => .pure ⟨hbound, htrue, hfalse⟩

/-- Without what should follow its bound, a conditional type is the type in front of it. -/
theorem conditionalType_ensures :
    conditionalType.Ensures clean place source (Ty.Sound clean 4) := by
  unfold conditionalType
  refine .spanned <| (unionType_ensures false).bind fun check rest hcheck =>
    .skip fun next rest => ?_
  split
  · refine .bind (.optional conditionalRest_ensures) fun found rest hfound => .pure fun span => ?_
    cases found with
    | none => exact hcheck.mono (Nat.le_succ 3)
    | some found =>
        rcases found with ⟨bound, whenTrue, whenFalse⟩
        obtain ⟨hbound, htrue, hfalse⟩ := hfound _ rfl
        have hparts : check.kind.looseness < 4 ∧ bound.kind.looseness < 4 :=
          ⟨hcheck.looseness_lt, hbound.looseness_lt⟩
        have hconditional : (TyKind.conditional check bound whenTrue whenFalse).Sound clean 4 :=
          ⟨Nat.le_refl _, hparts, trivial,
            by simpa using ⟨hcheck.all, hbound.all, htrue.all, hfalse.all⟩⟩
        exact hconditional.ty span
  · exact .pure fun _ => hcheck.mono (Nat.le_succ 3)

theorem inferConstraint_ensures (inBound : Bool) :
    (inferConstraint inBound).Ensures clean place source fun found =>
      ∀ type ∈ found, type.Sound clean 3 := by
  refine .attempt <| .skip fun _ _ => (unionType_ensures true).bind fun type rest htype =>
    .skip fun next rest => ?_
  split
  · exact .fail
  · exact .pure htype

end

theorem wholeType_ensures : wholeType.Ensures clean place source (Ty.Sound clean 4) :=
  type_ensures.bind fun _ _ htype => .skip fun _ _ => .when fun _ => .pure htype

end

end Parser

end DeclFile

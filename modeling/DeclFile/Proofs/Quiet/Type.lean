import DeclFile.Proofs.Quiet.Function

/-! # Reading types without a word

Each form of a type is read as it is written, where the types in it are. A stratum is read
with the parser of its binding strength, up to a token with which it cannot go on.
-/

namespace DeclFile.Parser

variable [Layout] {reach : Reach TokenStream} {most : Nat} {symbol : Symbol}
  {before after : List Symbol}

namespace Gives

/-- A type with its form alone, up to spans. -/
theorem typeOf {form : Parser TyKind} {type : Ty}
    (h : form.Gives reach before after fun kind => (⟨kind.blank, default⟩ : Ty) = type) :
    (Parser.typeOf form).Gives reach before after fun found => found.blank = type :=
  spanned (h.mono fun kind hkind span => by rw [Ty.blank, hkind])

/-- A single token that is a type by itself. -/
theorem symbolKind {kind : TyKind} (hkind : kind.blank = kind) :
    (do
      let _ ← Parser.advance
      return kind : Parser TyKind).Gives reach (symbol :: after) after
        fun found => (⟨found.blank, default⟩ : Ty) = ⟨kind, default⟩ :=
  advance.bind fun _ _ => .pure (by rw [hkind])

/-! ## References -/

theorem typeRef_name (name : DottedName) (hafter : Stratum.primary.EndsAt after) :
    Parser.typeRef.Gives reach (name.write ++ after) after
      fun reference => reference.blank = ⟨name.entity, none, default⟩ := by
  refine spanned ((dottedName name (hafter.ne rfl)).bind fun entity hentity => ?_)
  refine (typeArgs_none (hafter.line rfl)).known (.pure fun span => ?_)
  rw [TypeRef.blank, hentity, blankArgs]

theorem typeRef_applied [Layout.OneLine] (name : DottedName) (phrases : List Phrase)
    (hreads : ∀ phrase ∈ phrases, phrase.Reads reach) :
    Parser.typeRef.Gives reach (name.write ++ .mark .openAngle ::
        (commas (phrases.map Phrase.symbols) ++ .mark .closeAngle :: after)) after
      fun reference => reference.blank =
        ⟨name.entity, some (phrases.map Phrase.type), default⟩ := by
  refine spanned ((dottedName name (by simp)).bind fun entity hentity => ?_)
  refine (typeArgs_some phrases hreads).bind fun args hargs => .pure fun span => ?_
  rw [TypeRef.blank, hentity, hargs]

/-- A name is no `intrinsic`, whatever follows it. -/
theorem namedType {name : DottedName} {reference : TypeRef} {rest : List Symbol}
    (h : Parser.typeRef.Gives reach (name.write ++ rest) after
      fun found => found.blank = reference) :
    Parser.namedType.Gives reach (name.write ++ rest) after
      fun kind => (⟨kind.blank, default⟩ : Ty) = ⟨.reference reference, default⟩ := by
  obtain ⟨more, hwrite, hdot⟩ : ∃ more, name.write ++ rest = ⟨.identifier, name.first⟩ :: more ∧
      (name.rest ≠ [] → kindAt more 0 = .mark .dot) := by
    refine ⟨_, rfl, fun hrest => ?_⟩
    obtain ⟨segment, segments, heq⟩ := List.exists_cons_of_ne_nil hrest
    rw [heq]
    rfl
  rw [hwrite] at h ⊢
  refine peek.bind fun token htoken => (kindAhead 1).known ?_
  rw [kindAt_succ, if_neg, if_pos (by rw [htoken.kind]; rfl)]
  · exact map (h.mono fun found hfound => by rw [TyKind.blank, hfound])
  · intro hintrinsic
    simp only [htoken.text, Bool.and_eq_true, decide_eq_true_eq, beq_iff_eq] at hintrinsic
    by_cases hrest : name.rest = []
    · exact name.ordinary hrest hintrinsic.1.1.2
    · exact hintrinsic.1.2 (hdot hrest)

/-! ## Tuples -/

/-- An element of a tuple is read as a type if it does not look like a label. -/
theorem tupleElement {phrase : Phrase} (hreads : phrase.Reads reach)
    (hafter : kindAt after 0 = .mark .comma ∨ kindAt after 0 = .mark .closeBracket) :
    Parser.tupleElement.Gives reach (phrase.symbols ++ after) after
      fun element => element.blank = .unlabelled phrase.type := by
  have hends : Stratum.full.EndsAt after := by
    rcases hafter with hafter | hafter <;> exact .of_kindAt hafter rfl
  have hne (kind : Kind) (hcomma : kind ≠ .mark .comma) (hclose : kind ≠ .mark .closeBracket) :
      kindAt after 0 ≠ kind := by
    rintro rfl
    exact hafter.elim hcomma hclose
  have hquestion : kindAt after 0 ≠ .mark .question := hne _ (by decide) (by decide)
  have hdots : (kindAt (phrase.symbols ++ after) 0 == .mark .ellipsis) = false := by
    simpa using Kind.ne_of_beginsPhrase (hreads.like.beginsPhrase after) rfl
  have hlabel : (labelFollows 0).Gives reach (phrase.symbols ++ after) (phrase.symbols ++ after)
      (· = false) := by
    refine (kindAhead 0).known ((kindAhead 1).known ((kindAhead 2).known (.pure ?_)))
    by_cases hname : (kindAt (phrase.symbols ++ after) 0).isName = true
    · rcases hreads.like.unlabelled after hname with ⟨hcolon, hmark⟩ | hsecond
      · simp [hcolon, hmark]
      · simp [hsecond, hquestion, hne (.mark .colon) (by decide) (by decide)]
    · simp [hname]
  refine (nextIs _).known ?_
  rw [hdots]
  refine hlabel.known ?_
  refine bind (P := fun found : (Ty × Bool) × Span =>
    found.1.1.blank = phrase.type ∧ found.1.2 = false)
    (withSpan ((hreads.gives after hends hquestion).bind fun type htype =>
      (skipIf_no hquestion).known (.pure fun span => ⟨htype, rfl⟩))) fun found hfound => ?_
  obtain ⟨⟨type, isOptional⟩, span⟩ := found
  obtain ⟨htype, rfl⟩ := hfound
  exact .pure (by simp [TupleElement.blank, TupleElement.unlabelled, htype])

theorem tupleType (phrases : List Phrase) (hreads : ∀ phrase ∈ phrases, phrase.Reads reach) :
    Parser.tupleType.Gives reach (.mark .openBracket ::
        (commas (phrases.map Phrase.symbols) ++ .mark .closeBracket :: after)) after
      fun kind => (⟨kind.blank, default⟩ : Ty) =
        ⟨.tuple ((phrases.map Phrase.type).map TupleElement.unlabelled), default⟩ := by
  refine advance.bind fun _ _ => ?_
  refine bind (P := fun elements => elements.map TupleElement.blank =
      phrases.map (TupleElement.unlabelled ∘ Phrase.type))
    (commaSeparated phrases (by simp) (fun phrase hphrase => ?_) fun phrase hphrase rest hrest =>
      elementOrStop (tupleElement (hreads phrase hphrase) hrest)) fun elements h => ?_
  · obtain ⟨first, more, hwrite, hfirst⟩ := (hreads phrase hphrase).like.begins
    exact ⟨first, more, hwrite, Kind.ne_of_beginsPhrase hfirst rfl,
      Kind.ne_of_beginsPhrase hfirst rfl⟩
  · have hclose : (Parser.expectOrReport (.mark .closeBracket)).Gives reach
        (.mark .closeBracket :: after) after fun _ => True := expectOrReport rfl
    refine hclose.bind fun _ _ => .pure ?_
    simp [TyKind.blank, blankElements_eq_map, h]

/-! ## Mapped types -/

/-- A modifier is read with its sign, whichever it is. -/
theorem mappedModifier {modifier : Symbol} (sign : ModifierSign)
    (hplus : kindAt after 0 ≠ .mark .plus) (hminus : kindAt after 0 ≠ .mark .minus)
    (hkind : kindAt after 0 ≠ modifier.kind) (hmodifier : modifier.kind = .word .readonly ∨
      modifier.kind = .mark .question) :
    (Parser.mappedModifier modifier.kind).Gives reach (sign.write modifier ++ after) after
      (· = sign.modifier) := by
  refine peekKind.known ?_
  cases sign with
  | absent =>
      rw [if_neg (by simp [ModifierSign.write, hplus, hminus])]
      exact (skipIf_no hkind).known (.pure rfl)
  | bare =>
      rw [if_neg (by rcases hmodifier with h | h <;> simp [ModifierSign.write, h])]
      exact (skipIf_yes rfl).known (.pure rfl)
  | plus =>
      rw [if_pos (by simp [ModifierSign.write])]
      exact advance.bind fun _ _ => (expect rfl).bind fun _ _ => .pure rfl
  | minus =>
      rw [if_pos (by simp [ModifierSign.write])]
      exact advance.bind fun _ _ => (expect rfl).bind fun _ _ => .pure rfl

theorem requiredTypeAfter_some (hreads : ReadsTypes reach most) {kind : Kind}
    (tree : TypeTree .full) (hkind : symbol.kind = kind) (hlength : tree.write.length ≤ most)
    (hafter : Stratum.full.EndsAt after) :
    (Parser.requiredTypeAfter kind).Gives reach (symbol :: (tree.write ++ after)) after
      fun type? => blankOptionalType type? = some tree.type := by
  refine (skipIf_yes hkind).known ((hreads.type tree after hlength hafter).bind ?_)
  exact fun type htype => .pure (by rw [blankOptionalType, htype])

/-- The name type of a mapped type is read, if there is one. -/
theorem nameClause (hreads : ReadsTypes reach most) (nameType : Option (TypeTree .full))
    (hlength : (nameClause nameType).length ≤ most) (hends : Stratum.full.EndsAt after)
    (hafter : kindAt after 0 ≠ .word .as) :
    (Parser.requiredTypeAfter (.word .as)).Gives reach (DeclFile.nameClause nameType ++ after) after
      fun type? => blankOptionalType type? = optionalType nameType := by
  cases nameType with
  | none => exact (skipIf_no hafter).known (.pure rfl)
  | some tree =>
      have hshort : tree.write.length ≤ most := by
        simp only [DeclFile.nameClause, List.length_cons] at hlength
        omega
      exact requiredTypeAfter_some hreads tree rfl hshort hends

theorem mappedType (hreads : ReadsTypes reach most) (readonly : ModifierSign) (key : BindingWord)
    (constraint : TypeTree .full) (nameType : Option (TypeTree .full)) (isOptional : ModifierSign)
    (value : TypeTree .full) (hconstraint : constraint.write.length ≤ most)
    (hname : (DeclFile.nameClause nameType).length ≤ most) (hvalue : value.write.length ≤ most) :
    Parser.mappedType.Gives reach (.mark .openBrace :: (mappedBody readonly key constraint.write
        (DeclFile.nameClause nameType) isOptional value.write ++ .mark .closeBrace :: after)) after
      fun mapped => mapped.blank = ⟨key.ident, constraint.type, optionalType nameType,
        readonly.modifier, isOptional.modifier, some value.type⟩ := by
  simp only [mappedBody, List.append_assoc, List.cons_append]
  refine (expect rfl).bind fun _ _ => ?_
  refine known (mappedModifier readonly ?_ ?_ ?_ (.inl rfl)) ?_
  iterate 3 simp
  refine (expect rfl).bind fun _ _ => (ident key.binds).bind fun id hid => ?_
  refine (expect rfl).bind fun _ _ => ?_
  refine (hreads.type constraint _ hconstraint ?_).bind fun bound hbound => ?_
  · cases nameType <;> rfl
  refine bind (nameClause hreads nameType hname ?_ ?_) fun renamed hrenamed => ?_
  · rfl
  · simp
  refine (expect rfl).bind fun _ _ => ?_
  refine known (mappedModifier isOptional ?_ ?_ ?_ (.inr rfl)) ?_
  iterate 3 simp
  refine bind (requiredTypeAfter_some hreads value rfl hvalue ?_) fun found hfound => ?_
  · rfl
  refine (skipIf_no (by simp)).known ((skipIf_no (by simp)).known ?_)
  refine (expect rfl).bind fun _ _ => .pure ?_
  simp [MappedTy.blank, hid, hbound, hrenamed, hfound, BindingWord.ident, BindingWord.symbol]

/-! ## Parentheses -/

theorem parenType_function (phrases : List ParamPhrase) {result : Phrase}
    (hparams : ∀ phrase ∈ phrases, phrase.declared.Reads reach)
    (hresult : Parser.resultType.Gives reach (result.symbols ++ after) after
      fun type => type.blank = result.type) :
    Parser.parenType.Gives reach (.mark .openParen ::
        (commas (phrases.map ParamPhrase.symbols) ++
          .mark .closeParen :: .mark .arrow :: (result.symbols ++ after))) after
      fun kind => (⟨kind.blank, default⟩ : Ty) =
        ⟨.function ⟨[], phrases.map ParamPhrase.param, result.type⟩, default⟩ := by
  have hfunction := functionTail phrases hparams hresult
  refine bind (P := fun function? : Option FunctionTy => ∃ function, function? = some function ∧
    function.blank = ⟨[], phrases.map ParamPhrase.param, result.type⟩)
    (attempt (hfunction.mono fun function h => ⟨function, rfl, h⟩)) fun function? h => ?_
  obtain ⟨function, rfl, hblank⟩ := h
  exact .pure (by rw [TyKind.blank, hblank])

/-- A type in parentheses is first tried as a function, in vain. -/
theorem parenType_type {phrase : Phrase} (hreads : phrase.Reads reach)
    (hafter : kindAt after 0 ≠ .mark .arrow) :
    Parser.parenType.Gives reach (.mark .openParen :: (phrase.symbols ++ .mark .closeParen :: after))
      after fun kind => (⟨kind.blank, default⟩ : Ty) = ⟨.parenthesized phrase.type, default⟩ := by
  refine known (attempt_complains (hreads.like.noFunction reach after hafter)) ?_
  refine advance.bind fun _ _ => (hreads.gives _ ?_ (by simp)).bind fun type htype => ?_
  · rfl
  · exact (expectOrReport rfl).bind fun _ _ => .pure (by rw [TyKind.blank, htype])

/-! ## Primary types -/

/-- A primary type is read as it is written. -/
theorem primaryKind [Layout.OneLine] (hreads : ReadsTypes reach most) (tree : TypeTree .primary)
    (hlength : tree.write.length ≤ most + 1) (hafter : Stratum.primary.EndsAt after) :
    Parser.primaryKind.Gives reach (tree.write ++ after) after
      fun kind => (⟨kind.blank, default⟩ : Ty) = tree.type := by
  match tree with
  | .keyword word primitive hspelled =>
      refine peek.bind fun token htoken => ?_
      simp only [htoken.kind, Symbol.kind_word, primitive?_of_spelling hspelled]
      exact symbolKind rfl
  | .string value =>
      refine peek.bind fun token htoken => ?_
      simp only [htoken.kind, htoken.text, primitive?]
      exact symbolKind rfl
  | .bigint digits =>
      refine peek.bind fun token htoken => ?_
      simp only [htoken.kind, htoken.text, primitive?]
      exact symbolKind rfl
  | .boolean value =>
      refine peek.bind fun token htoken => ?_
      cases value
      all_goals
        simp only [htoken.kind, Symbol.kind_word, primitive?, if_true, if_false, Bool.false_eq_true]
        exact symbolKind rfl
  | .number false digits =>
      refine peek.bind fun token htoken => ?_
      simp only [htoken.kind, htoken.text, primitive?]
      exact symbolKind rfl
  | .number true digits =>
      refine peek.bind fun token htoken => ?_
      simp only [htoken.kind, Symbol.kind_mark, primitive?]
      refine (kindAhead 1).known ?_
      rw [if_pos (by rfl)]
      refine advance.bind fun _ _ => advance.bind fun digit hdigit => .pure ?_
      rw [if_neg (by simp), hdigit.text]
      rfl
  | .this =>
      refine peek.bind fun token htoken => ?_
      simp only [htoken.kind, Symbol.kind_word, primitive?]
      exact symbolKind rfl
  | .name dotted =>
      refine peek.bind fun token htoken => ?_
      simp only [htoken.kind, primitive?]
      exact namedType (typeRef_name dotted hafter)
  | .applied dotted first more =>
      have hwrite : (TypeTree.applied dotted first more).write ++ after =
          dotted.write ++ .mark .openAngle :: (commas ((first :: more.toList).map TypeTree.write) ++
            .mark .closeAngle :: after) := by
        simp [TypeTree.write, TypeTrees.writes_eq_map]
      have hshort : ∀ arg ∈ first :: more.toList, arg.write.length ≤ most := by
        intro arg harg
        have hle := length_le_commas (List.mem_map_of_mem (f := TypeTree.write) harg)
        simp only [TypeTree.write, TypeTrees.writes_eq_map, List.length_append, List.length_cons,
          ← List.map_cons] at hlength
        omega
      rw [hwrite, TypeTree.type, TypeTrees.types_eq_map, ← List.map_cons,
        ← TypeTree.symbols_phrases, ← TypeTree.types_phrases]
      refine peek.bind fun token htoken => ?_
      simp only [htoken.kind, primitive?]
      exact namedType (typeRef_applied dotted _ (hreads.phrases hshort))
  | .parenthesized inner =>
      have hshort : inner.write.length ≤ most := by
        simp only [TypeTree.write, List.length_append, List.length_cons] at hlength
        omega
      rw [TypeTree.write, List.cons_append, List.append_assoc]
      refine peek.bind fun token htoken => ?_
      simp only [htoken.kind, Symbol.kind_mark, primitive?]
      exact parenType_type (hreads.phrase inner hshort) (hafter.ne rfl)
  | .tuple elements =>
      have hwrite : (TypeTree.tuple elements).write ++ after = .mark .openBracket ::
          (commas (elements.toList.map TypeTree.write) ++ .mark .closeBracket :: after) := by
        simp [TypeTree.write, TypeTrees.writes_eq_map]
      have hshort : ∀ element ∈ elements.toList, element.write.length ≤ most := by
        intro element helement
        have hle := length_le_commas (List.mem_map_of_mem (f := TypeTree.write) helement)
        simp only [TypeTree.write, TypeTrees.writes_eq_map, List.length_append,
          List.length_cons] at hlength
        omega
      rw [hwrite, TypeTree.type, TypeTrees.types_eq_map, ← TypeTree.symbols_phrases,
        ← TypeTree.types_phrases]
      refine peek.bind fun token htoken => ?_
      simp only [htoken.kind, Symbol.kind_mark, primitive?]
      exact tupleType _ (hreads.phrases hshort)
  | .mapped readonly key constraint nameType isOptional value =>
      simp only [TypeTree.write, mappedBody, List.length_append, List.length_cons] at hlength
      rw [TypeTree.write, List.cons_append, List.append_assoc]
      refine peek.bind fun token htoken => ?_
      simp only [htoken.kind, Symbol.kind_mark, primitive?]
      refine bind (P := fun mapped? : Option MappedTy => ∃ mapped, mapped? = some mapped ∧
        mapped.blank = ⟨key.ident, constraint.type, optionalType nameType, readonly.modifier,
          isOptional.modifier, some value.type⟩)
        (attempt ((mappedType hreads readonly key constraint nameType isOptional value (by omega)
          (by omega) (by omega)).mono fun mapped h => ⟨mapped, rfl, h⟩)) fun mapped? h => ?_
      obtain ⟨mapped, rfl, hblank⟩ := h
      exact .pure (by rw [TyKind.blank, hblank, TypeTree.type])

end Gives

/-! ## Suffixes -/

theorem suffixTurn_array [Layout.OneLine] {type : Ty} :
    (suffixTurn type).Gives reach (.mark .openBracket :: .mark .closeBracket :: after) after
      fun step => ∃ next, step = .more next ∧ next.blank = ⟨.array type.blank, default⟩ := by
  refine Gives.peek.bind fun token htoken => ?_
  rw [if_pos (by simp [htoken.kind, htoken.sameLine])]
  have hsuffix : suffix.Gives reach (.mark .openBracket :: .mark .closeBracket :: after) after
      fun found => ∀ _ : Span, found = .array :=
    Gives.advance.bind fun _ _ => (Gives.skipIf_yes rfl).known (.pure fun _ => rfl)
  refine Gives.bind (P := fun found : Suffix × Span => found.1 = .array) (Gives.withSpan hsuffix)
    fun found hfound => ?_
  obtain ⟨suffix, span⟩ := found
  cases hfound
  exact .pure ⟨_, rfl, by rw [Ty.blank, TyKind.blank]⟩

theorem suffixTurn_index [Layout.OneLine] {type : Ty} {phrase : Phrase} (hreads : phrase.Reads reach) :
    (suffixTurn type).Gives reach
      (.mark .openBracket :: (phrase.symbols ++ .mark .closeBracket :: after)) after
      fun step => ∃ next, step = .more next ∧
        next.blank = ⟨.indexedAccess type.blank phrase.type, default⟩ := by
  refine Gives.peek.bind fun token htoken => ?_
  rw [if_pos (by simp [htoken.kind, htoken.sameLine])]
  have hopen : kindAt (phrase.symbols ++ .mark .closeBracket :: after) 0 ≠ .mark .closeBracket :=
    Kind.ne_of_beginsPhrase (hreads.like.beginsPhrase _) rfl
  have hsuffix : suffix.Gives reach
      (.mark .openBracket :: (phrase.symbols ++ .mark .closeBracket :: after)) after
      fun found => ∀ _ : Span, ∃ result, found = .index result ∧ result.blank = phrase.type := by
    refine Gives.advance.bind fun _ _ => (Gives.skipIf_no hopen).known ?_
    refine Gives.bind (P := fun result? : Option Ty => ∃ result, result? = some result ∧
      result.blank = phrase.type) (Gives.optional ((hreads.gives (.mark .closeBracket :: after)
        rfl (by simp)).mono fun result h => ⟨result, rfl, h⟩)) fun result? h => ?_
    obtain ⟨result, rfl, hresult⟩ := h
    exact (Gives.expectOrReport rfl).bind fun _ _ => .pure fun _ => ⟨result, rfl, hresult⟩
  refine Gives.bind (P := fun found : Suffix × Span => ∃ result, found.1 = .index result ∧
    result.blank = phrase.type) (Gives.withSpan hsuffix) fun found hfound => ?_
  obtain ⟨suffix, span⟩ := found
  obtain ⟨result, ⟨⟩, hresult⟩ := hfound
  exact .pure ⟨_, rfl, by rw [Ty.blank, TyKind.blank, hresult]⟩

theorem Cycles.suffixTurn_done {type : Ty} {Q : Ty → Prop} (htype : Q type)
    (hafter : kindAt after 0 = .mark .openBracket → lineAt after = true) :
    Cycles reach suffixTurn type after after Q := by
  refine .done (Gives.peek_kind.bind fun token ⟨hkind, hline⟩ => ?_)
  rw [if_neg (by simpa [hkind] using fun hbracket => hline (hafter hbracket))]
  exact .pure ⟨type, rfl, htype⟩

theorem takesSuffixes_primary {phrase : Phrase}
    (h : ∀ after, Stratum.primary.EndsAt after →
      primaryKind.Gives reach (phrase.symbols ++ after) after
        fun kind => (⟨kind.blank, default⟩ : Ty) = phrase.type) :
    phrase.TakesSuffixes reach :=
  fun _ _ _ hbefore hcycles =>
    (Gives.typeOf (h _ hbefore)).bind fun type htype => (hcycles type htype).gives

theorem takesSuffixes_array [Layout.OneLine] {element : Phrase}
    (h : element.TakesSuffixes reach) : element.array.TakesSuffixes reach := by
  intro before after Q _ hcycles
  have hwrite : element.array.symbols ++ before =
      element.symbols ++ .mark .openBracket :: .mark .closeBracket :: before := by
    simp [Phrase.array]
  rw [hwrite]
  refine h _ _ _ (.of_kindAt rfl rfl) fun type htype => ?_
  refine .more suffixTurn_array ?_ fun next hnext => hcycles next ?_
  · simp only [List.length_cons]
    omega
  · rw [hnext, htype]
    rfl

theorem takesSuffixes_indexed [Layout.OneLine] {object index : Phrase}
    (h : object.TakesSuffixes reach) (hindex : index.Reads reach) :
    (object.indexed index).TakesSuffixes reach := by
  intro before after Q _ hcycles
  have hwrite : (object.indexed index).symbols ++ before = object.symbols ++
      (.mark .openBracket :: (index.symbols ++ .mark .closeBracket :: before)) := by
    simp [Phrase.indexed]
  rw [hwrite]
  refine h _ _ _ (.of_kindAt rfl rfl) fun type htype => ?_
  refine .more (suffixTurn_index hindex) ?_ fun next hnext => hcycles next ?_
  · simp only [List.length_append, List.length_cons]
    omega
  · rw [hnext, htype]
    rfl

/-- A type takes the suffixes behind it. The induction is on the tree, whose last suffix is read
last. -/
theorem takesSuffixes_tree [Layout.OneLine] (hreads : ReadsTypes reach most)
    (tree : TypeTree .suffixed) (hlength : tree.write.length ≤ most + 1) :
    tree.phrase.TakesSuffixes reach := by
  match tree with
  | .ofPrimary inner =>
      exact takesSuffixes_primary fun _ hafter => Gives.primaryKind hreads inner hlength hafter
  | .array element =>
      simp only [TypeTree.write, List.length_append] at hlength
      exact takesSuffixes_array (takesSuffixes_tree hreads element (by omega))
  | .indexed object index =>
      obtain ⟨first, rest, hfirst, -⟩ := object.opening_write.first
      simp only [TypeTree.write, List.length_append, List.length_cons, hfirst] at hlength
      refine takesSuffixes_indexed (takesSuffixes_tree hreads object ?_)
        (hreads.phrase index (by omega))
      rw [hfirst, List.length_cons]
      omega

/-- A type with its suffixes is read up to where no bracket follows. -/
theorem Gives.suffixedType [Layout.OneLine] (hreads : ReadsTypes reach most) (tree : TypeTree .suffixed)
    (hlength : tree.write.length ≤ most + 1) (hafter : Stratum.suffixed.EndsAt after) :
    Parser.suffixedType.Gives reach (tree.write ++ after) after
      fun type => type.blank = tree.type := by
  refine takesSuffixes_tree hreads tree hlength _ _ _ (hafter.tighter (by decide)) ?_
  exact fun type htype => .suffixTurn_done htype (hafter.line rfl)

end DeclFile.Parser

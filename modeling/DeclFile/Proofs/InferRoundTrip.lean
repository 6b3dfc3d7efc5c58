import DeclFile.Proofs.ContextRoundTrip

/-! # Whose constraint follows an inferred type

After `infer X` the word `extends` begins either the constraint of `X` or the bound of a
conditional type. In a bound it is always the constraint. Elsewhere what follows the word is read
as the constraint first, and given up if a question mark comes after it.
-/

namespace DeclFile

namespace Phrase

/-- An inferred type, perhaps with a constraint. -/
def infer (param : BindingWord) : Option Phrase → Phrase
  | none => ⟨[.word .infer, param.symbol], ⟨.infer param.ident none, default⟩⟩
  | some constraint =>
      ⟨.word .infer :: param.symbol :: .word .extends :: constraint.symbols,
        ⟨.infer param.ident (some constraint.type), default⟩⟩

end Phrase

/-- A type with one `infer` and the word `extends` after it. -/
inductive InferTree where
  /-- `T extends infer X extends C ? A : B` -/
  | matched (check : TypeTree .union) (param : BindingWord) (constraint : TypeTree .union)
      (whenTrue whenFalse : TypeTree .full)
  /-- `infer X extends C ? A : B` -/
  | tested (param : BindingWord) (bound : TypeTree .union) (whenTrue whenFalse : TypeTree .full)
  /-- `infer X extends C` -/
  | constrained (param : BindingWord) (constraint : TypeTree .union)

/-- In a bound the constraint belongs to the inferred type; elsewhere it does so unless a
question mark follows it. -/
def InferTree.phrase : InferTree → Phrase
  | matched check param constraint whenTrue whenFalse =>
      check.phrase.conditional (.infer param (some constraint.phrase)) whenTrue.phrase
        whenFalse.phrase
  | tested param bound whenTrue whenFalse =>
      (Phrase.infer param none).conditional bound.phrase whenTrue.phrase whenFalse.phrase
  | constrained param constraint => .infer param (some constraint.phrase)

namespace Parser

variable [Layout] {file : SourceId} {limit levels most : Nat} {reach : Reach TokenStream}
  {param : BindingWord} {before after : List Symbol}

namespace Gives

/-! ## Constraints -/

/-- What follows `extends` is the constraint in a bound, or if no question mark comes after it. -/
theorem inferConstraint_some {inBound : Bool} {constraint : Phrase}
    (hconstraint : (Parser.unionType true).Gives reach (constraint.symbols ++ after) after
      fun type => type.blank = constraint.type)
    (hafter : inBound = true ∨ kindAt after 0 ≠ .mark .question) :
    (Parser.inferConstraint inBound).Gives reach
      (.word .extends :: (constraint.symbols ++ after)) after
      fun type? => blankOptionalType type? = some constraint.type := by
  refine attempt (advance.bind fun _ _ => hconstraint.bind fun type htype => peekKind.known ?_)
  rw [if_neg (by rcases hafter with rfl | hafter <;> simp [*])]
  exact .pure (by rw [blankOptionalType, htype])

/-- Outside a bound, what follows `extends` up to a question mark is no constraint. -/
theorem inferConstraint_none {constraint : Phrase}
    (hconstraint : (Parser.unionType true).Gives reach (constraint.symbols ++ after) after
      fun type => type.blank = constraint.type)
    (hafter : kindAt after 0 = .mark .question) :
    (Parser.inferConstraint false).Gives reach (.word .extends :: (constraint.symbols ++ after))
      (.word .extends :: (constraint.symbols ++ after)) (· = none) := by
  refine attempt_fails (advance.bind_fails fun _ _ => hconstraint.bind_fails fun type _ => ?_)
  refine peekKind.bind_fails ?_
  rintro _ rfl
  rw [if_pos (by simp [hafter])]
  exact fun source _ => rfl

/-- An inferred type owns what its constraint turns out to be. -/
theorem unionType_infer {inBound : Bool} {constraint? : Option Ty}
    (hconstraint : (Parser.inferConstraint inBound).Gives ((grammar limit).reach file levels)
      (.word .extends :: before) after fun type? => blankOptionalType type? = constraint?)
    (hafter : Stratum.union.EndsAt after) :
    (Parser.unionType inBound).Gives ((grammar limit).reach file (levels + 1))
      (.word .infer :: param.symbol :: .word .extends :: before) after
      fun type => type.blank = ⟨.infer param.ident constraint?, default⟩ := by
  have hform : (Parser.inferredType inBound).Gives ((grammar limit).reach file (levels + 1))
      (.word .infer :: param.symbol :: .word .extends :: before) after
      fun kind => (⟨kind.blank, default⟩ : Ty) = ⟨.infer param.ident constraint?, default⟩ := by
    refine advance.bind fun _ _ => (ident param.binds).bind fun id hid => peekKind.known ?_
    rw [if_pos (by rfl)]
    have hnested : (Parser.nested (.constraint inBound)).Gives
        ((grammar limit).reach file (levels + 1)) (.word .extends :: before) after
        fun type? => blankOptionalType type? = constraint? :=
      nested hconstraint
    refine hnested.bind fun type? htype => .pure ?_
    rw [TyKind.blank, hid, htype]
    rfl
  have hoperator : (Parser.operatorType inBound).Gives ((grammar limit).reach file (levels + 1))
      (.word .infer :: param.symbol :: .word .extends :: before) after
      fun type => type.blank = ⟨.infer param.ident constraint?, default⟩ := by
    refine peekKind.known ((kindAhead 1).known ?_)
    rw [if_neg (by simp), if_neg (by simp), if_neg (by simp), if_pos (by rfl)]
    exact typeOf hform
  refine operands_single (operands_single hoperator ?_ ?_) ?_ ?_
  · simp
  · exact hafter.ne rfl
  · simp
  · exact hafter.ne rfl

/-- With its constraint an inferred type is read in a bound, and elsewhere if no question mark
comes after it. -/
theorem unionType_infer_some [Layout.OneLine] {inBound : Bool} {constraint : TypeTree .union}
    (hlength : (Phrase.infer param (some constraint.phrase)).symbols.length ≤ levels + 1)
    (hends : Stratum.union.EndsAt after)
    (hafter : inBound = true ∨ kindAt after 0 ≠ .mark .question) :
    (Parser.unionType inBound).Gives ((grammar limit).reach file levels)
      ((Phrase.infer param (some constraint.phrase)).symbols ++ after) after
      fun type => type.blank = (Phrase.infer param (some constraint.phrase)).type := by
  simp only [Phrase.infer, TypeTree.symbols_phrase, List.length_cons] at hlength
  obtain ⟨levels, rfl⟩ : ∃ fewer, levels = fewer + 1 := ⟨levels - 1, by omega⟩
  have hconstraint : (Parser.unionType true).Gives ((grammar limit).reach file levels)
      (constraint.phrase.symbols ++ after) after fun type => type.blank = constraint.phrase.type :=
    unionType (readsTypes file limit levels) true constraint (by omega) hends
  exact unionType_infer (inferConstraint_some hconstraint hafter) hends

/-- Outside a bound an inferred type is read without what follows it up to a question mark. -/
theorem unionType_infer_none [Layout.OneLine] {bound : TypeTree .union}
    (hlength : bound.write.length + 2 ≤ levels) (hafter : kindAt after 0 = .mark .question) :
    (Parser.unionType false).Gives ((grammar limit).reach file levels)
      ((Phrase.infer param none).symbols ++ .word .extends :: (bound.write ++ after))
      (.word .extends :: (bound.write ++ after))
      fun type => type.blank = (Phrase.infer param none).type := by
  obtain ⟨levels, rfl⟩ : ∃ fewer, levels = fewer + 1 := ⟨levels - 1, by omega⟩
  have hbound : (Parser.unionType true).Gives ((grammar limit).reach file levels)
      (bound.phrase.symbols ++ after) after fun type => type.blank = bound.phrase.type :=
    unionType (readsTypes file limit levels) true bound (by omega) (.of_kindAt hafter rfl)
  refine unionType_infer ((inferConstraint_none hbound hafter).mono fun type? htype => ?_) rfl
  rw [htype, blankOptionalType]

end Gives

/-! ## What an inferred type is not -/

/-- The word `infer` can be the name of a parameter, but the name after it can not follow that. -/
theorem functionTail_infer : (functionTail []).Complains reach
    (.mark .openParen :: .word .infer :: param.symbol :: before) := by
  have hparam : Parser.param.Gives reach (.word .infer :: param.symbol :: before)
      (param.symbol :: before) fun _ => True := by
    refine .param_bare ((Gives.paramModifiers_none (.inl rfl)).mono fun _ _ => trivial)
      (Gives.skipIf_no nofun) ?_ (Gives.kind_ne_of_binds rfl) (Gives.kind_ne_of_binds rfl)
      (Gives.kind_ne_of_binds rfl)
    exact (Gives.bindingName ⟨.word .infer, "infer", rfl⟩).mono fun _ _ => trivial
  exact functionTail_of_param rfl nofun nofun hparam (Gives.kind_ne_of_binds rfl)
    (Gives.kind_ne_of_binds rfl)

theorem operands_complains {mark : Mark} {wrap : List Ty → TyKind} {operand : Parser Ty}
    (h : operand.Complains reach before) (hbefore : kindAt before 0 ≠ .mark mark) :
    (operands mark wrap operand).Complains reach before := by
  unfold operands
  exact Complains.spanned ((Gives.skipIf_no hbefore).bind_complains fun _ _ => h.bind)

/-- No type begins with `extends`. -/
theorem conditionalType_complains :
    conditionalType.Complains reach (.word .extends :: before) := by
  have hnamed : namedType.Complains reach (.word .extends :: before) := by
    refine Gives.peek.bind_complains fun token htoken => ?_
    refine (Gives.kindAhead 1).bind_complains fun _ _ => ?_
    rw [if_neg (by simp [htoken.kind]), if_neg (by rw [htoken.kind]; decide)]
    exact .refuse
  have hprimary : primaryKind.Complains reach (.word .extends :: before) := by
    refine Gives.peek.bind_complains fun token htoken => ?_
    simp only [htoken.kind, Symbol.kind_word, primitive?]
    exact hnamed
  have hoperator : (operatorType false).Complains reach (.word .extends :: before) := by
    refine Gives.peekKind.bind_complains ?_
    rintro _ rfl
    refine (Gives.kindAhead 1).bind_complains fun _ _ => ?_
    rw [if_neg (by simp), if_neg (by simp), if_neg (by simp), if_neg (by simp)]
    exact hprimary.spanned.bind
  have hunion : (unionType false).Complains reach (.word .extends :: before) :=
    operands_complains (operands_complains hoperator (by simp)) (by simp)
  unfold conditionalType
  exact hunion.bind.spanned

theorem type_complains :
    Parser.type.Complains ((grammar limit).reach file levels) (.word .extends :: before) := by
  cases levels with
  | zero =>
      have hrefusal : (refuse fun _ => .tooDeep limit : Parser Ty).Complains
          ⟨file, fun _ source => .failure source⟩ (.word .extends :: before) := .refuse
      exact hrefusal
  | succ levels =>
      have hrule : conditionalType.Complains ((grammar limit).reach file levels)
          (.word .extends :: before) := conditionalType_complains
      exact hrule

/-- `infer is extends` looks like a predicate, but `extends` begins no type. -/
theorem predicate_complains [Layout.OneLine] (his : param.kind = .word .is) :
    predicate.Complains ((grammar limit).reach file levels)
      (.word .infer :: param.symbol :: .word .extends :: before) := by
  refine Complains.spanned (Gives.peekKind.bind_complains ?_)
  rintro _ rfl
  refine (Gives.kindAhead 1).bind_complains ?_
  rintro _ rfl
  rw [if_neg (by simp)]
  refine (Gives.predicateSubject (.inr rfl)).bind_complains fun _ _ => Gives.peek.bind_complains fun token htoken => ?_
  rw [if_pos (by simp [htoken.kind, htoken.sameLine, BindingWord.symbol, his])]
  exact Gives.advance.bind_complains fun _ _ => type_complains.bind

/-- Where a result stands, an inferred type is read as the type that it is. -/
theorem Gives.resultType_infer [Layout.OneLine] {Q : Ty → Prop}
    (htype : Parser.type.Gives ((grammar limit).reach file levels)
      (.word .infer :: param.symbol :: .word .extends :: before) after Q) :
    Parser.resultType.Gives ((grammar limit).reach file levels)
      (.word .infer :: param.symbol :: .word .extends :: before) after Q := by
  refine peekKind.known ((kindAhead 1).known ?_)
  by_cases his : param.kind = .word .is
  · rw [if_pos (by simp [BindingWord.symbol, his]; decide)]
    exact (attempt_complains (predicate_complains his)).known htype
  · rw [if_neg (by simp [BindingWord.symbol, his])]
    exact htype

end Parser

theorem Phrase.isTypeLike_infer [Layout] {param : BindingWord} {rest : List Symbol} :
    IsTypeLike (.word .infer :: param.symbol :: rest) where
  begins := ⟨_, _, rfl, rfl⟩
  unlabelled _ _ := .inl ⟨Parser.Gives.kind_ne_of_binds rfl, Parser.Gives.kind_ne_of_binds rfl⟩
  noFunction _ _ _ := Parser.functionTail_infer

namespace InferTree

variable {file : SourceId} {limit levels : Nat} {after : List Symbol}

theorem balanced_phrase (tree : InferTree) : Balanced tree.phrase.symbols := by
  cases tree with
  | matched check param constraint whenTrue whenFalse =>
      exact Phrase.balanced_conditional check.balanced_write
        (.word _ (.binding _ (.word _ constraint.balanced_write))) whenTrue.balanced_write
        whenFalse.balanced_write
  | tested param bound whenTrue whenFalse =>
      exact Phrase.balanced_conditional (.word _ (.binding _ .nil)) bound.balanced_write
        whenTrue.balanced_write whenFalse.balanced_write
  | constrained param constraint => exact .word _ (.binding _ (.word _ constraint.balanced_write))

theorem isTypeLike_phrase [Layout] (tree : InferTree) : IsTypeLike tree.phrase.symbols := by
  cases tree with
  | matched check => exact (check.opening_write.append (.cons rfl)).isTypeLike
  | tested | constrained => exact Phrase.isTypeLike_infer

/-- Where a type stands, the constraint goes to its owner. -/
theorem type_gives [Layout] [Layout.OneLine] (tree : InferTree) (hlength : tree.phrase.symbols.length ≤ levels)
    (hafter : Stratum.full.EndsAt after) (hquestion : kindAt after 0 ≠ .mark .question) :
    Parser.type.Gives ((grammar limit).reach file levels) (tree.phrase.symbols ++ after) after
      fun type => type.blank = tree.phrase.type := by
  cases levels with
  | zero =>
      obtain ⟨first, rest, hsymbols, -⟩ := tree.isTypeLike_phrase.begins
      rw [hsymbols] at hlength
      contradiction
  | succ levels =>
      have hreads := Parser.readsTypes file limit levels
      suffices Parser.conditionalType.Gives ((grammar limit).reach file levels)
          (tree.phrase.symbols ++ after) after fun type => type.blank = tree.phrase.type from
        Parser.Gives.nested this
      cases tree with
      | matched check param constraint whenTrue whenFalse =>
          simp only [phrase, Phrase.conditional, TypeTree.symbols_phrase, List.length_append,
            List.length_cons] at hlength
          refine Parser.Gives.conditionalType_phrase (fun rest hrest => ?_) (fun rest hrest => ?_)
            (fun rest hrest => ?_) ?_
          · exact Parser.Gives.unionType hreads false check (by omega) (hrest ▸ .of_kindAt rfl rfl)
          · exact Parser.Gives.unionType_infer_some (by omega) hrest (.inl rfl)
          · exact hreads.type whenTrue rest (by omega) (.of_kindAt hrest rfl)
          · exact hreads.type whenFalse after (by omega) hafter
      | tested param bound whenTrue whenFalse =>
          simp only [phrase, Phrase.conditional, Phrase.infer, TypeTree.symbols_phrase, List.length_append,
            List.length_cons] at hlength
          refine Parser.Gives.conditionalType_phrase (fun rest hrest => ?_) (fun rest hrest => ?_)
            (fun rest hrest => ?_) ?_
          · rw [hrest]
            exact Parser.Gives.unionType_infer_none (by omega) rfl
          · exact Parser.Gives.unionType hreads true bound (by omega) hrest
          · exact hreads.type whenTrue rest (by omega) (.of_kindAt hrest rfl)
          · exact hreads.type whenFalse after (by omega) hafter
      | constrained param constraint =>
          refine Parser.Gives.conditionalType_single ?_ (hafter.line rfl)
          exact Parser.Gives.unionType_infer_some hlength (hafter.tighter (by decide))
            (.inr hquestion)

theorem isReadable_phrase [Layout] [Layout.OneLine] (tree : InferTree) (file : SourceId)
    (limit : Nat) : tree.phrase.IsReadable file limit where
  balanced := tree.balanced_phrase
  like := tree.isTypeLike_phrase
  type _ _ hlength hafter hquestion := tree.type_gives hlength hafter hquestion
  result levels after hlength hafter hquestion := by
    have htype : Parser.type.Gives ((grammar limit).reach file levels)
        (tree.phrase.symbols ++ after) after fun type => type.blank = tree.phrase.type :=
      tree.type_gives hlength hafter hquestion
    cases tree with
    | matched check =>
        exact Parser.Gives.resultType (check.opening_write.append (.cons rfl)) hafter htype
    | tested | constrained => exact Parser.Gives.resultType_infer htype

end InferTree

/-- Wherever a type stands, what follows `infer X extends` is read as the constraint of `X` in a
bound, and elsewhere if no question mark comes after it; otherwise it is the bound of a
conditional type. -/
theorem wholeType_infer (context : TypeContext .full) (tree : InferTree) (file : SourceId)
    (tokens : TokenStream) (limit : Nat)
    (hwritten : tokens.Spells (context.fill tree.phrase).symbols)
    (hlimit : (context.fill tree.phrase).symbols.length ≤ limit) :
    ∃ type lastRead rest,
      (grammar limit).run file limit Parser.wholeType tokens = ⟨some type, [], lastRead, rest⟩ ∧
      type.blank = (context.fill tree.phrase).type ∧ rest.pending = [] := by
  let _ := Layout.line tokens.finished
  have hreadable := (tree.isReadable_phrase file limit).fill context
  have htype := hreadable.type limit [] hlimit rfl nofun
  rw [List.append_nil] at htype
  exact htype.wholeType hwritten

/-- The bound of `E extends [_] ? U : never`, with a hole in the tuple. -/
def boundElement : TypeContext .full :=
  let name (text : String) (hordinary : text ≠ "intrinsic") : TypeTree .union :=
    .ofIntersection (.ofOperator (.ofSuffixed (.ofPrimary (.name ⟨text, [], fun _ => hordinary⟩))))
  let tuple : TypeContext .union :=
    .ofIntersection (.ofOperator (.ofSuffixed (.ofPrimary (.tuple [] .hole []))))
  let never : TypeTree .union :=
    .ofIntersection (.ofOperator (.ofSuffixed (.ofPrimary (.keyword .never .never rfl))))
  .inExtends (name "E" (by decide)) tuple (.ofUnion (name "U" (by decide))) (.ofUnion never)

/-- The type `infer is extends string ? 1 : [this]`, where `is` is a name. -/
def inferString : InferTree :=
  let single (tree : TypeTree .primary) : TypeTree .union :=
    .ofIntersection (.ofOperator (.ofSuffixed (.ofPrimary tree)))
  .tested ⟨.word .is, "is", rfl⟩ (single (.keyword .string .string rfl))
    (.ofUnion (single (.number false "1"))) (.ofUnion (single (.tuple (.cons (.ofUnion (single .this)) .nil))))

/-- Its tokens in the bound, as they are lexed. -/
def boundElementTokens : TokenStream :=
  .ofTokens (lex "E extends [infer is extends string ? 1 : [this]] ? U : never" ⟨0⟩).tokens

theorem wholeType_infer_boundElement :
    boundElementTokens.Spells (boundElement.fill inferString.phrase).symbols ∧
    (boundElement.fill inferString.phrase).symbols.length ≤ 20 ∧
    ∃ type lastRead rest,
      (grammar 20).run ⟨0⟩ 20 Parser.wholeType boundElementTokens =
        ⟨some type, [], lastRead, rest⟩ ∧
      type.blank = (boundElement.fill inferString.phrase).type ∧ rest.pending = [] :=
  ⟨by decide +kernel, by decide +kernel, wholeType_infer boundElement inferString ⟨0⟩
    boundElementTokens 20 (by decide +kernel) (by decide +kernel)⟩

end DeclFile

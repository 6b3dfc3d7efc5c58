import DeclFile.Parsed
import DeclFile.Proofs.Quiet.Type

/-! # Written types are read back

Writing a type tree and reading it gives the tree, whatever is nested in it. Each stratum is
read from the tighter ones. The types inside a type have fewer symbols, so that an induction
on the levels of nesting reaches all of them.
-/

namespace DeclFile

namespace Parser

/-- What begins a written type shows that a type follows. -/
theorem beginsType_of_beginsTree {kind : Kind} (h : kind.beginsTree = true) :
    beginsType kind = true := by
  unfold Kind.beginsTree at h
  split at h <;> simp_all [beginsType, Kind.isName, Kind.isKeyword]

theorem length_le_operands {stratum : Stratum} {mark : Mark} {first second tree : TypeTree stratum}
    {more : TypeTrees stratum} (h : tree ∈ first :: second :: more.toList) :
    tree.write.length ≤ (first.write ++ markEach mark (second.write :: more.writes)).length := by
  rw [List.length_append, TypeTrees.writes_eq_map, ← List.map_cons]
  rcases List.mem_cons.mp h with rfl | hmore
  · omega
  · have hlength : tree.write.length ≤
        (markEach mark ((second :: more.toList).map TypeTree.write)).length :=
      length_le_markEach (List.mem_map_of_mem hmore)
    omega

variable [Layout] {reach : Reach TokenStream} {most : Nat} {before after : List Symbol}

namespace Gives

/-! ## Operators -/

theorem operatorType_of_suffixed {inBound : Bool} {Q : Ty → Prop}
    (h : Parser.suffixedType.Gives reach before after Q)
    (hfirst : (kindAt before 0).beginsOperator = false) :
    (Parser.operatorType inBound).Gives reach before after Q := by
  have hne {kind : Kind} (hkind : kind.beginsOperator = true) : kindAt before 0 ≠ kind := by
    rintro rfl
    rw [hkind] at hfirst
    contradiction
  have hunique : kindAt before 0 ≠ .word .unique := hne rfl
  have hreadonly : kindAt before 0 ≠ .word .readonly := hne rfl
  refine peekKind.known ((kindAhead 1).known ?_)
  rw [if_neg (hne rfl), if_neg (by simp [hunique]), if_neg (by simp [hreadonly]), if_neg (hne rfl)]
  exact h

/-- An operator with its operand, or a type with suffixes, is read as it is written. -/
theorem operatorType [Layout.OneLine] (hreads : ReadsTypes reach most) (inBound : Bool) (tree : TypeTree .operator)
    (hlength : tree.write.length ≤ most + 1) (hafter : Stratum.operator.EndsAt after) :
    (Parser.operatorType inBound).Gives reach (tree.write ++ after) after
      fun type => type.blank = tree.type := by
  match tree with
  | .ofSuffixed inner =>
      refine operatorType_of_suffixed (suffixedType hreads inner hlength hafter) ?_
      obtain ⟨first, rest, hwrite, hfirst⟩ := inner.first_of_tight (.inr rfl)
      rw [TypeTree.write, hwrite]
      exact hfirst
  | .keyOf operand =>
      refine peekKind.known ((kindAhead 1).known ?_)
      rw [if_pos (by rfl)]
      refine typeOf (advance.bind fun _ _ => ?_)
      refine (hreads.operand operand inBound after ?_ hafter).bind fun type htype => .pure ?_
      · simpa [TypeTree.write] using hlength
      · rw [TyKind.blank, htype, TypeTree.type]
  | .readonly operand =>
      have hbegins : beginsType (kindAt (operand.write ++ after) 0) = true :=
        beginsType_of_beginsTree (operand.beginsTree after)
      refine peekKind.known ((kindAhead 1).known ?_)
      rw [if_neg (by simp [TypeTree.write]), if_neg (by simp [TypeTree.write]),
        if_pos (by simp [TypeTree.write, hbegins])]
      refine typeOf (advance.bind fun _ _ => ?_)
      refine (hreads.operand operand inBound after ?_ hafter).bind fun type htype => .pure ?_
      · simpa [TypeTree.write] using hlength
      · rw [TyKind.blank, htype, TypeTree.type]
  | .uniqueSymbol =>
      refine peekKind.known ((kindAhead 1).known ?_)
      rw [if_neg (by simp [TypeTree.write]), if_pos (by rfl)]
      exact typeOf (advance.bind fun _ _ => symbolKind rfl)

/-! ## Unions and intersections -/

variable {mark : Mark} {wrap : List Ty → TyKind} {operand : Parser Ty}

/-- A single operand is itself. -/
theorem operands_single {Q : Ty → Prop} (h : operand.Gives reach before after Q)
    (hbefore : kindAt before 0 ≠ .mark mark) (hafter : kindAt after 0 ≠ .mark mark) :
    (operands mark wrap operand).Gives reach before after Q := by
  unfold operands
  refine spanned ((skipIf_no hbefore).known ?_)
  refine h.bind fun first hfirst => ?_
  refine (nextIs _).known ?_
  rw [if_neg (by simpa using hafter)]
  exact .pure fun _ => hfirst

/-- Operands with marks between them are read as a list. -/
theorem operands_list (first : Phrase) (others : List Phrase) (hothers : others ≠ [])
    (hwrap : ∀ types, (wrap types).blank = wrap (types.map Ty.blank))
    (hbegins : ∀ rest, kindAt (first.symbols ++ rest) 0 ≠ .mark mark)
    (hafter : kindAt after 0 ≠ .mark mark)
    (hoperand : ∀ phrase ∈ first :: others, ∀ rest, rest = after ∨ kindAt rest 0 = .mark mark →
      operand.Gives reach (phrase.symbols ++ rest) rest fun type => type.blank = phrase.type) :
    (operands mark wrap operand).Gives reach
      (first.symbols ++ markEach mark (others.map Phrase.symbols) ++ after) after
      fun type => type.blank = ⟨wrap ((first :: others).map Phrase.type), default⟩ := by
  obtain ⟨hone, hmore⟩ := List.forall_mem_cons.mp hoperand
  have hmark : kindAt (markEach mark (others.map Phrase.symbols) ++ after) 0 = .mark mark := by
    obtain ⟨second, more, rfl⟩ := List.exists_cons_of_ne_nil hothers
    rfl
  rw [List.append_assoc]
  unfold operands
  refine spanned ((skipIf_no (hbegins _)).known ?_)
  refine (hone _ (.inr hmark)).bind fun type htype => ?_
  refine (nextIs _).known ?_
  rw [if_pos (by simp [hmark])]
  refine (afterEach others hmore hafter).bind fun types htypes => .pure ?_
  intro span
  rw [Ty.blank, hwrap, List.map_cons, htype, htypes]
  rfl

/-- Trees as operands are read as a list. -/
theorem operands_trees {stratum : Stratum} (first second : TypeTree stratum)
    (more : TypeTrees stratum) (hwrap : ∀ types, (wrap types).blank = wrap (types.map Ty.blank))
    (hmark : Kind.beginsTree (.mark mark) = false) (hafter : kindAt after 0 ≠ .mark mark)
    (hoperand : ∀ tree ∈ first :: second :: more.toList, ∀ rest,
      rest = after ∨ kindAt rest 0 = .mark mark →
      operand.Gives reach (tree.write ++ rest) rest fun type => type.blank = tree.type) :
    (operands mark wrap operand).Gives reach
      (first.write ++ markEach mark (second.write :: more.writes) ++ after) after
      fun type => type.blank = ⟨wrap (first.type :: second.type :: more.types), default⟩ := by
  have hlist := operands_list first.phrase ((second :: more.toList).map TypeTree.phrase)
    (List.cons_ne_nil _ _) hwrap
    (fun rest => Kind.ne_of_beginsTree (first.beginsTree rest) hmark) hafter
    (List.forall_mem_map (f := TypeTree.phrase) (l := first :: second :: more.toList).mpr hoperand)
  rw [← List.map_cons, TypeTree.symbols_phrases, TypeTree.types_phrases] at hlist
  rw [TypeTrees.writes_eq_map, TypeTrees.types_eq_map]
  exact hlist

/-- An intersection, or one operand of it, is read as it is written. -/
theorem intersectionType [Layout.OneLine] (hreads : ReadsTypes reach most) (inBound : Bool)
    (tree : TypeTree .intersection) (hlength : tree.write.length ≤ most + 1)
    (hafter : Stratum.intersection.EndsAt after) :
    (operands .ampersand .intersection (Parser.operatorType inBound)).Gives reach
      (tree.write ++ after) after fun type => type.blank = tree.type := by
  have htight : Stratum.operator.EndsAt after := hafter.tighter (by decide)
  match tree with
  | .ofOperator inner =>
      refine operands_single (operatorType hreads inBound inner hlength htight) ?_ (hafter.ne rfl)
      exact Kind.ne_of_beginsTree (inner.beginsTree after) rfl
  | .intersection first second more =>
      refine operands_trees first second more ?_ rfl (hafter.ne rfl) fun operand hmem rest hrest => ?_
      · intro types
        rw [TyKind.blank, blankTypes_eq_map]
      · refine operatorType hreads inBound operand ?_ ?_
        · exact (length_le_operands hmem).trans hlength
        · rcases hrest with rfl | hrest
          · exact htight
          · exact .of_kindAt hrest rfl

/-- A union, or one operand of it, is read as it is written. -/
theorem unionType [Layout.OneLine] (hreads : ReadsTypes reach most) (inBound : Bool) (tree : TypeTree .union)
    (hlength : tree.write.length ≤ most + 1) (hafter : Stratum.union.EndsAt after) :
    (Parser.unionType inBound).Gives reach (tree.write ++ after) after
      fun type => type.blank = tree.type := by
  have htight : Stratum.intersection.EndsAt after := hafter.tighter (by decide)
  match tree with
  | .ofIntersection inner =>
      refine operands_single (intersectionType hreads inBound inner hlength htight) ?_
        (hafter.ne rfl)
      exact Kind.ne_of_beginsTree (inner.beginsTree after) rfl
  | .union first second more =>
      refine operands_trees first second more ?_ rfl (hafter.ne rfl) fun operand hmem rest hrest => ?_
      · intro types
        rw [TyKind.blank, blankTypes_eq_map]
      · refine intersectionType hreads inBound operand ?_ ?_
        · exact (length_le_operands hmem).trans hlength
        · rcases hrest with rfl | hrest
          · exact htight
          · exact .of_kindAt hrest rfl

/-! ## Conditional types -/

/-- What follows the bound of a conditional type is read with it. -/
theorem conditionalRest {bound whenTrue whenFalse : Phrase}
    (hbound : ∀ rest, kindAt rest 0 = .mark .question →
      (Parser.unionType true).Gives reach (bound.symbols ++ rest) rest
        fun type => type.blank = bound.type)
    (htrue : ∀ rest, kindAt rest 0 = .mark .colon →
      Parser.type.Gives reach (whenTrue.symbols ++ rest) rest
        fun type => type.blank = whenTrue.type)
    (hfalse : Parser.type.Gives reach (whenFalse.symbols ++ after) after
      fun type => type.blank = whenFalse.type) :
    Parser.conditionalRest.Gives reach (.word .extends :: (bound.symbols ++ .mark .question ::
        (whenTrue.symbols ++ .mark .colon :: (whenFalse.symbols ++ after)))) after
      fun found => found.1.blank = bound.type ∧ found.2.1.blank = whenTrue.type ∧
        found.2.2.blank = whenFalse.type := by
  refine advance.bind fun _ _ => ?_
  refine (hbound _ rfl).bind fun boundType hboundType => ?_
  refine (expect rfl).bind fun _ _ => ?_
  refine (htrue _ rfl).bind fun trueType htrueType => ?_
  refine (expect rfl).bind fun _ _ => ?_
  refine hfalse.bind fun falseType hfalseType => .pure ?_
  exact ⟨hboundType, htrueType, hfalseType⟩

/-- A conditional type is read from its parts. -/
theorem conditionalType_all [Layout.OneLine] {check : Ty} {bound whenTrue whenFalse : Phrase}
    (hcheck : (Parser.unionType false).Gives reach before (.word .extends :: (bound.symbols ++
        .mark .question :: (whenTrue.symbols ++ .mark .colon :: (whenFalse.symbols ++ after))))
      fun type => type.blank = check)
    (hbound : ∀ rest, kindAt rest 0 = .mark .question →
      (Parser.unionType true).Gives reach (bound.symbols ++ rest) rest
        fun type => type.blank = bound.type)
    (htrue : ∀ rest, kindAt rest 0 = .mark .colon →
      Parser.type.Gives reach (whenTrue.symbols ++ rest) rest
        fun type => type.blank = whenTrue.type)
    (hfalse : Parser.type.Gives reach (whenFalse.symbols ++ after) after
      fun type => type.blank = whenFalse.type) :
    Parser.conditionalType.Gives reach before after fun type => type.blank =
      ⟨.conditional check bound.type whenTrue.type whenFalse.type, default⟩ := by
  unfold Parser.conditionalType
  refine spanned (hcheck.bind fun checked hchecked => ?_)
  refine peek.bind fun token htoken => ?_
  rw [if_pos (by simp [htoken.kind, htoken.sameLine])]
  refine bind (P := fun rest? : Option (Ty × Ty × Ty) => ∃ found, rest? = some found ∧
    found.1.blank = bound.type ∧ found.2.1.blank = whenTrue.type ∧
    found.2.2.blank = whenFalse.type)
    (optional ((conditionalRest hbound htrue hfalse).mono fun found h => ⟨found, rfl, h⟩))
    fun rest? h => ?_
  obtain ⟨⟨boundType, trueType, falseType⟩, rfl, hbound, htrue, hfalse⟩ := h
  refine .pure fun _ => ?_
  rw [Ty.blank, TyKind.blank, hchecked, hbound, htrue, hfalse]

/-- Where no bound follows, a conditional type is what would be checked. -/
theorem conditionalType_single {Q : Ty → Prop}
    (h : (Parser.unionType false).Gives reach before after Q)
    (hafter : kindAt after 0 = .word .extends → lineAt after = true) :
    Parser.conditionalType.Gives reach before after Q := by
  unfold Parser.conditionalType
  refine spanned (h.bind fun check hcheck => peek_kind.bind fun token ⟨hkind, hline⟩ => ?_)
  rw [if_neg (by simpa [hkind] using fun hextends => hline (hafter hextends))]
  exact .pure fun _ => hcheck

/-- A function is no operand of a union, but is read where one can stand. -/
theorem unionType_function (inBound : Bool) (phrases : List ParamPhrase) {result : Phrase}
    (hparams : ∀ phrase ∈ phrases, phrase.declared.Reads reach)
    (hresult : Parser.resultType.Gives reach (result.symbols ++ after) after
      fun type => type.blank = result.type)
    (hafter : Stratum.union.EndsAt after) :
    (Parser.unionType inBound).Gives reach (.mark .openParen ::
        (commas (phrases.map ParamPhrase.symbols) ++
          .mark .closeParen :: .mark .arrow :: (result.symbols ++ after))) after
      fun type => type.blank =
        ⟨.function ⟨[], phrases.map ParamPhrase.param, result.type⟩, default⟩ := by
  have hprimary : Parser.primaryKind.Gives reach (.mark .openParen ::
      (commas (phrases.map ParamPhrase.symbols) ++
        .mark .closeParen :: .mark .arrow :: (result.symbols ++ after))) after
      fun kind => (⟨kind.blank, default⟩ : Ty) =
        ⟨.function ⟨[], phrases.map ParamPhrase.param, result.type⟩, default⟩ := by
    refine peek.bind fun token htoken => ?_
    simp only [htoken.kind, Symbol.kind_mark, primitive?]
    exact parenType_function phrases hparams hresult
  have hsuffixed : Parser.suffixedType.Gives reach (.mark .openParen ::
      (commas (phrases.map ParamPhrase.symbols) ++
        .mark .closeParen :: .mark .arrow :: (result.symbols ++ after))) after
      fun type => type.blank =
        ⟨.function ⟨[], phrases.map ParamPhrase.param, result.type⟩, default⟩ := by
    refine (typeOf hprimary).bind fun type htype => Cycles.gives ?_
    exact .suffixTurn_done htype (hafter.line rfl)
  refine operands_single (operands_single (operatorType_of_suffixed hsuffixed rfl) ?_ ?_) ?_ ?_
  · simp
  · exact hafter.ne rfl
  · simp
  · exact hafter.ne rfl

/-- A type is read as it is written. -/
theorem conditionalType [Layout.OneLine] (hreads : ReadsTypes reach most) (tree : TypeTree .full)
    (hlength : tree.write.length ≤ most + 1) (hafter : Stratum.full.EndsAt after) :
    Parser.conditionalType.Gives reach (tree.write ++ after) after
      fun type => type.blank = tree.type := by
  match tree with
  | .ofUnion inner =>
      refine conditionalType_single ?_ (hafter.line rfl)
      exact unionType hreads false inner hlength (hafter.tighter (by decide))
  | .function params result =>
      simp only [TypeTree.write, List.length_cons, List.length_append, paramWrites_eq_map,
        ← ParamTree.symbols_phrases] at hlength
      have hparams : ∀ phrase ∈ params.map ParamTree.phrase, phrase.declared.Reads reach :=
        hreads.declared (by omega) fun tree htree => List.mem_map_of_mem htree
      have hresult : Parser.resultType.Gives reach (result.phrase.symbols ++ after) after
          fun type => type.blank = result.phrase.type :=
        resultType result.opening_write hafter (hreads.type result after (by omega) hafter)
      have hwrite : (TypeTree.function params result).write ++ after =
          .mark .openParen :: (commas ((params.map ParamTree.phrase).map ParamPhrase.symbols) ++
            .mark .closeParen :: .mark .arrow :: (result.phrase.symbols ++ after)) := by
        rw [ParamTree.symbols_phrases]
        simp [TypeTree.write, paramWrites_eq_map, TypeTree.phrase]
      rw [hwrite, TypeTree.type, paramsOf_eq_map, ← ParamTree.param_phrases]
      refine conditionalType_single ?_ (hafter.line rfl)
      exact unionType_function false _ hparams hresult (hafter.tighter (by decide))
  | .conditional check bound whenTrue whenFalse =>
      obtain ⟨first, rest, hcheck, -⟩ := check.opening_write.first
      simp only [TypeTree.write, List.length_append, List.length_cons, hcheck] at hlength
      have hwrite : (TypeTree.conditional check bound whenTrue whenFalse).write ++ after =
          check.write ++ (.word .extends :: (bound.write ++ .mark .question ::
            (whenTrue.write ++ .mark .colon :: (whenFalse.write ++ after)))) := by
        simp [TypeTree.write]
      rw [hwrite, TypeTree.type]
      have hbound : ∀ rest, kindAt rest 0 = .mark .question →
          (Parser.unionType true).Gives reach (bound.phrase.symbols ++ rest) rest
            fun type => type.blank = bound.phrase.type :=
        fun rest hrest => unionType hreads true bound (by omega) (.of_kindAt hrest rfl)
      have htrue : ∀ rest, kindAt rest 0 = .mark .colon →
          Parser.type.Gives reach (whenTrue.phrase.symbols ++ rest) rest
            fun type => type.blank = whenTrue.phrase.type :=
        fun rest hrest => hreads.type whenTrue rest (by omega) (.of_kindAt hrest rfl)
      have hfalse : Parser.type.Gives reach (whenFalse.phrase.symbols ++ after) after
          fun type => type.blank = whenFalse.phrase.type :=
        hreads.type whenFalse after (by omega) hafter
      refine conditionalType_all ?_ hbound htrue hfalse
      refine unionType hreads false check ?_ (.of_kindAt rfl rfl)
      rw [hcheck, List.length_cons]
      omega

end Gives

/-! ## Levels of nesting -/

/-- With as many levels as symbols, types are read. The induction is on the levels: the types
in a type are written with fewer symbols than it is. -/
theorem readsTypes [Layout.OneLine] (file : SourceId) (limit levels : Nat) :
    ReadsTypes ((grammar limit).reach file levels) levels := by
  induction levels with
  | zero =>
      constructor
      · intro tree after hlength
        obtain ⟨first, rest, hwrite, -⟩ := tree.opening_write.first
        rw [hwrite] at hlength
        contradiction
      · intro tree inBound after hlength
        obtain ⟨first, rest, hwrite, -⟩ := tree.opening_write.first
        rw [hwrite] at hlength
        contradiction
  | succ levels ih =>
      constructor
      · intro tree after hlength hafter
        exact Gives.nested (Gives.conditionalType ih tree hlength hafter)
      · intro tree inBound after hlength hafter
        exact Gives.nested (Gives.operatorType ih inBound tree hlength hafter)

omit [Layout] in
/-- A type that is read up to the end is the whole of the text. -/
theorem Gives.wholeType {file : SourceId} {limit : Nat} {symbols : List Symbol} {Q : Ty → Prop}
    {tokens : TokenStream} (h : Parser.type.Gives ((grammar limit).reach file limit)
      (@Heads (.line tokens.finished) symbols) (@Heads (.line tokens.finished) []) Q)
    (hwritten : tokens.Spells symbols) : ∃ type lastRead rest,
      (grammar limit).run file limit Parser.wholeType tokens = ⟨some type, [], lastRead, rest⟩ ∧
      Q type ∧ rest.pending = [] := by
  let _ := Layout.line tokens.finished
  have hwhole : Parser.wholeType.Gives ((grammar limit).reach file limit) symbols (Heads []) Q := by
    refine h.bind fun type htype => peek_kind.bind fun token ⟨hkind, _⟩ => ?_
    have hend : token.kind = .endOfText := hkind
    rw [if_neg (by simp [hend])]
    exact .pure htype
  obtain ⟨type, lastRead, rest, hrun, hrest, htype⟩ := hwhole tokens hwritten.heads
  exact ⟨type, lastRead, rest, hrun, htype, congrArg TokenStream.pending (Heads.nil_iff.mp hrest)⟩

end Parser

/-- A type that is written on one line, and nothing after it, is read back up to spans, with
nothing reported, if there are as many levels of nesting as tokens. -/
theorem wholeType_round_trip (tree : TypeTree .full) (file : SourceId) (tokens : TokenStream)
    (limit : Nat) (hwritten : tokens.Spells tree.write) (hlimit : tree.write.length ≤ limit) :
    ∃ type lastRead rest,
      (grammar limit).run file limit Parser.wholeType tokens = ⟨some type, [], lastRead, rest⟩ ∧
      type.blank = tree.type ∧ rest.pending = [] := by
  let _ := Layout.line tokens.finished
  have htype := (Parser.readsTypes file limit limit).type tree [] hlimit rfl
  rw [List.append_nil] at htype
  exact htype.wholeType hwritten

/-- The type `T extends readonly A[] ? (x?: -1) => T : [B & C]`. -/
def elementwise : TypeTree .full :=
  let name (text : String) (hordinary : text ≠ "intrinsic") : TypeTree .suffixed :=
    .ofPrimary (.name ⟨text, [], fun _ => hordinary⟩)
  let single (tree : TypeTree .suffixed) : TypeTree .union :=
    .ofIntersection (.ofOperator (.ofSuffixed tree))
  let bound : TypeTree .union :=
    .ofIntersection (.ofOperator (.readonly (.ofSuffixed (.array (name "A" (by decide))))))
  let param : ParamTree :=
    ⟨false, ⟨.identifier, "x", rfl⟩, true, .ofUnion (single (.ofPrimary (.number true "1")))⟩
  let both : TypeTree .full := .ofUnion (.ofIntersection (.intersection
    (.ofSuffixed (name "B" (by decide))) (.ofSuffixed (name "C" (by decide))) .nil))
  .conditional (single (name "T" (by decide))) bound
    (.function [param] (.ofUnion (single (name "T" (by decide)))))
    (.ofUnion (single (.ofPrimary (.tuple (.cons both .nil)))))

/-- Its tokens, as they are lexed. -/
def elementwiseTokens : TokenStream :=
  .ofTokens (lex "T extends readonly A[] ? (x?: -1) => T : [B & C]" ⟨0⟩).tokens

theorem wholeType_round_trip_elementwise :
    elementwiseTokens.Spells elementwise.write ∧ elementwise.write.length ≤ 22 ∧
    ∃ type lastRead rest,
      (grammar 22).run ⟨0⟩ 22 Parser.wholeType elementwiseTokens = ⟨some type, [], lastRead, rest⟩ ∧
      type.blank = elementwise.type ∧ rest.pending = [] :=
  ⟨by decide +kernel, by decide +kernel,
    wholeType_round_trip elementwise ⟨0⟩ elementwiseTokens 22 (by decide +kernel)
      (by decide +kernel)⟩

end DeclFile

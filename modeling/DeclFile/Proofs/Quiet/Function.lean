import DeclFile.Parser.Statement
import DeclFile.Proofs.Quiet.Name
import DeclFile.Proofs.Quiet.Starts

/-! # Reading arguments and functions without a word

The types in a type are reached one level deeper. What is read here is read for sure if they
are, as long as each of them has no more symbols than there are levels.
-/

namespace DeclFile

/-! ## What follows a type -/

/-- The kinds of tokens with which a type of the stratum might go on. -/
def Stratum.blocked : Stratum → List Kind
  | .primary => [.mark .dot, .mark .openAngle, .mark .arrow]
  | .suffixed | .operator => [.mark .openBracket, .mark .dot, .mark .openAngle, .mark .arrow]
  | .intersection =>
      [.mark .ampersand, .mark .openBracket, .mark .dot, .mark .openAngle, .mark .arrow]
  | .union => [.mark .pipe, .mark .ampersand, .mark .openBracket, .mark .dot, .mark .openAngle,
      .mark .arrow]
  | .full => [.word .extends, .word .is, .mark .pipe, .mark .ampersand, .mark .openBracket,
      .mark .dot, .mark .openAngle, .mark .arrow]

/-- The kinds of tokens with which a type only goes on if no line ends in front of them. -/
def Kind.keepsToLine : Kind → Bool
  | .mark .openBracket | .mark .openAngle | .word .extends | .word .is => true
  | _ => false

section

variable [Layout]

/-- What follows does not belong to a type of the stratum. -/
def Stratum.EndsAt (stratum : Stratum) (after : List Symbol) : Prop :=
  (stratum.blocked.contains (kindAt after 0) &&
    !((kindAt after 0).keepsToLine && lineAt after)) = false

theorem Stratum.EndsAt.ne {stratum : Stratum} {after : List Symbol} {kind : Kind}
    (h : stratum.EndsAt after) (hkind : stratum.blocked.contains kind = true)
    (hline : kind.keepsToLine = false := by rfl) : kindAt after 0 ≠ kind := by
  rintro rfl
  rw [Stratum.EndsAt, hkind, hline] at h
  contradiction

/-- A token with which the type could go on begins a line. -/
theorem Stratum.EndsAt.line {stratum : Stratum} {after : List Symbol} {kind : Kind}
    (h : stratum.EndsAt after) (hkind : stratum.blocked.contains kind = true)
    (heq : kindAt after 0 = kind) : lineAt after = true := by
  subst heq
  rw [Stratum.EndsAt, hkind] at h
  simp_all

theorem Stratum.EndsAt.of_kindAt {stratum : Stratum} {after : List Symbol} {kind : Kind}
    (h : kindAt after 0 = kind) (hfree : stratum.blocked.contains kind = false) :
    stratum.EndsAt after := by
  rw [Stratum.EndsAt, h, hfree, Bool.false_and]

theorem Stratum.EndsAt.tighter {stratum tight : Stratum} {after : List Symbol}
    (h : stratum.EndsAt after) (htight : ∀ kind ∈ tight.blocked, kind ∈ stratum.blocked) :
    tight.EndsAt after := by
  simp only [Stratum.EndsAt, Bool.and_eq_false_imp, List.contains_eq_mem, decide_eq_true_eq] at h ⊢
  exact fun hmem => h (htight _ hmem)

/-- Types with so many symbols at most, and operands of operators, are read where they are
reached. -/
structure ReadsTypes (reach : Reach TokenStream) (most : Nat) : Prop where
  type : ∀ (tree : TypeTree .full) (after : List Symbol), tree.write.length ≤ most →
    Stratum.full.EndsAt after →
    Parser.type.Gives reach (tree.write ++ after) after fun type => type.blank = tree.type
  operand : ∀ (tree : TypeTree .operator) (inBound : Bool) (after : List Symbol),
    tree.write.length ≤ most → Stratum.operator.EndsAt after →
    (Parser.nested (.operand inBound)).Gives reach (tree.write ++ after) after
      fun type : Ty => type.blank = tree.type

/-- A written type begins with a token that begins a type. -/
theorem TypeTree.beginsTree {stratum : Stratum} (tree : TypeTree stratum) (after : List Symbol) :
    (kindAt (tree.write ++ after) 0).beginsTree = true := by
  obtain ⟨first, rest, hwrite, hfirst⟩ := tree.opening_write.first
  rwa [hwrite]

end

theorem Kind.ne_of_beginsTree {kind other : Kind} (h : kind.beginsTree = true)
    (hother : other.beginsTree = false) : kind ≠ other := by
  rintro rfl
  rw [h] at hother
  contradiction

theorem length_le_markEach {mark : Mark} {stretch : List Symbol} {stretches : List (List Symbol)}
    (h : stretch ∈ stretches) : stretch.length ≤ (markEach mark stretches).length := by
  obtain ⟨before, after, rfl⟩ := List.append_of_mem h
  simp only [markEach, List.flatMap_append, List.flatMap_cons, List.length_append,
    List.length_cons]
  omega

theorem length_le_commas {stretch : List Symbol} {stretches : List (List Symbol)}
    (h : stretch ∈ stretches) : stretch.length ≤ (commas stretches).length := by
  cases stretches with
  | nil => exact absurd h List.not_mem_nil
  | cons first more =>
      rw [commas, List.length_append]
      rcases List.mem_cons.mp h with rfl | hmore
      · omega
      · have hlength : stretch.length ≤ (markEach .comma more).length := length_le_markEach hmore
        omega

/-! ## Phrases -/

/-- Symbols with the type that they write. -/
structure Phrase where
  symbols : List Symbol
  type : Ty

def Phrase.array (element : Phrase) : Phrase :=
  ⟨element.symbols ++ [.mark .openBracket, .mark .closeBracket], ⟨.array element.type, default⟩⟩

def Phrase.indexed (object index : Phrase) : Phrase :=
  ⟨object.symbols ++ .mark .openBracket :: (index.symbols ++ [.mark .closeBracket]),
    ⟨.indexedAccess object.type index.type, default⟩⟩

/-- A parameter whose type is a phrase. -/
structure ParamPhrase where
  rest : Bool
  name : BindingWord
  optional : Bool
  declared : Phrase

def ParamPhrase.symbols (phrase : ParamPhrase) : List Symbol :=
  Symbol.onlyIf (.mark .ellipsis) phrase.rest ++ phrase.name.symbol ::
    (Symbol.onlyIf (.mark .question) phrase.optional ++ .mark .colon :: phrase.declared.symbols)

def ParamPhrase.param (phrase : ParamPhrase) : Param :=
  ⟨.ident phrase.name.ident, some phrase.declared.type, phrase.optional, phrase.rest, .empty,
    default⟩

/-- Whether what stands where a type can begins with a token of this kind. -/
def Kind.beginsPhrase (kind : Kind) : Bool := kind.beginsTree || kind == .word .infer

theorem Kind.ne_of_beginsPhrase {kind other : Kind} (h : kind.beginsPhrase = true)
    (hother : other.beginsPhrase = false) : kind ≠ other := by
  rintro rfl
  rw [h] at hother
  contradiction

section

variable [Layout]

/-- The symbols begin like a type, and like neither an element with a label nor the parameters of
a function. -/
structure IsTypeLike (symbols : List Symbol) : Prop where
  begins : ∃ first rest, symbols = first :: rest ∧ first.kind.beginsPhrase = true
  unlabelled : ∀ after, (kindAt (symbols ++ after) 0).isName = true →
    (kindAt (symbols ++ after) 1 ≠ .mark .colon ∧ kindAt (symbols ++ after) 1 ≠ .mark .question) ∨
      kindAt (symbols ++ after) 1 = kindAt after 0
  noFunction : ∀ (reach : Reach TokenStream) after, kindAt after 0 ≠ .mark .arrow →
    (Parser.functionTail []).Complains reach (.mark .openParen :: (symbols ++ .mark .closeParen :: after))

theorem IsTypeLike.beginsPhrase {symbols : List Symbol} (h : IsTypeLike symbols)
    (after : List Symbol) : (kindAt (symbols ++ after) 0).beginsPhrase = true := by
  obtain ⟨first, rest, rfl, hfirst⟩ := h.begins
  exact hfirst

/-- The phrase is read where a type is, up to what ends a type and is no question mark. -/
structure Phrase.Reads (reach : Reach TokenStream) (phrase : Phrase) : Prop where
  like : IsTypeLike phrase.symbols
  gives : ∀ after, Stratum.full.EndsAt after → kindAt after 0 ≠ .mark .question →
    Parser.type.Gives reach (phrase.symbols ++ after) after fun type => type.blank = phrase.type

/-- The phrase is read where a type with suffixes is, and more of them are taken from there. -/
def Phrase.TakesSuffixes (reach : Reach TokenStream) (phrase : Phrase) : Prop :=
  ∀ (before after : List Symbol) (Q : Ty → Prop), Stratum.primary.EndsAt before →
    (∀ type : Ty, type.blank = phrase.type →
      Parser.Cycles reach Parser.suffixTurn type before after Q) →
    Parser.suffixedType.Gives reach (phrase.symbols ++ before) after Q

end

namespace Parser

variable [Layout] {reach : Reach TokenStream} {most : Nat} {symbol : Symbol}
  {before after : List Symbol}

/-! ## Arguments -/

namespace Gives

theorem typeArgs_none (h : kindAt after 0 = .mark .openAngle → lineAt after = true) :
    typeArgs.Gives reach after after (· = none) := by
  refine peek_kind.bind fun token ⟨hkind, hline⟩ => ?_
  rw [if_neg (by simpa [hkind] using fun hangle => hline (h hangle))]
  exact .pure rfl

/-- Types with commas between them are read as type arguments. -/
theorem typeArgs_some [Layout.OneLine] (phrases : List Phrase) (hreads : ∀ phrase ∈ phrases, phrase.Reads reach) :
    typeArgs.Gives reach
      (.mark .openAngle :: (commas (phrases.map Phrase.symbols) ++ .mark .closeAngle :: after)) after
      fun args => blankArgs args = some (phrases.map Phrase.type) := by
  refine peek.bind fun token htoken => ?_
  rw [if_pos (by simp [htoken.kind, htoken.sameLine])]
  refine advance.bind fun _ _ => ?_
  refine bind (P := fun types => types.map Ty.blank = phrases.map Phrase.type)
    (commaSeparated phrases (by simp) (fun phrase hphrase => ?_) fun phrase hphrase rest hrest =>
      elementOrStop ((hreads phrase hphrase).gives rest ?_ ?_)) fun args hargs => ?_
  · obtain ⟨first, more, hwrite, hfirst⟩ := (hreads phrase hphrase).like.begins
    exact ⟨first, more, hwrite, Kind.ne_of_beginsPhrase hfirst rfl,
      Kind.ne_of_beginsPhrase hfirst rfl⟩
  · rcases hrest with hrest | hrest <;> exact .of_kindAt hrest rfl
  · rcases hrest with hrest | hrest <;> simp [hrest]
  · have hclose : (Parser.expectOrReport (.mark .closeAngle)).Gives reach
        (.mark .closeAngle :: after) after fun _ => True := expectOrReport rfl
    refine hclose.bind fun _ _ => .pure ?_
    rw [blankArgs, blankTypes_eq_map, hargs]

/-! ## Parameters -/

/-- A word is no modifier of a parameter if no name follows it. -/
theorem modifierTurn_none
    (h : paramModifier? (kindAt after 0) = none ∨ beginsParamName (kindAt after 1) = false) :
    modifierTurn.Gives reach after after fun taken =>
      taken.again = false ∧ taken.result? = none := by
  refine peekKind.known ((kindAhead 1).known ?_)
  split
  · rcases h with h | h
    · simp_all
    · rw [if_neg (by simp [h])]
      exact .pure ⟨rfl, rfl⟩
  · exact .pure ⟨rfl, rfl⟩

theorem paramModifiers_none
    (h : paramModifier? (kindAt after 0) = none ∨ beginsParamName (kindAt after 1) = false) :
    paramModifiers.Gives reach after after (· = .empty) := by
  have hcollect : (collect modifierTurn).Gives reach after after (· = []) :=
    Collects.gives (.last ((modifierTurn_none h).mono fun taken htaken =>
      ⟨htaken.1, by simp [htaken.2]⟩))
  exact hcollect.known (.pure rfl)

theorem bindingName (word : BindingWord) :
    Parser.bindingName.Gives reach (word.symbol :: after) after
      fun name => name.blank = .ident word.ident := by
  obtain ⟨kind, text, hbinds⟩ := word
  refine peekKind.known ?_
  rw [kindAt_zero]
  split
  case h_4 => exact (ident hbinds).bind fun id hid => .pure (by rw [BindingName.blank, hid]; rfl)
  all_goals
    rename_i hkind
    simp [BindingWord.symbol] at hkind
    subst hkind
    exact absurd hbinds (by decide)

/-- A mark is skipped if it was wanted there. -/
theorem skipIf_onlyIf {sign : Mark} (wanted : Bool) (hafter : kindAt after 0 ≠ .mark sign) :
    (Parser.skipIf (.mark sign)).Gives reach (Symbol.onlyIf (.mark sign) wanted ++ after) after
      (· = wanted) := by
  cases wanted with
  | false => exact skipIf_no hafter
  | true => exact skipIf_yes rfl

theorem typeAfter {kind : Kind} (phrase : Phrase) (hkind : symbol.kind = kind)
    (h : Parser.type.Gives reach (phrase.symbols ++ after) after
      fun type => type.blank = phrase.type) :
    (Parser.typeAfter kind).Gives reach (symbol :: (phrase.symbols ++ after)) after
      fun type? => blankOptionalType type? = some phrase.type := by
  refine (skipIf_yes hkind).known (optional (h.mono fun type htype => ?_))
  rw [blankOptionalType, htype]

/-- A parameter is read as it is written. -/
theorem param {phrase : ParamPhrase} (hreads : phrase.declared.Reads reach)
    (hafter : kindAt after 0 = .mark .comma ∨ kindAt after 0 = .mark .closeParen) :
    Parser.param.Gives reach (phrase.symbols ++ after) after
      fun param => param.blank = phrase.param := by
  obtain ⟨rest, name, isOptional, declared⟩ := phrase
  have hends : Stratum.full.EndsAt after := by
    rcases hafter with hafter | hafter <;> exact .of_kindAt hafter rfl
  have hquestion : kindAt after 0 ≠ .mark .question := by
    rcases hafter with hafter | hafter <;> simp [hafter]
  have hequals : kindAt after 0 ≠ .mark .equals := by
    rcases hafter with hafter | hafter <;> simp [hafter]
  simp only [ParamPhrase.symbols, List.append_assoc, List.cons_append]
  refine spanned ((paramModifiers_none ?_).known ?_)
  · cases rest
    · refine .inr ?_
      cases isOptional <;> rfl
    · exact .inl rfl
  refine (skipIf_onlyIf rest ?_).known ((bindingName name).bind fun found hname => ?_)
  · exact kind_ne_of_binds rfl
  refine (skipIf_onlyIf isOptional (by simp)).known ?_
  refine (typeAfter _ rfl (hreads.gives after hends hquestion)).bind fun type? htype => ?_
  refine bind (P := fun _ => True) (peekKind.known ?_) fun _ _ => .pure fun span => ?_
  · rw [if_neg hequals]
    exact .pure trivial
  · simp [Param.blank, ParamPhrase.param, hname, htype]

/-- Parameters in parentheses are read as they are written. -/
theorem params (phrases : List ParamPhrase)
    (hreads : ∀ phrase ∈ phrases, phrase.declared.Reads reach) :
    Parser.params.Gives reach (Starts (.mark .openParen ::
        (commas (phrases.map ParamPhrase.symbols) ++ .mark .closeParen :: after))) after
      fun params => params.map Param.blank = phrases.map ParamPhrase.param := by
  refine (expect_starts rfl).bind fun _ _ => ?_
  refine bind (P := fun params => params.map Param.blank = phrases.map ParamPhrase.param)
    (commaSeparated phrases (by simp) (fun phrase _ => ?_) fun phrase hphrase rest hrest => ?_)
    fun params hparams => ?_
  · obtain ⟨rest, name, isOptional, declared⟩ := phrase
    cases rest
    · exact ⟨_, _, rfl, kind_ne_of_binds rfl, kind_ne_of_binds rfl⟩
    · exact ⟨_, _, rfl, nofun, nofun⟩
  · refine (optional (Q := fun param? => param?.map Param.blank = some phrase.param)
      ((param (hreads phrase hphrase) hrest).mono fun _ hparam => by simp [hparam])).bind
      fun param? hparam => ?_
    obtain ⟨param, rfl, hblank⟩ := Option.map_eq_some_iff.mp hparam
    exact .pure ⟨rfl, by simp [hblank]⟩
  · have hclose : (Parser.expectOrReport (.mark .closeParen)).Gives reach
        (.mark .closeParen :: after) after fun _ => True := expectOrReport rfl
    exact hclose.bind fun _ _ => .pure hparams

/-! ## Functions -/

theorem predicateSubject (h : symbol.kind = .word .this ∨ symbol.kind.isBindingName = true) :
    Parser.predicateSubject.Gives reach (symbol :: after) after fun _ => True := by
  refine peekKind.known ?_
  rw [kindAt_zero]
  split
  · exact advance.bind fun _ _ => .pure trivial
  · rename_i hthis
    exact (ident (h.resolve_left hthis)).bind fun _ _ => .pure trivial

end Gives

/-- The word `is` at the beginning of a line does not make a predicate. -/
theorem predicate_fails (hfirst : symbol.kind.beginsTree = true)
    (hsubject : symbol.kind = .word .this ∨ symbol.kind.isBindingName = true)
    (hline : lineAt after = true) : predicate.Fails reach (symbol :: after) := by
  refine Fails.spanned (Gives.peekKind.bind_fails ?_)
  rintro _ rfl
  refine (Gives.kindAhead 1).bind_fails ?_
  rintro _ rfl
  have hasserts : symbol.kind ≠ .word .asserts := Kind.ne_of_beginsTree hfirst rfl
  rw [if_neg (by simp [hasserts])]
  refine (Gives.predicateSubject hsubject).bind_fails fun _ _ => ?_
  refine Gives.peek_kind.bind_fails fun token htoken => ?_
  rw [if_neg (by simp [htoken.2 hline]), if_neg (by simp)]
  exact fun _ _ => rfl

namespace Gives

/-- What begins like a type is no predicate, for `is` does not follow a name on its line. -/
theorem resultType {Q : Ty → Prop} {symbols : List Symbol} (h : Opening symbols)
    (hafter : Stratum.full.EndsAt after)
    (htype : Parser.type.Gives reach (symbols ++ after) after Q) :
    Parser.resultType.Gives reach (symbols ++ after) after Q := by
  obtain ⟨first, rest, rfl, hfirst⟩ := h.first
  refine peekKind.known ((kindAhead 1).known ?_)
  change Gives reach (if (first.kind = .word .asserts ||
    ((first.kind = .word .this || first.kind.isBindingName) &&
      kindAt (rest ++ after) 0 = .word .is)) = true then _ else _) _ _ _
  have hasserts : first.kind ≠ .word .asserts := Kind.ne_of_beginsTree hfirst rfl
  by_cases hpredicate : (first.kind = .word .this ∨ first.kind.isBindingName = true) ∧
      kindAt (rest ++ after) 0 = .word .is
  · obtain ⟨hsubject, his⟩ := hpredicate
    have hname : first.kind.isName = true := by
      rcases hsubject with hthis | hbinds
      · rw [hthis]
        rfl
      · exact (Bool.and_eq_true_iff.mp hbinds).1
    rw [if_pos (by simpa [hasserts, his] using hsubject)]
    cases rest with
    | nil => exact (attempt_fails (predicate_fails hfirst hsubject (hafter.line rfl his))).known htype
    | cons second rest =>
        have hsecond := h.continues_of_name hname second rfl
        rw [show second.kind = .word .is from his] at hsecond
        contradiction
  · rw [if_neg (by simpa [hasserts] using hpredicate)]
    exact htype

theorem functionTail (phrases : List ParamPhrase) {result : Phrase}
    (hparams : ∀ phrase ∈ phrases, phrase.declared.Reads reach)
    (hresult : Parser.resultType.Gives reach (result.symbols ++ after) after
      fun type => type.blank = result.type) :
    (Parser.functionTail []).Gives reach (.mark .openParen ::
        (commas (phrases.map ParamPhrase.symbols) ++
          .mark .closeParen :: .mark .arrow :: (result.symbols ++ after))) after
      fun function => function.blank = ⟨[], phrases.map ParamPhrase.param, result.type⟩ := by
  refine ((params phrases hparams).weaken fun _ => Heads.starts).bind fun found hfound => ?_
  refine (expect rfl).bind fun _ _ => ?_
  refine hresult.bind fun type htype => .pure ?_
  simp [FunctionTy.blank, blankTypeParams, blankParams_eq_map, hfound, htype]

end Gives

/-! ## What is no function

A type in parentheses is first tried as the parameters of a function. If its beginning can
be a parameter, then the list ends there with neither a comma nor an arrow. -/

/-- The modifiers that a written type seems to begin with leave what begins like one. -/
theorem Collects.modifiers {symbols : List Symbol} (h : Opening symbols)
    (collected : List Modifier) : ∃ rest, Opening rest ∧
      Collects reach modifierTurn collected (symbols ++ after) (rest ++ after) fun _ => True := by
  have hstop {symbols : List Symbol} (collected : List Modifier)
      (hnone : paramModifier? (kindAt (symbols ++ after) 0) = none ∨
        beginsParamName (kindAt (symbols ++ after) 1) = false) :
      Collects reach modifierTurn collected (symbols ++ after) (symbols ++ after) fun _ => True :=
    .last ((Gives.modifierTurn_none hnone).mono fun taken htaken => ⟨htaken.1, trivial⟩)
  induction h generalizing collected with
  | paren hfirst =>
      exact ⟨_, .paren hfirst, hstop _ (.inl (by simp [hfirst, paramModifier?]))⟩
  | group hopening hinside hclosing hrest =>
      refine ⟨_, .group hopening hinside hclosing hrest, hstop _ (.inl ?_)⟩
      rcases hopening with hopening | hopening <;> simp [hopening, paramModifier?]
  | single hfirst hopens hreadonly hrest =>
      refine ⟨_, .single hfirst hopens hreadonly hrest, hstop _ (.inl ?_)⟩
      simp only [List.cons_append, kindAt_zero]
      unfold paramModifier?
      split <;> simp_all [Kind.beginsTree, primitive?]
  | @readonly first rest hfirst hrest ih =>
      by_cases hname : beginsParamName (kindAt (rest ++ after) 0) = true
      · obtain ⟨last, hlast, hcollects⟩ := ih (.readonly :: collected)
        have hturn : modifierTurn.Gives reach (first :: rest ++ after) (rest ++ after)
            fun taken => taken.again = true ∧ taken.result? = some .readonly := by
          refine Gives.peekKind.known ((Gives.kindAhead 1).known ?_)
          simp only [List.cons_append, kindAt_zero, kindAt_succ, hfirst, paramModifier?, hname,
            if_true]
          exact Gives.advance.bind fun _ _ => .pure ⟨rfl, rfl⟩
        refine ⟨last, hlast, .again (P := (· = some .readonly)) hturn (by simp) ?_⟩
        rintro _ rfl
        exact hcollects
      · exact ⟨_, .readonly hfirst hrest, hstop _ (.inr (by simpa using hname))⟩

theorem ident_complains (h : ¬symbol.kind.isBindingName = true) :
    Parser.ident.Complains reach (symbol :: after) := by
  refine Gives.peekKind.bind_complains ?_
  rintro _ rfl
  rw [kindAt_zero, if_neg h]
  exact .refuse

/-- What a written type begins with is no name of a parameter, or it is one after which no
type, initializer or other parameter follows. -/
theorem bindingName_of_opening {symbols : List Symbol} (h : Opening symbols) :
    Parser.bindingName.Complains reach (symbols ++ after) ∨
    ∃ rest, Continues rest ∧
      Parser.bindingName.Gives reach (symbols ++ after) (rest ++ after) fun _ => True := by
  have hname {first : Symbol} {rest : List Symbol} (hrest : Continues rest)
      (hopens : opensGroup first.kind = false) :
      Parser.bindingName.Complains reach (first :: rest ++ after) ∨
      ∃ rest', Continues rest' ∧
        Parser.bindingName.Gives reach (first :: rest ++ after) (rest' ++ after) fun _ => True := by
    by_cases hthis : first.kind = .word .this
    · refine .inr ⟨rest, hrest, Gives.peekKind.known ?_⟩
      simp only [List.cons_append, kindAt_zero, hthis]
      exact Gives.readIdent.bind fun _ _ => .pure trivial
    by_cases hbinds : first.kind.isBindingName = true
    · refine .inr ⟨rest, hrest, ?_⟩
      exact (Gives.bindingName ⟨first.kind, first.text, hbinds⟩).mono fun _ _ => trivial
    · refine .inl (Gives.peekKind.bind_complains ?_)
      rintro _ rfl
      simp only [List.cons_append, kindAt_zero]
      split
      case h_4 => exact (ident_complains hbinds).bind
      all_goals simp_all [opensGroup]
  cases h with
  | paren hfirst =>
      refine .inl (Gives.peekKind.bind_complains ?_)
      rintro _ rfl
      simp only [List.cons_append, kindAt_zero, hfirst]
      exact (ident_complains (by simp [hfirst, Kind.isBindingName, Kind.isName, Kind.isKeyword])).bind
  | @group opening closing inside rest hopening hinside hclosing hrest =>
      refine .inr ⟨rest, hrest, Gives.peekKind.known ?_⟩
      have hopens : opensGroup opening.kind = true := by
        rcases hopening with hopening | hopening <;> simp [hopening, opensGroup]
      have hgroup : Parser.skipGroup.Gives reach (opening :: (inside ++ closing :: (rest ++ after)))
          (rest ++ after) fun _ => True := Gives.skipGroup hopens hinside hclosing
      have hskip : Parser.skipGroup.Gives reach (opening :: (inside ++ closing :: rest) ++ after)
          (rest ++ after) fun _ => Span → True := by simpa using hgroup
      rcases hopening with hopening | hopening
      all_goals
        simp only [List.cons_append, kindAt_zero, hopening]
        exact Gives.spanned hskip
  | single hfirst hopens hreadonly hrest => exact hname hrest hopens
  | readonly hfirst hrest => exact hname hrest.continues (by rw [hfirst]; rfl)

/-- A name with nothing of a parameter after it is one by itself. -/
theorem Gives.param_bare {named : List Symbol}
    (hmodifiers : Parser.paramModifiers.Gives reach before named fun _ => True)
    (hdots : (Parser.skipIf (.mark .ellipsis)).Gives reach named named (· = false))
    (hname : Parser.bindingName.Gives reach named after fun _ => True)
    (hquestion : kindAt after 0 ≠ .mark .question) (hcolon : kindAt after 0 ≠ .mark .colon)
    (hequals : kindAt after 0 ≠ .mark .equals) :
    Parser.param.Gives reach before after fun _ => True := by
  refine spanned (hmodifiers.bind fun modifiers _ => hdots.known (hname.bind fun name _ => ?_))
  refine (skipIf_no hquestion).known ?_
  have hannotation : (Parser.typeAfter (.mark .colon)).Gives reach after after (· = none) :=
    (skipIf_no hcolon).known (.pure rfl)
  have hinitializer : (skipUnsupportedInitializer .parameterInitializer).Gives reach after after
      fun _ => True := by
    refine peekKind.known ?_
    rw [if_neg hequals]
    exact .pure trivial
  exact hannotation.known (hinitializer.bind fun _ _ => .pure fun _ => trivial)

/-- Up to a closing parenthesis, what begins like a type is no parameter, or all that is read
of it as one has neither a type nor an initializer. -/
theorem param_of_opening {symbols : List Symbol} {closing : Symbol} (h : Opening symbols)
    (hclosing : closing.kind = .mark .closeParen) :
    Parser.param.Complains reach (symbols ++ closing :: after) ∨
    ∃ rest, Continues rest ∧ Parser.param.Gives reach (symbols ++ closing :: after)
      (rest ++ closing :: after) fun _ => True := by
  obtain ⟨named, hnamed, hcollects⟩ := Collects.modifiers h []
  have hmodifiers : Parser.paramModifiers.Gives reach (symbols ++ closing :: after)
      (named ++ closing :: after) fun _ => True :=
    (Collects.gives hcollects).bind fun _ _ => .pure trivial
  have hdots : (Parser.skipIf (.mark .ellipsis)).Gives reach (named ++ closing :: after)
      (named ++ closing :: after) (· = false) := by
    obtain ⟨first, rest, rfl, hfirst⟩ := hnamed.first
    exact Gives.skipIf_no (Kind.ne_of_beginsTree hfirst rfl)
  rcases bindingName_of_opening hnamed with hname | ⟨rest, hrest, hname⟩
  · left
    refine Complains.spanned (hmodifiers.bind_complains fun modifiers _ => ?_)
    refine hdots.bind_complains ?_
    rintro _ rfl
    exact hname.bind
  · right
    have hne {kind : Kind} (hkind : kind ≠ .mark .closeParen) (hfollows : kind.followsName = true) :
        kindAt (rest ++ closing :: after) 0 ≠ kind :=
      hrest.kindAt_ne (hclosing ▸ hkind.symm) hfollows
    exact ⟨rest, hrest, .param_bare hmodifiers hdots hname (hne nofun rfl) (hne nofun rfl)
      (hne nofun rfl)⟩

/-- A list of parameters ends after the first of them if no comma follows it. -/
theorem Gives.params_single (hclose : kindAt before 0 ≠ .mark .closeParen)
    (hend : kindAt before 0 ≠ .endOfText)
    (hparam : Parser.param.Gives reach before after fun _ => True)
    (hcomma : kindAt after 0 ≠ .mark .comma) :
    (Parser.commaSeparated (.mark .closeParen) paramTurn).Gives reach before after fun _ => True := by
  have hturn : (Parser.commaTurn (.mark .closeParen) paramTurn).Gives reach before after
      fun taken => taken.again = false ∧ taken.result?.map (fun _ => ()) = some () := by
    refine commaTurn hclose hend ?_ (skipIf_no hcomma)
    exact (optional (Q := fun result? => ∃ result, result? = some result)
      (hparam.mono fun result _ => ⟨result, rfl⟩)).bind fun _ hresult => by
        obtain ⟨result, rfl⟩ := hresult
        exact .pure ⟨rfl, rfl⟩
  exact Collects.gives (.last (hturn.mono fun taken htaken => ⟨htaken.1, trivial⟩))

/-- A list of parameters is broken if after the first of them it neither goes on nor ends. -/
theorem functionTail_of_param {opening : Symbol} (hopening : opening.kind = .mark .openParen)
    (hclose : kindAt before 0 ≠ .mark .closeParen) (hend : kindAt before 0 ≠ .endOfText)
    (hparam : Parser.param.Gives reach before after fun _ => True)
    (hcomma : kindAt after 0 ≠ .mark .comma) (hafter : kindAt after 0 ≠ .mark .closeParen) :
    (functionTail []).Complains reach (opening :: before) := by
  refine Complains.bind ((Gives.expect hopening).bind_complains fun _ _ => ?_)
  refine (Gives.params_single hclose hend hparam hcomma).bind_complains fun _ _ => ?_
  exact (Complains.expectOrReport hafter).bind

/-- In parentheses with no arrow after them, what begins like a type is no function. -/
theorem functionTail_of_opening {symbols : List Symbol} {opening closing : Symbol}
    (h : Opening symbols) (hopening : opening.kind = .mark .openParen)
    (hclosing : closing.kind = .mark .closeParen) (hafter : kindAt after 0 ≠ .mark .arrow) :
    (functionTail []).Complains reach (opening :: (symbols ++ closing :: after)) := by
  obtain ⟨first, more, hsymbols, hfirst⟩ := h.first
  have hclose : kindAt (symbols ++ closing :: after) 0 ≠ .mark .closeParen := by
    simpa [hsymbols] using Kind.ne_of_beginsTree hfirst rfl
  have hend : kindAt (symbols ++ closing :: after) 0 ≠ .endOfText := by
    simpa [hsymbols] using Kind.ne_of_beginsTree hfirst rfl
  rcases param_of_opening h hclosing with hparam | ⟨rest, hrest, hparam⟩
  · refine Complains.bind ((Gives.expect hopening).bind_complains fun _ _ => ?_)
    refine Complains.bind (Complains.collect (Gives.peekKind.bind_complains ?_))
    rintro _ rfl
    rw [if_neg (by simp [hclose, hend])]
    exact hparam.optional.bind.bind
  · have hcomma : kindAt (rest ++ closing :: after) 0 ≠ .mark .comma :=
      hrest.kindAt_ne (by simp [hclosing]) rfl
    cases rest with
    | nil =>
        have hparams : Parser.params.Gives reach (opening :: (symbols ++ closing :: after)) after
            fun _ => True := by
          refine (Gives.expect hopening).bind fun _ _ => ?_
          refine (Gives.params_single hclose hend hparam hcomma).bind fun _ _ => ?_
          exact (Gives.expectOrReport hclosing).bind fun _ _ => .pure trivial
        exact hparams.bind_complains fun _ _ => (Complains.expect hafter).bind
    | cons symbol rest =>
        refine functionTail_of_param hopening hclose hend hparam hcomma fun heq => ?_
        have hsymbol := hrest symbol rfl
        change symbol.kind = .mark .closeParen at heq
        rw [heq] at hsymbol
        contradiction

end Parser

/-! ## Trees as phrases -/

theorem Opening.isTypeLike [Layout] {symbols : List Symbol} (h : Opening symbols) : IsTypeLike symbols where
  begins := by
    obtain ⟨first, rest, hsymbols, hfirst⟩ := h.first
    exact ⟨first, rest, hsymbols, by rw [Kind.beginsPhrase, hfirst, Bool.true_or]⟩
  unlabelled after hname := by
    refine (h.second after hname).imp_left fun hsecond => ⟨?_, ?_⟩
    all_goals
      intro heq
      rw [heq] at hsecond
      contradiction
  noFunction _ _ hafter := Parser.functionTail_of_opening h rfl rfl hafter

def TypeTree.phrase {stratum : Stratum} (tree : TypeTree stratum) : Phrase :=
  ⟨tree.write, tree.type⟩

@[simp] theorem TypeTree.symbols_phrase {stratum : Stratum} (tree : TypeTree stratum) :
    tree.phrase.symbols = tree.write := rfl

theorem TypeTree.symbols_phrases {stratum : Stratum} (trees : List (TypeTree stratum)) :
    (trees.map phrase).map Phrase.symbols = trees.map write := by
  rw [List.map_map]
  rfl

theorem TypeTree.types_phrases {stratum : Stratum} (trees : List (TypeTree stratum)) :
    (trees.map phrase).map Phrase.type = trees.map type := by
  rw [List.map_map]
  rfl

theorem ReadsTypes.phrase [Layout] {reach : Reach TokenStream} {most : Nat}
    (hreads : ReadsTypes reach most) (tree : TypeTree .full) (hlength : tree.write.length ≤ most) :
    tree.phrase.Reads reach where
  like := tree.opening_write.isTypeLike
  gives after hafter _ := hreads.type tree after hlength hafter

def ParamTree.phrase (tree : ParamTree) : ParamPhrase :=
  ⟨tree.rest, tree.name, tree.optional, tree.annotation.phrase⟩

theorem ParamTree.symbols_phrases (trees : List ParamTree) :
    (trees.map phrase).map ParamPhrase.symbols = trees.map write := by
  rw [List.map_map]
  exact List.map_congr_left fun ⟨_, _, _, _⟩ _ => rfl

theorem ParamTree.param_phrases (trees : List ParamTree) :
    (trees.map phrase).map ParamPhrase.param = trees.map param := by
  rw [List.map_map]
  exact List.map_congr_left fun ⟨_, _, _, _⟩ _ => rfl

theorem ParamPhrase.length_declared (phrase : ParamPhrase) :
    phrase.declared.symbols.length ≤ phrase.symbols.length := by
  simp only [symbols, List.length_append, List.length_cons]
  omega

theorem ReadsTypes.phrases [Layout] {reach : Reach TokenStream} {most : Nat}
    (hreads : ReadsTypes reach most) {trees : List (TypeTree .full)}
    (hlength : ∀ tree ∈ trees, tree.write.length ≤ most) :
    ∀ phrase ∈ trees.map TypeTree.phrase, phrase.Reads reach :=
  List.forall_mem_map.mpr fun tree htree => hreads.phrase tree (hlength tree htree)

/-- The types of parameters are read if the list has few enough symbols. -/
theorem ReadsTypes.declared [Layout] {reach : Reach TokenStream} {most : Nat}
    (hreads : ReadsTypes reach most) {params : List ParamPhrase}
    (hlength : (commas (params.map ParamPhrase.symbols)).length ≤ most)
    {trees : List ParamTree} (htrees : ∀ tree ∈ trees, tree.phrase ∈ params) :
    ∀ param ∈ trees.map ParamTree.phrase, param.declared.Reads reach := by
  refine List.forall_mem_map.mpr fun tree htree => hreads.phrase tree.annotation ?_
  have hparam : tree.phrase.symbols.length ≤ (commas (params.map ParamPhrase.symbols)).length :=
    length_le_commas (List.mem_map_of_mem (htrees tree htree))
  exact (tree.phrase.length_declared.trans hparam).trans hlength

end DeclFile

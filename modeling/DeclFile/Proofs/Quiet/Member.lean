import DeclFile.Parser.Member
import DeclFile.Proofs.MemberTree
import DeclFile.Proofs.Quiet.Function

/-! # Reading members without a word

The words `readonly`, `get`, `set` and `new` may be names of members. They are if what follows them
annotates a member, and otherwise they say something of the member after them.
-/

namespace DeclFile

namespace Kind

/-- The kinds of tokens that begin the name of a member. -/
def beginsKey (kind : Kind) : Bool :=
  kind.isName || kind == .stringLiteral || kind == .numberLiteral || kind == .privateName ||
    kind == .mark .openBracket

/-- The kinds of tokens in front of which a word is the name of a member, and no modifier. -/
def followsKey : Kind → Bool
  | .mark .colon | .mark .question | .mark .openParen | .mark .openAngle | .mark .equals
  | .mark .bang | .mark .semicolon | .mark .comma | .mark .closeBrace | .endOfText => true
  | _ => false

theorem followsKey_of_beginsKey {kind : Kind} (h : kind.beginsKey = true) :
    kind.followsKey = false := by
  unfold followsKey
  split <;> simp_all [beginsKey, isName, isKeyword]

theorem beginsKey_of_followsKey {kind : Kind} (h : kind.followsKey = true) :
    kind.beginsKey = false := by
  cases hbegins : kind.beginsKey with
  | false => rfl
  | true =>
      rw [followsKey_of_beginsKey hbegins] at h
      contradiction

end Kind

/-- Dropping the marks of a private name leaves it as it is given. -/
theorem KeyTree.dropWhile_mark {name : String} (h : name.toList.head? ≠ some '#') :
    ("#" ++ name).toList.dropWhile (· == '#') = name.toList := by
  rw [String.toList_append]
  cases hchars : name.toList with
  | nil => rfl
  | cons first rest =>
      have hfirst : first ≠ '#' := by simpa [hchars] using h
      simp [hfirst]

theorem Parser.opensSignature_of_beginsKey {kind : Kind} (h : kind.beginsKey = true) :
    opensSignature kind = false := by
  cases hopens : opensSignature kind with
  | false => rfl
  | true =>
      rcases Bool.or_eq_true_iff.mp hopens with hkind | hkind
      all_goals
        rw [beq_iff_eq.mp hkind] at h
        contradiction

theorem KeyTree.beginsKey_first (key : KeyTree) : key.first.kind.beginsKey = true := by
  cases key with
  | word found => simp [first, NameWord.symbol, Kind.beginsKey, found.names]
  | string | number | privateName | computed => rfl

namespace Parser

variable [Layout] {reach : Reach TokenStream} {symbol next : Symbol}
  {before after symbols : List Symbol}

/-! ## Names -/

namespace Gives

theorem keyExpr (tree : ComputedTree) :
    Parser.keyExpr.Gives reach (tree.write ++ .mark .closeBracket :: after)
      (.mark .closeBracket :: after : List Symbol) fun expr => expr.blank = tree.expr := by
  refine peekKind.known ?_
  cases tree with
  | string value =>
      exact advance.bind fun token htoken => .pure (by simp [KeyExpr.blank, ComputedTree.expr, htoken.text])
  | number digits =>
      exact advance.bind fun token htoken => .pure (by simp [KeyExpr.blank, ComputedTree.expr, htoken.text])
  | name first rest =>
      have hname : first.symbol.kind.isName = true := first.names
      have hnames : ∀ segment ∈ rest.map NameWord.symbol, segment.kind.isName = true :=
        List.forall_mem_map.mpr fun segment _ => segment.names
      simp only [ComputedTree.write, List.cons_append, kindAt_zero]
      split
      · rename_i hkind
        simp [hkind, Kind.isName, Kind.isKeyword] at hname
      · rename_i hkind
        simp [hkind, Kind.isName, Kind.isKeyword] at hname
      · rw [if_pos hname]
        refine spanned (readIdent.bind fun id hid => ?_)
        refine (moreSegments _ hnames (by simp)).bind fun more hmore => .pure fun span => ?_
        simp [KeyExpr.blank, EntityName.blank, ComputedTree.expr, hid, hmore, NameWord.symbol]

theorem propertyName (key : KeyTree) :
    Parser.propertyName.Gives reach (Starts (key.write ++ after)) after
      fun name => name.blank = key.name := by
  refine peek_starts.bind fun token htoken => ?_
  rw [htoken.kind]
  cases key with
  | string value =>
      refine advance_starts.bind fun _ _ => .pure ?_
      simp [PropertyName.blank, StringLit.blank, KeyTree.name, htoken.text, KeyTree.first]
  | number digits =>
      refine advance_starts.bind fun _ _ => .pure ?_
      simp [PropertyName.blank, KeyTree.name, htoken.text, KeyTree.first]
  | privateName name unmarked =>
      refine advance_starts.bind fun _ _ => .pure ?_
      have hname : String.ofList (("#" ++ name).toList.dropWhile (· == '#')) = name := by
        rw [KeyTree.dropWhile_mark unmarked, String.ofList_toList]
      rw [htoken.text]
      exact congrArg (fun name => PropertyName.privateName ⟨name, default⟩) hname
  | computed expr =>
      refine spanned (advance_starts.bind fun _ _ => ?_)
      have hwrite : (expr.write ++ [.mark .closeBracket]) ++ after =
          expr.write ++ .mark .closeBracket :: after := by simp
      change Gives reach _ (Heads ((expr.write ++ [.mark .closeBracket]) ++ after)) _ _
      rw [hwrite]
      refine (keyExpr expr).bind fun found hfound => (expect rfl).bind fun _ _ => .pure fun span => ?_
      simp [PropertyName.blank, KeyTree.name, hfound]
  | word found =>
      have hname : found.symbol.kind.isName = true := found.names
      change Gives reach _ (Starts (found.symbol :: ([] ++ after))) _ _
      simp only [KeyTree.first]
      split
      case h_5 =>
        rw [if_pos hname]
        refine (advance_starts.bind fun token htoken => .pure ?_).bind (P := fun ident =>
          ident.blank = ⟨found.text, default⟩) fun ident hident => .pure ?_
        · simp [Ident.blank, htoken.text, NameWord.symbol]
        · rw [PropertyName.blank, hident, KeyTree.name]
      all_goals
        rename_i hkind
        simp [hkind, Kind.isName, Kind.isKeyword] at hname

end Gives

/-- What does not begin the name of a member is refused where one must stand. -/
theorem propertyName_complains (h : (kindAt symbols 0).beginsKey = false) :
    Parser.propertyName.Complains reach symbols := by
  refine Gives.peek_kind.bind_complains fun token ⟨hkind, _⟩ => ?_
  rw [← hkind] at h
  split
  case h_5 =>
    rw [if_neg]
    · exact .refuse
    · intro hname
      simp [Kind.beginsKey, hname] at h
  all_goals
    rename_i heq
    simp [heq, Kind.beginsKey] at h

/-! ## What the first words are -/

namespace Gives

theorem modifierFollowed [Layout.OneLine] :
    Parser.modifierFollowed.Gives reach (Starts (symbol :: next :: symbols))
      (Starts (symbol :: next :: symbols)) (· = !next.kind.followsKey) := by
  refine look_starts.bind fun token htoken => .pure ?_
  rw [htoken.kind, htoken.sameLine]
  generalize next.kind = kind
  unfold Kind.followsKey
  split <;> simp_all

end Gives

/-- A computed name is no index signature. -/
theorem indexHead_complains (tree : ComputedTree) :
    indexHead.Complains reach
      (Starts (.mark .openBracket :: (tree.write ++ .mark .closeBracket :: after))) := by
  refine (Gives.expect_starts rfl).bind_complains fun _ _ => ?_
  cases tree with
  | string value =>
      exact Complains.bind (ident_complains Bool.false_ne_true)
  | number digits =>
      exact Complains.bind (ident_complains Bool.false_ne_true)
  | name first rest =>
      by_cases hbinds : first.symbol.kind.isBindingName = true
      · refine (Gives.ident hbinds).bind_complains fun _ _ => (Complains.expect ?_).bind
        cases rest <;> simp
      · exact (ident_complains hbinds).bind

/-- The words `get` and `set` are no accessors in front of what begins no name. -/
theorem accessorHead_complains [Layout.OneLine] (h : next.kind.beginsKey = false) :
    accessorHead.Complains reach (Starts (symbol :: next :: symbols)) := by
  refine Gives.advance_starts.bind_complains fun _ _ => ?_
  have hline : atLineStart.Gives reach (next :: symbols) (next :: symbols) (· = false) :=
    Gives.peek.bind fun token htoken => .pure htoken.sameLine
  refine hline.bind_complains ?_
  rintro _ rfl
  rw [if_neg Bool.false_ne_true]
  exact Complains.bind (propertyName_complains h)

namespace Gives

theorem indexSignature?_none {readonly : Bool} (key : KeyTree) :
    (indexSignature? readonly).Gives reach (Starts (key.write ++ after)) (Starts (key.write ++ after))
      (· = none) := by
  refine peekKind_starts.known ?_
  cases key with
  | computed tree =>
      have hwrite : (KeyTree.computed tree).write ++ after =
          .mark .openBracket :: (tree.write ++ .mark .closeBracket :: after) := by
        simp [KeyTree.write, KeyTree.first, KeyTree.rest]
      rw [hwrite, if_pos (by simp)]
      exact (attempt_complains (indexHead_complains tree)).known (.pure rfl)
  | word found =>
      rw [if_neg]
      · exact .pure rfl
      · intro heq
        have hnames := found.names
        change found.kind = .mark .openBracket at heq
        simp [heq, Kind.isName, Kind.isKeyword] at hnames
  | string | number | privateName =>
      rw [if_neg (by exact Kind.noConfusion)]
      exact .pure rfl

/-- A name with what annotates it is no accessor. -/
theorem accessor?_none [Layout.OneLine] (key : KeyTree) (h : next.kind.beginsKey = false) :
    Parser.accessor?.Gives reach (Starts (key.write ++ next :: symbols))
      (Starts (key.write ++ next :: symbols)) (· = none) := by
  refine peekKind_starts.known ?_
  cases key with
  | word found =>
      split
      · exact (attempt_complains (accessorHead_complains h)).known (.pure rfl)
      · exact .pure rfl
  | string | number | privateName | computed => exact .pure rfl

/-! ## Members with names -/

/-- A signature without type parameters is read as it is written. -/
theorem signature {most : Nat} (hreads : ReadsTypes reach most) (tree : SignatureTree)
    (hlength : tree.write.length ≤ most) (hafter : Stratum.full.EndsAt after) :
    Parser.signature.Gives reach (Starts (tree.write ++ after)) after
      fun signature => signature.blank = tree.signature := by
  obtain ⟨params, result⟩ := tree
  have hwrite : (SignatureTree.mk params result).write ++ after = .mark .openParen ::
      (commas ((params.map ParamTree.phrase).map ParamPhrase.symbols) ++
        .mark .closeParen :: .mark .colon :: (result.write ++ after)) := by
    rw [ParamTree.symbols_phrases]
    simp [SignatureTree.write]
  simp only [SignatureTree.write, List.length_cons, List.length_append] at hlength
  have hparams : ∀ param ∈ params.map ParamTree.phrase, param.declared.Reads reach := by
    have hcommas : (commas ((params.map ParamTree.phrase).map ParamPhrase.symbols)).length ≤ most := by
      rw [ParamTree.symbols_phrases]
      omega
    exact hreads.declared hcommas fun tree => List.mem_map_of_mem
  have hresult : Parser.resultType.Gives reach (result.write ++ after) after
      fun type => type.blank = result.type :=
    resultType result.opening_write hafter (hreads.type result after (by omega) hafter)
  have hnone : Parser.typeParams.Gives reach (Starts ((SignatureTree.mk params result).write ++ after))
      (Starts ((SignatureTree.mk params result).write ++ after)) (· = []) :=
    (skipIf_starts (by rw [hwrite]; exact nofun)).known (.pure rfl)
  refine hnone.known ?_
  rw [hwrite]
  refine (Gives.params _ hparams).bind fun found hfound => (skipIf_yes rfl).known ?_
  rw [ParamTree.param_phrases] at hfound
  refine (optional (Q := fun type? => blankOptionalType type? = some result.type)
    (hresult.mono fun type htype => by simp [htype])).bind fun type? htype => .pure ?_
  simp [SignatureTree.signature, blankParams_eq_map, hfound, htype]

theorem namedMember_property (readonly : Bool) (key : KeyTree) (isOptional : Bool)
    (declared : Phrase) (htype : Parser.type.Gives reach (declared.symbols ++ after) after
      fun type => type.blank = declared.type) :
    (namedMember readonly).Gives reach (Starts (key.write ++
        (Symbol.onlyIf (.mark .question) isOptional ++ .mark .colon :: (declared.symbols ++ after))))
      after fun kind => kind.blank = .property key.name isOptional readonly (some declared.type) := by
  refine (propertyName key).bind fun name hname => ?_
  refine (skipIf_onlyIf isOptional (by simp)).known (peekKind.known ?_)
  rw [if_neg (by exact Bool.false_ne_true)]
  refine (typeAfter declared rfl htype).bind fun type? htype? => .pure ?_
  simp [hname, htype?]

theorem namedMember_method (readonly : Bool) (key : KeyTree) (isOptional : Bool) {tree : SignatureTree}
    (hsignature : Parser.signature.Gives reach (Starts (tree.write ++ after)) after
      fun signature => signature.blank = tree.signature) :
    (namedMember readonly).Gives reach (Starts (key.write ++
        (Symbol.onlyIf (.mark .question) isOptional ++ (tree.write ++ after)))) after
      fun kind => kind.blank = .method key.name isOptional tree.signature := by
  refine (propertyName key).bind fun name hname => ?_
  refine (skipIf_onlyIf isOptional (by exact nofun)).known (peekKind.known ?_)
  rw [if_pos (by rfl)]
  refine (hsignature.weaken fun _ => Heads.starts).bind fun found hfound => .pure ?_
  simp [hname, hfound]

/-! ## Index signatures and accessors -/

theorem indexSignature?_some {readonly : Bool} (name : BindingWord) {keyType declared : TypeTree .full}
    (hkey : ∀ rest, kindAt rest 0 = .mark .closeBracket →
      Parser.type.Gives reach (keyType.write ++ rest) rest fun type => type.blank = keyType.type)
    (htype : Parser.type.Gives reach (declared.write ++ after) after
      fun type => type.blank = declared.type) :
    (indexSignature? readonly).Gives reach (Starts (.mark .openBracket :: name.symbol :: .mark .colon ::
        (keyType.write ++ .mark .closeBracket :: .mark .colon :: (declared.write ++ after)))) after
      fun index? => ∃ index, index? = some index ∧
        index.blank = ⟨readonly, name.ident, keyType.type, declared.type⟩ := by
  refine peekKind_starts.known ?_
  rw [if_pos (by simp)]
  have hhead : indexHead.Gives reach (Starts (.mark .openBracket :: name.symbol :: .mark .colon ::
      (keyType.write ++ .mark .closeBracket :: .mark .colon :: (declared.write ++ after))))
      (.mark .colon :: (declared.write ++ after) : List Symbol)
      fun found => found.1.blank = name.ident ∧ found.2.blank = keyType.type := by
    refine (expect_starts rfl).bind fun _ _ => (ident name.binds).bind fun id hid => ?_
    refine (expect rfl).bind fun _ _ => (hkey _ rfl).bind fun type htype => ?_
    exact (expect rfl).bind fun _ _ => .pure ⟨hid, htype⟩
  refine (attempt (Q := fun found? => ∃ found, found? = some found ∧
    found.1.blank = name.ident ∧ found.2.blank = keyType.type)
    (hhead.mono fun found hfound => ⟨found, rfl, hfound⟩)).bind ?_
  rintro _ ⟨⟨id, found⟩, rfl, hid, hfound⟩
  refine (expect rfl).bind fun _ _ => htype.bind fun type htype => .pure ⟨_, rfl, ?_⟩
  simp only [IndexSignature.blank, hid, hfound, htype]

/-- The word and the name of an accessor. -/
theorem accessorHead [Layout.OneLine] (key : KeyTree) (isGetter : Bool)
    (hword : symbol.kind = if isGetter then .word .get else .word .set) :
    Parser.accessorHead.Gives reach (Starts (symbol :: (key.write ++ .mark .openParen :: after)))
      (.mark .openParen :: after : List Symbol)
      fun found => found.1 = isGetter ∧ found.2.blank = key.name := by
  refine advance_starts.bind fun word hword' => ?_
  have hline : atLineStart.Gives reach (key.write ++ .mark .openParen :: after)
      (key.write ++ .mark .openParen :: after : List Symbol) (· = false) :=
    Gives.peek.bind fun token htoken => .pure htoken.sameLine
  refine hline.known ?_
  rw [if_neg Bool.false_ne_true]
  refine ((propertyName key).weaken fun _ => Heads.starts).bind fun name hname => peekKind.known ?_
  rw [if_pos (by simp)]
  refine .pure ⟨?_, hname⟩
  rw [hword'.kind, hword]
  cases isGetter <;> rfl

/-- An accessor is read with what stands in its parentheses. -/
theorem accessor?_some [Layout.OneLine] {Q : Option Accessor → Prop} (key : KeyTree) (isGetter : Bool)
    (hrest : ∀ name : PropertyName, name.blank = key.name →
      (if isGetter then getterRest name else setterRest name).Gives reach
        (.mark .openParen :: before) after fun accessor => Q (some accessor)) :
    Parser.accessor?.Gives reach (Starts (.word (if isGetter then .get else .set) :: (key.write ++
        .mark .openParen :: before))) after Q := by
  refine peekKind_starts.known ?_
  rw [if_pos (by cases isGetter <;> simp)]
  have hword : (Symbol.word (if isGetter then .get else .set)).kind =
      if isGetter then .word .get else .word .set := by
    cases isGetter <;> rfl
  refine (attempt (Q := fun found? => ∃ name : PropertyName, found? = some (isGetter, name) ∧
    name.blank = key.name) ((accessorHead key isGetter hword).mono fun found hfound =>
      ⟨found.2, by rw [← hfound.1], hfound.2⟩)).bind ?_
  rintro _ ⟨name, rfl, hname⟩
  exact map (hrest name hname)

theorem getterRest {name : PropertyName} {result : TypeTree .full}
    (htype : Parser.type.Gives reach (result.write ++ after) after
      fun type => type.blank = result.type) :
    (Parser.getterRest name).Gives reach
      (.mark .openParen :: .mark .closeParen :: .mark .colon :: (result.write ++ after) : List Symbol)
      after fun accessor => ∃ type?, accessor = .getter name type? ∧
        blankOptionalType type? = some result.type := by
  have hnone : Parser.params.Gives reach
      (Starts (.mark .openParen :: .mark .closeParen :: .mark .colon :: (result.write ++ after)))
      (.mark .colon :: (result.write ++ after) : List Symbol) (· = []) :=
    (Gives.params [] (by simp)).mono fun found hfound => List.map_eq_nil_iff.mp hfound
  refine (withSpan (Q := fun found => found.1 = []) ((hnone.weaken fun _ => Heads.starts).mono
    fun found hfound _ => hfound)).bind ?_
  rintro ⟨_, span⟩ rfl
  refine (typeAfter result.phrase rfl htype).bind fun type? htype? => .pure ?_
  exact ⟨type?, rfl, htype?⟩

theorem setterRest {name : PropertyName} {param : ParamTree}
    (hreads : param.phrase.declared.Reads reach) (hafter : kindAt after 0 ≠ .mark .colon) :
    (Parser.setterRest name).Gives reach
      (.mark .openParen :: (param.write ++ .mark .closeParen :: after) : List Symbol)
      after fun accessor => ∃ found, accessor = .setter name found ∧ found.blank = param.param := by
  have hphrases : ∀ phrase ∈ [param].map ParamTree.phrase, phrase.declared.Reads reach := by
    simpa using hreads
  have hparams : Parser.params.Gives reach _ after _ := Gives.params _ hphrases
  have hsymbols : commas ([param].map ParamTree.write) ++ .mark .closeParen :: after =
      param.write ++ .mark .closeParen :: after := by
    simp [commas, markEach]
  rw [ParamTree.symbols_phrases, ParamTree.param_phrases, hsymbols] at hparams
  have hsingle := hparams.mono fun found hfound => List.map_eq_singleton_iff.mp hfound
  refine (withSpan (Q := fun found => ∃ other, found.1 = [other] ∧ other.blank = param.param)
    ((hsingle.weaken fun _ => Heads.starts).mono fun found hfound _ => hfound)).bind ?_
  rintro ⟨_, span⟩ ⟨found, rfl, hblank⟩
  refine peekKind.known ?_
  rw [if_neg hafter]
  exact .pure ⟨found, rfl, hblank⟩

end Gives

/-! ## Members -/

/-- The member that an accessor is. -/
def Accessor.kind : Accessor → MemberKind
  | .getter key result => .getter key result
  | .setter key param => .setter key param

/-- A member that is no signature, after `readonly` or without it. -/
def keyedRest (readonly : Bool) : Parser MemberKind := do
  match ← indexSignature? readonly with
  | some index => return .index index
  | none =>
    match ← accessor? with
    | some (.getter key result) => return .getter key result
    | some (.setter key param) => return .setter key param
    | none => namedMember readonly

namespace Gives

/-- The word `readonly` is a modifier in front of a name, and a name in front of what follows one. -/
theorem keyedMember [Layout.OneLine] {Q : MemberKind → Prop} (readonly : Bool)
    (hmodifier : readonly = true → symbol.kind.followsKey = false)
    (hname : readonly = false → symbol.kind = .word .readonly → next.kind.followsKey = true)
    (hrest : (keyedRest readonly).Gives reach (Starts (symbol :: next :: symbols)) after Q) :
    Parser.keyedMember.Gives reach
      (Starts (Symbol.onlyIf (.word .readonly) readonly ++ symbol :: next :: symbols)) after Q := by
  refine peekKind_starts.known ?_
  cases readonly with
  | true =>
      refine modifierFollowed.known ?_
      rw [hmodifier rfl]
      simp only [Symbol.onlyIf, if_true, List.cons_append, List.nil_append, kindAt_zero,
        Symbol.kind_word, decide_true, Bool.not_false, Bool.and_self]
      exact advance_starts.bind fun _ _ => hrest.weaken fun _ => Heads.starts
  | false =>
      refine modifierFollowed.known ?_
      have hnone : (decide (symbol.kind = .word .readonly) && !next.kind.followsKey) = false := by
        by_cases h : symbol.kind = .word .readonly
        · simp [hname rfl h]
        · simp [h]
      simp only [Symbol.onlyIf, Bool.false_eq_true, if_false, List.nil_append, kindAt_zero, hnone]
      exact hrest

/-- What has a name and is no accessor is a property or method. -/
theorem keyedRest_named [Layout.OneLine] {Q : MemberKind → Prop} {readonly : Bool} (key : KeyTree)
    (hnext : next.kind.beginsKey = false)
    (hrest : (namedMember readonly).Gives reach (Starts (key.write ++ next :: symbols)) after Q) :
    (keyedRest readonly).Gives reach (Starts (key.write ++ next :: symbols)) after Q :=
  (indexSignature?_none key).known ((accessor?_none key hnext).known hrest)

/-- A name may be `readonly` itself. -/
theorem keyedMember_named [Layout.OneLine] {Q : MemberKind → Prop} (readonly : Bool) (key : KeyTree)
    (hnext : next.kind.followsKey = true)
    (hrest : (namedMember readonly).Gives reach (Starts (key.write ++ next :: symbols)) after Q) :
    Parser.keyedMember.Gives reach
      (Starts (Symbol.onlyIf (.word .readonly) readonly ++ (key.write ++ next :: symbols))) after Q := by
  have hkeyed := keyedRest_named key (Kind.beginsKey_of_followsKey hnext) hrest
  have hfirst : key.first.kind.followsKey = false := Kind.followsKey_of_beginsKey key.beginsKey_first
  cases key with
  | word found => exact keyedMember readonly (fun _ => hfirst) (fun _ _ => hnext) hkeyed
  | string | number | privateName => exact keyedMember readonly (fun _ => hfirst) (fun _ => nofun) hkeyed
  | computed expr =>
      obtain ⟨first, rest, hexpr⟩ : ∃ first rest, expr.write ++ [.mark .closeBracket] = first :: rest :=
        List.exists_cons_of_ne_nil (by simp)
      have hwrite : (KeyTree.computed expr).write ++ next :: symbols =
          .mark .openBracket :: first :: (rest ++ next :: symbols) := by
        simp only [KeyTree.write, KeyTree.first, KeyTree.rest, hexpr, List.cons_append]
      rw [hwrite] at hkeyed ⊢
      exact keyedMember readonly (fun _ => rfl) (fun _ => nofun) hkeyed

theorem keyedMember_index [Layout.OneLine] (readonly : Bool) (name : BindingWord)
    {keyType declared : TypeTree .full}
    (hkey : ∀ rest, kindAt rest 0 = .mark .closeBracket →
      Parser.type.Gives reach (keyType.write ++ rest) rest fun type => type.blank = keyType.type)
    (htype : Parser.type.Gives reach (declared.write ++ after) after
      fun type => type.blank = declared.type) :
    Parser.keyedMember.Gives reach (Starts (Symbol.onlyIf (.word .readonly) readonly ++
        .mark .openBracket :: name.symbol :: .mark .colon ::
          (keyType.write ++ .mark .closeBracket :: .mark .colon :: (declared.write ++ after)))) after
      fun kind => kind.blank = .index ⟨readonly, name.ident, keyType.type, declared.type⟩ := by
  refine keyedMember readonly (fun _ => rfl) (fun _ => nofun) ?_
  refine (indexSignature?_some name hkey htype).bind ?_
  rintro _ ⟨index, rfl, hindex⟩
  exact .pure (by simp [hindex])

theorem keyedMember_accessor [Layout.OneLine] {Q : MemberKind → Prop} (key : KeyTree) (isGetter : Bool)
    (hrest : ∀ name : PropertyName, name.blank = key.name →
      (if isGetter then Parser.getterRest name else Parser.setterRest name).Gives reach
        (.mark .openParen :: before) after fun accessor => Q accessor.kind) :
    Parser.keyedMember.Gives reach (Starts (.word (if isGetter then .get else .set) :: (key.write ++
        .mark .openParen :: before))) after Q := by
  have hkeyed : (keyedRest false).Gives reach (Starts (.word (if isGetter then .get else .set) ::
      (key.write ++ .mark .openParen :: before))) after Q := by
    let word : KeyTree := .word ⟨.word (if isGetter then .get else .set),
      Keyword.spelling (if isGetter then .get else .set), by cases isGetter <;> rfl⟩
    have hsome := accessor?_some (Q := fun accessor? => ∃ accessor, accessor? = some accessor ∧
      Q accessor.kind) key isGetter fun name hname =>
        (hrest name hname).mono fun accessor h => ⟨accessor, rfl, h⟩
    refine known (indexSignature?_none word) (hsome.bind ?_)
    rintro _ ⟨accessor, rfl, hQ⟩
    cases accessor <;> exact .pure hQ
  exact keyedMember false nofun (fun _ => by cases isGetter <;> exact nofun) hkeyed

/-- A member is no signature unless it begins like one, perhaps after `new`. -/
theorem member_keyed {kind : MemberKind} (hfirst : opensSignature (kindAt symbols 0) = false)
    (hnew : kindAt symbols 0 = .word .new → opensSignature (kindAt symbols 1) = false)
    (hkeyed : Parser.keyedMember.Gives reach (Starts symbols) after fun found => found.blank = kind) :
    Parser.member.Gives reach (Starts symbols) after fun member => member.blank = ⟨kind, default⟩ := by
  refine spanned (peekKind_starts.known ((kindAhead_starts 1).known ?_))
  rw [hfirst, if_neg Bool.false_ne_true, if_neg]
  · exact hkeyed.mono fun found hfound span => by simp [hfound]
  · intro h
    obtain ⟨hword, hopens⟩ := Bool.and_eq_true_iff.mp h
    simp [hnew (of_decide_eq_true hword)] at hopens

/-- A name may be `new` itself, unless a signature follows. -/
theorem member_named [Layout.OneLine] {kind : MemberKind} (readonly : Bool) (key : KeyTree)
    (hnext : next.kind.followsKey = true)
    (hnew : key.first.kind = .word .new → opensSignature next.kind = false)
    (hnamed : (namedMember readonly).Gives reach (Starts (key.write ++ next :: symbols)) after
      fun found => found.blank = kind) :
    Parser.member.Gives reach
      (Starts (Symbol.onlyIf (.word .readonly) readonly ++ (key.write ++ next :: symbols))) after
      fun member => member.blank = ⟨kind, default⟩ := by
  refine member_keyed ?_ ?_ (keyedMember_named readonly key hnext hnamed)
  · cases readonly with
    | true => rfl
    | false => exact opensSignature_of_beginsKey key.beginsKey_first
  · cases readonly with
    | true => exact nofun
    | false =>
        cases key with
        | word found => exact hnew
        | string | number | privateName | computed => exact nofun

/-- The members of an interface are read as they are written. -/
theorem member [Layout.OneLine] {most : Nat} (hreads : ReadsTypes reach most) (tree : MemberTree)
    (hlength : tree.write.length ≤ most) (hafter : Stratum.full.EndsAt after)
    (hcolon : kindAt after 0 ≠ .mark .colon) :
    Parser.member.Gives reach (Starts (tree.write ++ after)) after
      fun member => member.blank = tree.member := by
  have htype (declared : TypeTree .full) (hless : declared.write.length ≤ tree.write.length) :
      Parser.type.Gives reach (declared.write ++ after) after
        fun type => type.blank = declared.type :=
    hreads.type declared after (hless.trans hlength) hafter
  have hsignature (signature : SignatureTree) (hless : signature.write.length ≤ tree.write.length) :
      Parser.signature.Gives reach (Starts (signature.write ++ after)) after
        fun found => found.blank = signature.signature :=
    Gives.signature hreads signature (hless.trans hlength) hafter
  cases tree with
  | property readonly key isOptional declared =>
      have hwrite : (MemberTree.property readonly key isOptional declared).write ++ after =
          Symbol.onlyIf (.word .readonly) readonly ++ (key.write ++
            (Symbol.onlyIf (.mark .question) isOptional ++ .mark .colon :: (declared.write ++ after))) := by
        simp [MemberTree.write]
      have hnamed := namedMember_property readonly key isOptional declared.phrase
        (htype declared (by simp [MemberTree.write]; omega))
      rw [hwrite]
      cases isOptional <;> exact member_named readonly key rfl (fun _ => rfl) hnamed
  | method key isOptional signature distinct =>
      have hwrite : (MemberTree.method key isOptional signature distinct).write ++ after =
          key.write ++ (Symbol.onlyIf (.mark .question) isOptional ++ (signature.write ++ after)) := by
        simp [MemberTree.write]
      have hnamed := namedMember_method false key isOptional
        (hsignature signature (by simp [MemberTree.write]; omega))
      rw [hwrite]
      cases isOptional with
      | true => exact member_named false key rfl (fun _ => rfl) hnamed
      | false =>
          exact member_named false key rfl (fun hnew => absurd (distinct hnew) Bool.false_ne_true) hnamed
  | getter key result =>
      have hwrite : (MemberTree.getter key result).write ++ after = .word .get :: (key.write ++
          .mark .openParen :: .mark .closeParen :: .mark .colon :: (result.write ++ after)) := by
        simp [MemberTree.write]
      have hresult := htype result (by simp [MemberTree.write]; omega)
      rw [hwrite]
      refine member_keyed rfl nofun (keyedMember_accessor key true fun name hname => ?_)
      refine (Gives.getterRest hresult).mono ?_
      rintro _ ⟨type?, rfl, htype?⟩
      simp [Accessor.kind, MemberTree.kind, hname, htype?]
  | setter key param =>
      have hwrite : (MemberTree.setter key param).write ++ after = .word .set :: (key.write ++
          .mark .openParen :: (param.write ++ .mark .closeParen :: after)) := by
        simp [MemberTree.write]
      have hdeclared : param.annotation.write.length ≤ param.write.length := by
        obtain ⟨rest, name, isOptional, annotation⟩ := param
        exact (ParamTree.phrase ⟨rest, name, isOptional, annotation⟩).length_declared
      simp only [MemberTree.write, List.length_append, List.length_cons] at hlength
      rw [hwrite]
      refine member_keyed rfl nofun (keyedMember_accessor key false fun name hname => ?_)
      refine (Gives.setterRest (hreads.phrase _ (by omega)) hcolon).mono ?_
      rintro _ ⟨found, rfl, hfound⟩
      simp [Accessor.kind, MemberTree.kind, hname, hfound]
  | index readonly name keyType declared =>
      have hwrite : (MemberTree.index readonly name keyType declared).write ++ after =
          Symbol.onlyIf (.word .readonly) readonly ++ .mark .openBracket :: name.symbol ::
            .mark .colon :: (keyType.write ++ .mark .closeBracket :: .mark .colon ::
              (declared.write ++ after)) := by
        simp [MemberTree.write]
      simp only [MemberTree.write, List.length_append, List.length_cons] at hlength
      rw [hwrite]
      refine member_keyed (by cases readonly <;> rfl) (by cases readonly <;> exact nofun)
        (keyedMember_index readonly name (fun rest hrest => ?_)
          (hreads.type declared after (by omega) hafter))
      exact hreads.type keyType rest (by omega) (.of_kindAt hrest rfl)
  | call signature =>
      refine spanned (peekKind_starts.known ((kindAhead_starts 1).known ?_))
      rw [if_pos (by rfl)]
      refine (hsignature signature (Nat.le_refl _)).bind fun found hfound => .pure fun span => ?_
      simp [hfound, MemberTree.member, MemberTree.kind]
  | construct signature =>
      refine spanned (peekKind_starts.known ((kindAhead_starts 1).known ?_))
      rw [if_neg (by exact Bool.false_ne_true), if_pos (by rfl)]
      refine advance_starts.bind fun _ _ => ?_
      refine ((hsignature signature (Nat.le_succ _)).weaken fun _ => Heads.starts).bind
        fun found hfound => .pure fun span => ?_
      simp [hfound, MemberTree.member, MemberTree.kind]

end Gives

end Parser
end DeclFile

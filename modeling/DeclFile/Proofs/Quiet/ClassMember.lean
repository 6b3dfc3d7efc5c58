import DeclFile.Proofs.Quiet.MemberList

/-! # Reading properties of classes without a word

In front of the name of a member any modifiers may stand, and that name may be the word for another
one of them. What follows a word tells which it is.
-/

namespace DeclFile

/-- The word for a modifier. -/
def Modifier.keyword : Modifier → Keyword
  | .public => .public
  | .private => .private
  | .protected => .protected
  | .static => .static
  | .readonly => .readonly
  | .abstract => .abstract
  | .async => .async
  | .override => .override
  | .declare => .declare
  | .accessor => .accessor

def Modifier.symbol (modifier : Modifier) : Symbol := .word modifier.keyword

theorem Modifier.classModifier?_symbol (modifier : Modifier) :
    Parser.classModifier? modifier.symbol.kind = some modifier := by
  cases modifier <;> rfl

theorem Modifier.beginsKey_symbol (modifier : Modifier) : modifier.symbol.kind.beginsKey = true := by
  cases modifier <;> rfl

theorem Modifiers.contains_foldl_insert (modifiers : List Modifier) (found : Modifiers)
    (modifier : Modifier) : (modifiers.foldl Modifiers.insert found).contains modifier = true ↔
      modifier ∈ modifiers ∨ found.contains modifier = true := by
  induction modifiers generalizing found with
  | nil => simp
  | cons first more ih =>
      rw [List.foldl_cons, ih, contains_insert, List.mem_cons, Bool.or_eq_true, beq_iff_eq]
      tauto

/-- A property of a class up to its type: modifiers, the name, and a colon. -/
def propertyHead (modifiers : List Modifier) (key : KeyTree) (isOptional : Bool) : List Symbol :=
  modifiers.map Modifier.symbol ++
    (key.write ++ (Symbol.onlyIf (.mark .question) isOptional ++ [.mark .colon]))

/-- A declared class with one property, up to the type of that. -/
def classHead (name : BindingWord) (modifiers : List Modifier) (key : KeyTree) (isOptional : Bool) :
    List Placed :=
  placeFreely [.word .declare, .word .class, name.symbol, .mark .openBrace] ++
    placeLine none (propertyHead modifiers key isOptional)

/-- What is in front of a name begins like one, for modifiers are words. -/
theorem beginsKey_modified (modifiers : List Modifier) (key : KeyTree) (after : List Symbol) :
    ∃ first rest, modifiers.map Modifier.symbol ++ (key.write ++ after) = first :: rest ∧
      first.kind.beginsKey = true := by
  cases modifiers with
  | nil => exact ⟨_, _, rfl, key.beginsKey_first⟩
  | cons modifier more => exact ⟨_, _, rfl, modifier.beginsKey_symbol⟩

namespace Parser

variable [Layout] {reach : Reach TokenStream} {next : Symbol} {symbols : List Symbol}

/-! ## Modifiers -/

/-- One turn of reading modifiers. -/
def classModifierTurn (found : Modifiers) : Parser (Step Modifiers Modifiers) := do
  let next ← peekKind
  match classModifier? next with
  | some modifier =>
      if ← modifierFollowed then
        if found.contains modifier then reportHere .duplicateModifier
        let _ ← advance
        return .more (found.insert modifier)
      else return .done found
  | none => return .done found

namespace Gives

/-- A modifier is read in front of another one or the name. -/
theorem classModifierTurn_more [Layout.OneLine] {modifier : Modifier} {found : Modifiers}
    (hnext : next.kind.beginsKey = true) (hnew : found.contains modifier = false) :
    (classModifierTurn found).Gives reach (Starts (modifier.symbol :: next :: symbols))
      (next :: symbols) (· = .more (found.insert modifier)) := by
  refine peekKind_starts.known ?_
  simp only [kindAt_zero, modifier.classModifier?_symbol]
  refine modifierFollowed.known ?_
  rw [Kind.followsKey_of_beginsKey hnext, Bool.not_false, if_pos rfl, if_neg (by simp [hnew])]
  exact advance_starts.bind fun _ _ => .pure rfl

/-- The name itself is none, although it may be the word for one. -/
theorem classModifierTurn_done [Layout.OneLine] (key : KeyTree) {found : Modifiers}
    (hnext : next.kind.followsKey = true) :
    (classModifierTurn found).Gives reach (Starts (key.write ++ next :: symbols))
      (Starts (key.write ++ next :: symbols)) (· = .done found) := by
  refine peekKind_starts.known ?_
  cases key with
  | word name =>
      split
      · refine modifierFollowed.known ?_
        rw [hnext, Bool.not_true, if_neg Bool.false_ne_true]
        exact .pure rfl
      · exact .pure rfl
  | string | number | privateName | computed => exact .pure rfl

end Gives

/-- The modifiers are read up to the name. -/
theorem Cycles.classModifiers [Layout.OneLine] (modifiers : List Modifier) (key : KeyTree)
    (hnodup : modifiers.Nodup) (hnext : next.kind.followsKey = true) (found : Modifiers)
    (hnew : ∀ modifier ∈ modifiers, found.contains modifier = false) :
    Cycles reach classModifierTurn found
      (Starts (modifiers.map Modifier.symbol ++ (key.write ++ next :: symbols)))
      (Starts (key.write ++ next :: symbols)) (· = modifiers.foldl Modifiers.insert found) := by
  induction modifiers generalizing found with
  | nil =>
      exact .done ((Gives.classModifierTurn_done key hnext).mono fun step hstep => ⟨found, hstep, rfl⟩)
  | cons first more ih =>
      obtain ⟨hfirst, hmore⟩ := List.nodup_cons.mp hnodup
      obtain ⟨hnot, hrest⟩ := List.forall_mem_cons.mp hnew
      obtain ⟨symbol, rest, hsymbols, hbegins⟩ := beginsKey_modified more key (next :: symbols)
      have hinserted : ∀ modifier ∈ more, (found.insert first).contains modifier = false := by
        intro modifier hmem
        rw [Modifiers.contains_insert, hrest modifier hmem, Bool.or_false, beq_eq_false_iff_ne]
        rintro rfl
        exact hfirst hmem
      have hnextTurn := ih hmore (found.insert first) hinserted
      rw [hsymbols] at hnextTurn
      rw [List.map_cons, List.cons_append, hsymbols]
      refine .step (P := (· = found.insert first))
        ((Gives.classModifierTurn_more hbegins hnot).mono fun step hstep => ⟨_, hstep, rfl⟩)
        (fun source left hsource hleft => ?_) ?_
      · rw [hsource.length_pending, hleft.length_pending]
        simp
      · rintro _ rfl
        exact fun source hsource => hnextTurn source hsource.starts

namespace Gives

theorem classModifiers [Layout.OneLine] (modifiers : List Modifier) (key : KeyTree)
    (hnodup : modifiers.Nodup) (hnext : next.kind.followsKey = true) :
    Parser.classModifiers.Gives reach
      (Starts (modifiers.map Modifier.symbol ++ (key.write ++ next :: symbols)))
      (Starts (key.write ++ next :: symbols)) (· = modifiers.foldl Modifiers.insert .empty) :=
  Cycles.gives (.classModifiers modifiers key hnodup hnext .empty fun _ _ => rfl)

/-! ## Properties -/

/-- Without a parenthesis nothing is a constructor. -/
theorem constructorFollows_no (key : KeyTree) (hnext : next.kind ≠ .mark .openParen) :
    Parser.constructorFollows.Gives reach (Starts (key.write ++ next :: symbols))
      (Starts (key.write ++ next :: symbols)) (· = false) := by
  refine peek_starts.bind fun token htoken => (kindAhead_starts 1).known (.pure ?_)
  cases key with
  | word | string | number | privateName => simp [KeyTree.rest, hnext]
  | computed expr => simp [htoken.kind, KeyTree.first]

/-- A property is read with its type, whatever tokens that is read from. -/
theorem namedClassMember {P : Ty → Prop} {behind : TokenStream} {place : Placed} {places : List Placed}
    (key : KeyTree) (isOptional : Bool) (hplace : place.symbol.kind ≠ .mark .equals)
    (htype : Parser.type.Gives reach (Heads []) (Spread behind (place :: places)) P) :
    Parser.namedClassMember.Gives reach
      (Starts (key.write ++ (Symbol.onlyIf (.mark .question) isOptional ++ [.mark .colon])))
      (Spread behind (place :: places)) fun kind => ∃ type, P type ∧
        kind.blank = .property key.name isOptional (some type.blank) := by
  refine (propertyName key).bind fun name hname => ?_
  refine (skipIf_onlyIf isOptional (by simp)).known ?_
  have hbang : (Parser.skipIf (.mark .bang)).Gives reach (Heads [.mark .colon]) (Heads [.mark .colon])
      (· = false) := skipIf_no (by simp)
  have htyped : (Parser.typeAfter (.mark .colon)).Gives reach (Heads [.mark .colon])
      (Spread behind (place :: places)) fun type? => ∃ type, type? = some type ∧ P type :=
    (skipIf_yes rfl).known (optional (htype.mono fun type htype => ⟨type, rfl, htype⟩))
  have hrest : (do
      if opensSignature (← Parser.peekKind) then
        let signature ← Parser.signature
        skipBody
        return ClassMemberKind.method name isOptional signature
      else
        let type ← Parser.typeAfter (.mark .colon)
        skipUnsupportedInitializer .propertyInitializer
        return .property name isOptional type : Parser ClassMemberKind).Gives reach
      (Heads [.mark .colon]) (Spread behind (place :: places)) fun kind => ∃ type, P type ∧
        kind.blank = .property key.name isOptional (some type.blank) := by
    refine peekKind.known ?_
    rw [if_neg (by exact Bool.false_ne_true)]
    refine htyped.bind ?_
    rintro _ ⟨type, rfl, htype⟩
    have hskip : (skipUnsupportedInitializer .propertyInitializer).Gives reach
        (Spread behind (place :: places)) (Spread behind (place :: places)) fun _ => True := by
      refine peekKind_spread.known ?_
      rw [if_neg hplace]
      exact .pure trivial
    exact hskip.bind fun _ _ => .pure ⟨type, htype, by simp [hname]⟩
  -- Only without a question mark is an exclamation mark looked for.
  cases isOptional with
  | true => exact hrest
  | false => exact hbang.bind fun _ _ => hrest

/-- Members with neither brackets of an index nor an accessor are properties or methods. -/
theorem classMemberKind [Layout.OneLine] {Q : ClassMemberKind → Prop} {after : Ahead} {modifiers : Modifiers}
    (key : KeyTree) (hnext : next.kind.followsKey = true) (hparen : next.kind ≠ .mark .openParen)
    (hnamed : Parser.namedClassMember.Gives reach (Starts (key.write ++ next :: symbols)) after Q) :
    (Parser.classMemberKind modifiers).Gives reach (Starts (key.write ++ next :: symbols)) after Q := by
  refine peekKind_starts.known ?_
  rw [if_neg]
  · refine (constructorFollows_no key hparen).known ?_
    rw [if_neg Bool.false_ne_true]
    exact (indexSignature?_none key).known
      ((accessor?_none key (Kind.beginsKey_of_followsKey hnext)).known hnamed)
  · intro h
    have hkind : key.first.kind = .mark .openBrace := of_decide_eq_true (Bool.and_eq_true_iff.mp h).1
    have hbegins := key.beginsKey_first
    rw [hkind] at hbegins
    contradiction

/-- A property is read with its modifiers. -/
theorem classMember [Layout.OneLine] {P : Ty → Prop} {behind : TokenStream} {place : Placed}
    {places : List Placed} (modifiers : List Modifier) (hnodup : modifiers.Nodup) (key : KeyTree)
    (isOptional : Bool) (hplace : place.symbol.kind ≠ .mark .equals)
    (htype : Parser.type.Gives reach (Heads []) (Spread behind (place :: places)) P) :
    Parser.classMember.Gives reach (Starts (propertyHead modifiers key isOptional))
      (Spread behind (place :: places)) fun member => ∃ type, P type ∧
        member.blank = ⟨.property key.name isOptional (some type.blank),
          modifiers.foldl Modifiers.insert .empty, default⟩ := by
  have hnamed := namedClassMember key isOptional hplace htype
  obtain ⟨next, symbols, htail, hnext, hparen⟩ : ∃ next symbols,
      Symbol.onlyIf (.mark .question) isOptional ++ [.mark .colon] = next :: symbols ∧
        next.kind.followsKey = true ∧ next.kind ≠ .mark .openParen := by
    cases isOptional <;> exact ⟨_, _, rfl, rfl, nofun⟩
  rw [htail] at hnamed
  rw [propertyHead, htail]
  refine spanned ((classModifiers modifiers key hnodup hnext).known ?_)
  refine (classMemberKind key hnext hparen hnamed).bind fun kind ⟨type, htype, hkind⟩ => .pure fun span => ?_
  exact ⟨type, htype, by rw [ClassMember.blank, hkind]⟩

end Gives

end Parser

/-! ## Classes -/

namespace Parser.Gives

variable {reach : Reach TokenStream} {typed ending : TokenStream} {P : Ty → Prop}

/-- A property is read up to where it ends, whatever line it begins. -/
theorem classMember_spread {line : Option Bool} {place : Placed} {places : List Placed}
    (modifiers : List Modifier) (hnodup : modifiers.Nodup) (key : KeyTree) (isOptional : Bool)
    (hplace : place.symbol.kind ≠ .mark .equals)
    (htype : Parser.type.Gives reach (Spread typed []) (Spread ending (place :: places)) P) :
    Parser.classMember.Gives reach (Spread typed (placeLine line (propertyHead modifiers key isOptional)))
      (Spread ending (place :: places)) fun member => ∃ type, P type ∧
        member.blank = ⟨.property key.name isOptional (some type.blank),
          modifiers.foldl Modifiers.insert .empty, default⟩ := by
  rw [← List.append_nil (placeLine line (propertyHead modifiers key isOptional))]
  refine of_line fun middle hmiddle => ?_
  let _ := Layout.line middle
  exact classMember modifiers hnodup key isOptional hplace
    (htype.weaken fun stream hstream => by rwa [Heads.nil_iff.mp hstream])

/-- A body with one property is read with that. -/
theorem classMembers (modifiers : List Modifier) (hnodup : modifiers.Nodup) (key : KeyTree)
    (isOptional : Bool) (hless : ending.pending.length + 2 ≤ typed.pending.length)
    (htype : Parser.type.Gives reach (Spread typed [])
      (Spread ending (placeFreely [.mark .semicolon, .mark .closeBrace])) P) :
    Parser.classMembers.Gives reach (Spread typed (placeLine none (propertyHead modifiers key isOptional)))
      (Spread ending (placeFreely [.mark .closeBrace])) fun found => ∃ type, P type ∧
        found.map ClassMember.blank = [⟨.property key.name isOptional (some type.blank),
          modifiers.foldl Modifiers.insert .empty, default⟩] := by
  obtain ⟨first, rest, hhead, hfirst⟩ := beginsKey_modified modifiers key
    (Symbol.onlyIf (.mark .question) isOptional ++ [.mark .colon])
  have hkind : Parser.peekKind.Gives reach
      (Spread typed (placeLine none (propertyHead modifiers key isOptional)))
      (Spread typed (placeLine none (propertyHead modifiers key isOptional))) (· = first.kind) := by
    rw [propertyHead, hhead]
    exact peekKind_spread
  have hne {kind : Kind} (hother : kind.beginsKey = false) : first.kind ≠ kind := by
    rintro rfl
    rw [hfirst] at hother
    contradiction
  refine Collects.gives (.step (P := fun result? => ∃ found : ClassMember, result? = some found ∧
    ∃ type, P type ∧ found.blank = ⟨.property key.name isOptional (some type.blank),
      modifiers.foldl Modifiers.insert .empty, default⟩)
    (memberTurn_some hkind ⟨hne rfl, hne rfl, beq_eq_false_iff_ne.mpr (hne rfl)⟩
      (classMember_spread modifiers hnodup key isOptional (by exact nofun) htype)
      (endMember_mark (.inl rfl)))
    (fun source left hsource hleft => ?_) ?_)
  · rw [hsource.length_pending, hleft.length_pending]
    simp only [List.length_map, List.length_cons, List.length_nil]
    omega
  · rintro _ ⟨found, rfl, type, htype, hfound⟩
    refine .last ((memberTurn_none rfl).mono fun taken htaken => ⟨htaken.1, type, htype, ?_⟩)
    simp [htaken.2, hfound]

theorem statement_class [Layout] {behind : TokenStream} (name : BindingWord)
    {Q : List ClassMember → Prop}
    (hmembers : (Parser.nested .classMembers).Gives reach (Heads [])
      (Spread behind (placeFreely [.mark .closeBrace])) Q) :
    (Parser.statement false).Gives reach
      (Heads [.word .declare, .word .class, name.symbol, .mark .openBrace]) (Spread behind [])
      fun statement => ∃ members, Q members ∧ statement.blank =
        ⟨.ambient ⟨.class ⟨some name.ident, false, [], none, [], members.map ClassMember.blank⟩,
          default⟩, default⟩ := by
  have hdecl : (Parser.classDecl false false).Gives reach
      (Heads [.word .class, name.symbol, .mark .openBrace]) (Spread behind [])
      fun decl => ∃ members, Q members ∧ decl.blank =
        ⟨some name.ident, false, [], none, [], members.map ClassMember.blank⟩ := by
    refine advance.bind fun _ _ => peekKind.known ?_
    rw [if_pos (by simp)]
    refine (map (Q := fun ident? => ident?.map Ident.blank = some name.ident)
      ((ident name.binds).mono fun id hid => by simp [hid]; rfl)).bind fun ident? hident => ?_
    have hnone : Parser.typeParams.Gives reach (Heads [.mark .openBrace]) (Heads [.mark .openBrace])
        (· = []) := (skipIf_no (by simp)).known (.pure rfl)
    refine hnone.known ((skipIf_no (by simp)).known (pure_bind none ?_))
    refine (skipIf_no (by simp)).known (pure_bind [] ?_)
    refine (braced hmembers).bind fun found hfound => .pure ⟨found, hfound, ?_⟩
    simp [ClassDecl.blank, hident]
  refine peekKind.known ((kindAhead 1).known (spanned (advance.bind fun _ _ => ?_)))
  refine spanned (peekKind.known ((kindAhead 1).known ?_))
  refine pure_bind () (hdecl.bind fun decl ⟨members, hmembers, hblank⟩ => ?_)
  exact .pure fun _ _ => ⟨members, hmembers, by simp [hblank]⟩

end Parser.Gives

end DeclFile

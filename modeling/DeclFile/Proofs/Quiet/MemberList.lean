import DeclFile.Parser.Declaration
import DeclFile.Proofs.Quiet.Member

/-! # Reading members one after another without a word

A member ends at a mark, in front of a closing brace, or where the next one begins a line. In the
last case its type must not go on with that, although it may begin with a bracket or with a word
such as `is`.
-/

namespace DeclFile

namespace Kind

/-- The kinds of tokens that begin a member. -/
def beginsMember (kind : Kind) : Bool := kind.beginsKey || kind == .mark .openParen

theorem ne_of_beginsMember {kind other : Kind} (h : kind.beginsMember = true)
    (hother : other.beginsMember = false) : kind ≠ other := by
  rintro rfl
  rw [h] at hother
  contradiction

/-- What begins a member and could belong to a type does not at the beginning of a line. -/
theorem keepsToLine_of_beginsMember {kind : Kind} (h : kind.beginsMember = true)
    (hblocked : Stratum.full.blocked.contains kind = true) : kind.keepsToLine = true := by
  simp only [Stratum.blocked, List.contains_eq_mem, decide_eq_true_eq, List.mem_cons,
    List.not_mem_nil, or_false] at hblocked
  rcases hblocked with rfl | rfl | rfl | rfl | rfl | rfl | rfl | rfl
  all_goals first
    | rfl
    | contradiction

end Kind

theorem MemberTree.beginsMember (tree : MemberTree) :
    ∃ first rest, tree.write = first :: rest ∧ first.kind.beginsMember = true := by
  have hkey (key : KeyTree) : key.first.kind.beginsMember = true := by
    rw [Kind.beginsMember, key.beginsKey_first, Bool.true_or]
  cases tree with
  | property readonly key isOptional declared =>
      cases readonly with
      | true => exact ⟨_, _, rfl, rfl⟩
      | false => exact ⟨_, _, rfl, hkey key⟩
  | method key isOptional signature distinct => exact ⟨_, _, rfl, hkey key⟩
  | index readonly name keyType declared => cases readonly <;> exact ⟨_, _, rfl, rfl⟩
  | getter | setter | call | construct => exact ⟨_, _, rfl, rfl⟩

/-- In front of this a member ends. -/
def Placed.EndsMember (place : Placed) : Prop :=
  place.symbol.kind = .mark .semicolon ∨ place.symbol.kind = .mark .comma ∨
    place.symbol.kind = .mark .closeBrace ∨
    (place.symbol.kind.beginsMember = true ∧ place.line = some true)

/-- A type ends in front of what ends a member. -/
theorem Spread.endsAt_behind {behind stream : TokenStream} {place : Placed} {places : List Placed}
    (h : Spread behind (place :: places) stream) (hends : place.EndsMember) :
    @Stratum.EndsAt (.line stream) .full [] := by
  let _ := Layout.line stream
  rcases hends with hkind | hkind | hkind | ⟨hkind, hline⟩
  · exact .of_kindAt (h.kindAt_behind.trans hkind) rfl
  · exact .of_kindAt (h.kindAt_behind.trans hkind) rfl
  · exact .of_kindAt (h.kindAt_behind.trans hkind) rfl
  · rw [Stratum.EndsAt, h.kindAt_behind, h.lineAt_behind hline, Bool.and_true]
    cases hblocked : Stratum.full.blocked.contains place.symbol.kind with
    | false => rfl
    | true => rw [Kind.keepsToLine_of_beginsMember hkind hblocked, Bool.true_and, Bool.not_true]

theorem Spread.kindAt_behind_ne {behind stream : TokenStream} {place : Placed} {places : List Placed}
    (h : Spread behind (place :: places) stream) (hends : place.EndsMember) :
    @kindAt (.line stream) [] 0 ≠ .mark .colon := by
  rw [h.kindAt_behind]
  rcases hends with hkind | hkind | hkind | ⟨hkind, -⟩
  · simp [hkind]
  · simp [hkind]
  · simp [hkind]
  · exact Kind.ne_of_beginsMember hkind rfl

namespace Parser

/-- One turn of a list of members. -/
def memberTurn {α : Type} (skips : Kind → Bool) (element : Parser α) : Parser (Turn α) := do
  let next ← peekKind
  if next = .mark .closeBrace || next = .endOfText then return ⟨none, false⟩
  else if skips next then
    let _ ← advance
    return ⟨none, true⟩
  else
    match ← settle element with
    | .done found =>
        let ended ← endMember
        if !ended then recoverMember false
        return ⟨some found, true⟩
    | .failed progress =>
        recoverMember progress
        return ⟨none, true⟩

variable {α : Type} {reach : Reach TokenStream} {behind : TokenStream} {place : Placed}
  {places : List Placed} {skips : Kind → Bool} {element : Parser α}

namespace Gives

theorem endMember_mark (h : place.symbol.kind = .mark .semicolon ∨ place.symbol.kind = .mark .comma) :
    Parser.endMember.Gives reach (Spread behind (place :: places)) (Spread behind places)
      (· = true) := by
  refine peek_spread.bind fun token htoken => ?_
  rw [if_pos (by simpa [htoken.kind] using h)]
  exact advance_spread.bind fun _ _ => .pure rfl

/-- Where another member begins a line, or none follows, nothing needs to be read. -/
theorem endMember_open (h : place.symbol.kind = .mark .closeBrace ∨
      (place.symbol.kind.beginsMember = true ∧ place.line = some true)) :
    Parser.endMember.Gives reach (Spread behind (place :: places)) (Spread behind (place :: places))
      (· = true) := by
  refine peek_spread.bind fun token htoken => ?_
  rw [if_neg, if_pos]
  · exact .pure rfl
  · rcases h with hbrace | ⟨-, hline⟩
    · simp [htoken.kind, hbrace]
    · simp [htoken.line true hline]
  · rcases h with hbrace | ⟨hbegins, -⟩
    · simp [htoken.kind, hbrace]
    · have hsemicolon : place.symbol.kind ≠ .mark .semicolon := Kind.ne_of_beginsMember hbegins rfl
      have hcomma : place.symbol.kind ≠ .mark .comma := Kind.ne_of_beginsMember hbegins rfl
      simp [htoken.kind, hsemicolon, hcomma]

/-- A turn reads a member and its end. -/
theorem memberTurn_some {before middle after : Ahead} {P : α → Prop} {kind : Kind}
    (hkind : Parser.peekKind.Gives reach before before (· = kind))
    (hfirst : kind ≠ .mark .closeBrace ∧ kind ≠ .endOfText ∧ skips kind = false)
    (helement : element.Gives reach before middle P)
    (hend : Parser.endMember.Gives reach middle after (· = true)) :
    (memberTurn skips element).Gives reach before after fun taken =>
      taken.again = true ∧ ∃ found, taken.result? = some found ∧ P found := by
  refine hkind.known ?_
  rw [if_neg (by simp [hfirst.1, hfirst.2.1]), if_neg (by simp [hfirst.2.2])]
  refine (settle (Q := fun settled => ∃ found, settled = .done found ∧ P found)
    (helement.mono fun found hfound => ⟨found, rfl, hfound⟩)).bind ?_
  rintro _ ⟨found, rfl, hfound⟩
  exact hend.known (.pure ⟨rfl, found, rfl, hfound⟩)

/-- In front of a closing brace the list is over. -/
theorem memberTurn_none (h : place.symbol.kind = .mark .closeBrace) :
    (memberTurn skips element).Gives reach (Spread behind (place :: places))
      (Spread behind (place :: places)) fun taken => taken.again = false ∧ taken.result? = none := by
  refine peekKind_spread.known ?_
  rw [if_pos (by simp [h])]
  exact .pure ⟨rfl, rfl⟩

end Gives

end Parser

/-! ## The members of an interface -/

/-- What stands in front of the closing brace, or that brace. -/
theorem placeMembers_first (line : Option Bool) (members : List EndedMember) :
    ∃ place places, placeMembers line members ++ placeFreely [.mark .closeBrace] = place :: places ∧
      (place.symbol.kind = .mark .closeBrace ∨
        (place.symbol.kind.beginsMember = true ∧ place.line = line)) := by
  cases members with
  | nil => exact ⟨_, _, rfl, .inl rfl⟩
  | cons member more =>
      obtain ⟨tree, ending⟩ := member
      obtain ⟨first, rest, hwrite, hfirst⟩ := tree.beginsMember
      exact ⟨⟨first, line⟩, _, by rw [placeMembers, hwrite, placeLine]; rfl, .inr ⟨hfirst, rfl⟩⟩

/-- A member ends in front of its ending and what follows that. -/
theorem MemberEnding.endsMember (ending : MemberEnding) (members : List EndedMember) :
    ∃ place places, ending.places ++ (placeMembers ending.breaks members ++
      placeFreely [.mark .closeBrace]) = place :: places ∧ place.EndsMember := by
  cases ending with
  | semicolon => exact ⟨_, _, rfl, .inl rfl⟩
  | comma => exact ⟨_, _, rfl, .inr (.inl rfl)⟩
  | lineBreak =>
      obtain ⟨place, places, hplaces, hfirst⟩ := placeMembers_first (some true) members
      exact ⟨place, places, hplaces, .inr (.inr hfirst)⟩

namespace Parser

variable {reach : Reach TokenStream} {behind : TokenStream}

namespace Gives

theorem endMember (ending : MemberEnding) (members : List EndedMember) :
    Parser.endMember.Gives reach
      (Spread behind (ending.places ++ (placeMembers ending.breaks members ++
        placeFreely [.mark .closeBrace])))
      (Spread behind (placeMembers ending.breaks members ++ placeFreely [.mark .closeBrace]))
      (· = true) := by
  cases ending with
  | semicolon => exact endMember_mark (.inl rfl)
  | comma => exact endMember_mark (.inr rfl)
  | lineBreak =>
      obtain ⟨place, places, hplaces, hfirst⟩ := placeMembers_first (some true) members
      change Gives reach _ (Spread behind (placeMembers (some true) members ++ _))
        (Spread behind (placeMembers (some true) members ++ _)) _
      rw [hplaces]
      exact endMember_open hfirst

/-- A member is read up to where it ends, whatever line it begins. -/
theorem member_spread {most : Nat} (hreads : ∀ [Layout] [Layout.OneLine], ReadsTypes reach most)
    (tree : MemberTree) (hlength : tree.write.length ≤ most) {line : Option Bool} {place : Placed}
    {places : List Placed} (hends : place.EndsMember) :
    Parser.member.Gives reach (Spread behind (placeLine line tree.write ++ place :: places))
      (Spread behind (place :: places)) fun member => member.blank = tree.member := by
  refine of_line fun middle hmiddle => ?_
  let _ := Layout.line middle
  have hmember := Gives.member hreads tree hlength (hmiddle.endsAt_behind hends)
    (hmiddle.kindAt_behind_ne hends)
  rw [List.append_nil] at hmember
  exact hmember.widen fun rest hrest => by rwa [Heads.nil_iff.mp hrest]

end Gives

/-- Turns read the members one after another. The induction is on the members: each one is read up to
its ending, which tells whether the next one begins a line. -/
theorem Collects.members {most : Nat} (hreads : ∀ [Layout] [Layout.OneLine], ReadsTypes reach most)
    (line : Option Bool) (members : List EndedMember)
    (hlength : ∀ member ∈ members, member.tree.write.length ≤ most) (collected : List Member) :
    Collects reach
      (memberTurn (fun kind => kind == .mark .semicolon || kind == .mark .comma) Parser.member) collected
      (Spread behind (placeMembers line members ++ placeFreely [.mark .closeBrace]))
      (Spread behind (placeFreely [.mark .closeBrace]))
      fun found => found.map Member.blank =
        collected.reverse.map Member.blank ++ members.map fun member => member.tree.member := by
  induction members generalizing line collected with
  | nil =>
      refine .last ((Gives.memberTurn_none rfl).mono fun taken htaken => ⟨htaken.1, ?_⟩)
      simp [htaken.2]
  | cons first more ih =>
      obtain ⟨tree, ending⟩ := first
      obtain ⟨htree, hmore⟩ := List.forall_mem_cons.mp hlength
      obtain ⟨symbol, rest, hwrite, hsymbol⟩ := tree.beginsMember
      obtain ⟨place, places, hplaces, hends⟩ := ending.endsMember more
      have hplaced : placeMembers line (⟨tree, ending⟩ :: more) ++ placeFreely [.mark .closeBrace] =
          placeLine line tree.write ++ place :: places := by
        rw [← hplaces]
        simp [placeMembers]
      have hend : Parser.endMember.Gives reach (Spread behind (place :: places)) _ (· = true) :=
        hplaces ▸ Gives.endMember ending more
      have hkind : Parser.peekKind.Gives reach (Spread behind (placeLine line tree.write ++ place :: places))
          (Spread behind (placeLine line tree.write ++ place :: places)) (· = symbol.kind) := by
        rw [hwrite]
        exact Gives.peekKind_spread
      have hsemicolon : symbol.kind ≠ .mark .semicolon := Kind.ne_of_beginsMember hsymbol rfl
      have hcomma : symbol.kind ≠ .mark .comma := Kind.ne_of_beginsMember hsymbol rfl
      have hfirst : symbol.kind ≠ .mark .closeBrace ∧ symbol.kind ≠ .endOfText :=
        ⟨Kind.ne_of_beginsMember hsymbol rfl, Kind.ne_of_beginsMember hsymbol rfl⟩
      rw [hplaced]
      refine .step (P := fun result? => ∃ found, result? = some found ∧ found.blank = tree.member)
        (Gives.memberTurn_some hkind ⟨hfirst.1, hfirst.2, by simp [hsemicolon, hcomma]⟩
          (Gives.member_spread hreads tree htree hends) hend)
        (fun source rest hsource hrest => ?_) ?_
      · have hless := congrArg List.length hplaces
        rw [hsource.length_pending, hrest.length_pending]
        simp only [hwrite, placeLine, List.length_append, List.length_cons] at hless ⊢
        omega
      · rintro _ ⟨found, rfl, hfound⟩
        exact (ih ending.breaks hmore (found :: collected)).mono fun results hresults => by
          simp [hresults, hfound]

namespace Gives

/-- The members of an interface are read one after another. -/
theorem members {most : Nat} (hreads : ∀ [Layout] [Layout.OneLine], ReadsTypes reach most)
    (members : List EndedMember) (hlength : ∀ member ∈ members, member.tree.write.length ≤ most) :
    Parser.members.Gives reach
      (Spread behind (placeMembers none members ++ placeFreely [.mark .closeBrace]))
      (Spread behind (placeFreely [.mark .closeBrace]))
      fun found => found.map Member.blank = members.map fun member => member.tree.member :=
  Collects.gives (.members hreads none members hlength [])

/-- A body in braces is read if it is read behind the opening one. -/
theorem braced [Layout] {α : Type} {inner : Parser α} {Q : α → Prop}
    (hinner : inner.Gives reach (Heads []) (Spread behind (placeFreely [.mark .closeBrace])) Q) :
    (Parser.braced inner).Gives reach (Heads [.mark .openBrace]) (Spread behind []) Q := by
  refine (expect rfl).bind fun _ _ => hinner.bind fun found hfound => ?_
  have hclose : (Parser.expectOrReport (.mark .closeBrace)).Gives reach
      (Spread behind (placeFreely [.mark .closeBrace])) (Spread behind []) fun _ => True :=
    (optional (Q := fun _ => True) ((expect_spread rfl).mono fun _ _ => trivial)).bind fun _ _ =>
      .pure trivial
  exact hclose.bind fun _ _ => .pure hfound

/-- An interface is read with its members. -/
theorem interfaceDecl [Layout] (name : BindingWord) {expected : List Member}
    (hmembers : (Parser.nested .members).Gives reach (Heads [])
      (Spread behind (placeFreely [.mark .closeBrace]))
      fun found : List Member => found.map Member.blank = expected) :
    Parser.interfaceDecl.Gives reach (Heads [.word .interface, name.symbol, .mark .openBrace])
      (Spread behind []) fun decl => decl.blank = ⟨name.ident, [], [], expected⟩ := by
  refine advance.bind fun _ _ => (ident name.binds).bind fun id hid => ?_
  have hnone : Parser.typeParams.Gives reach (Heads [.mark .openBrace]) (Heads [.mark .openBrace])
      (· = []) := (skipIf_no (by simp)).known (.pure rfl)
  refine hnone.known ((skipIf_no (by simp)).known ?_)
  refine pure_bind [] ((braced hmembers).bind fun found hfound => .pure ?_)
  simp only [InterfaceDecl.blank, hid, hfound, blankTypeParams, List.map_nil]
  rfl

/-- A statement that begins with `interface` is an interface. -/
theorem statement_interface [Layout] {symbols : List Symbol} {decl : InterfaceDecl}
    (h : Parser.interfaceDecl.Gives reach (.word .interface :: symbols) (Spread behind [])
      fun found => found.blank = decl) :
    (Parser.statement false).Gives reach (.word .interface :: symbols) (Spread behind [])
      fun statement => statement.blank = ⟨.interface decl, default⟩ := by
  refine peekKind.known ((kindAhead 1).known ?_)
  refine spanned (peekKind.known ((kindAhead 1).known ?_))
  exact h.bind fun found hfound => .pure fun span => by simp [hfound]

end Gives

end Parser

end DeclFile

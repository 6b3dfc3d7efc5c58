import DeclFile.Parser.Name
import DeclFile.Proofs.Brackets.Basic

/-! # Brackets in names and lists, and around groups

Names hold no brackets but those of computed names. A group that is skipped is passed over by
counting, to the end of the text if it does not end before.
-/

namespace DeclFile

open DeclFile.Parser (opensGroup closesGroup)

theorem isBracket_of {p : Kind → Bool} (hmarks : ∀ mark, p (.mark mark) = false) {kind : Kind}
    (h : p kind = true) : isBracket kind = false := by
  cases kind with
  | mark mark => simp [hmarks] at h
  | _ => rfl

theorem Kind.isBracket_of_isBindingName {kind : Kind} (h : kind.isBindingName = true) :
    isBracket kind = false :=
  isBracket_of (p := Kind.isBindingName) (fun _ => rfl) h

theorem Kind.isBracket_of_isName {kind : Kind} (h : kind.isName = true) :
    isBracket kind = false :=
  isBracket_of (p := Kind.isName) (fun _ => rfl) h

theorem TokenStream.ahead_one (source : TokenStream) : source.ahead 1 = source.advance.peek := by
  simp [ahead, advance, peek, List.headD_eq_head?_getD, List.head?_eq_getElem?]

namespace Parser

variable {α : Type} {place : Place} {silent : Prop} {source : TokenStream} {awaited : List Mark}
  {fresh : Bool}

/-! ## Names and literals -/

theorem readIdent_brackets (h : isBracket source.peek.kind = false) :
    readIdent.Carries place silent source (Nests fresh awaited) fun _ => Nests false awaited :=
  .plain_bind h <| .idle

theorem ident_brackets :
    ident.Carries place silent source (Nests fresh awaited) fun _ => Nests false awaited := by
  refine .observe .peekKind ?_
  split
  next h => exact readIdent_brackets (Kind.isBracket_of_isBindingName h)
  next => exact .refuse

/-- Where a binding can be named, the name is one token. -/
theorem ident_bind {β : Type} {next : Ident → Parser β} {R : β → List Token → Prop}
    (h : source.peek.kind.isBindingName = true)
    (hnext : ∀ name, (next name).Carries place silent source.advance (Nests false awaited) R) :
    (ident >>= next).Carries place silent source (Nests fresh awaited) R := by
  refine .bind_of_evaluates fun _ hevaluates _ => ?_
  have hread : Evaluates place readIdent source _ _ :=
    (Evaluates.advance source).bind rfl (.pure _ _)
  have hkind : Evaluates place peekKind source _ _ := Observes.peekKind place
  have hident : Evaluates place ident source _ _ := hkind.bind rfl (by
    simp only [Outcome.ofResult, h, if_true]
    exact hread)
  obtain rfl := hevaluates.unique hident
  exact ⟨Nests false awaited, .of_plain (Kind.isBracket_of_isBindingName h), hnext _⟩

theorem anyIdent_brackets : anyIdent.Brackets place silent source awaited awaited := by
  refine .observe .peekKind ?_
  split
  next h => exact readIdent_brackets (Kind.isBracket_of_isName h)
  next => exact .refuse

theorem stringLit_brackets : stringLit.Brackets place silent source awaited awaited :=
  (Carries.expect rfl).bind fun _ _ => .idle

theorem moreSegments_brackets : moreSegments.Brackets place silent source awaited awaited := by
  refine .collect fun source => .observe .peekKind <| .observe (.kindAhead 1) ?_
  split
  next h =>
    simp only [Bool.and_eq_true, decide_eq_true_eq] at h
    refine .plain_bind (h.1 ▸ rfl) <| .bind (readIdent_brackets ?_) fun _ _ => .idle
    exact source.ahead_one ▸ Kind.isBracket_of_isName h.2
  next => exact .idle

theorem entityName_brackets : entityName.Brackets place silent source awaited awaited := by
  refine .spanned <| .observe .peekKind ?_
  split
  next h =>
    exact .bind (readIdent_brackets (h ▸ rfl)) fun _ _ =>
      .bind moreSegments_brackets fun _ _ => .idle
  next =>
    exact .bind ident_brackets fun _ _ => .bind moreSegments_brackets fun _ _ => .idle

theorem qualifier_brackets : qualifier.Brackets place silent source awaited awaited :=
  .spanned <| .bind anyIdent_brackets fun _ _ =>
    .bind moreSegments_brackets fun _ _ => .idle

theorem exportName_brackets : exportName.Brackets place silent source awaited awaited := by
  refine .observe .peekKind ?_
  split
  next h => exact readIdent_brackets (h ▸ rfl)
  next => exact anyIdent_brackets

/-- What is no literal fails in silence. -/
theorem literal_brackets : literal.Brackets place True source awaited awaited := by
  refine .bind (.skipIf rfl) fun negative rest => ?_
  cases hkind : rest.peek.kind with
  | mark mark =>
      refine .advance_bind (M := fun _ => False) (fun _ => False.elim) ?_
      simp only [hkind]
      exact .fail trivial
  | _ =>
      refine .plain_bind (hkind ▸ rfl) ?_
      dsimp only
      split
      · exact .idle
      · exact .fail trivial

theorem keyExpr_brackets : keyExpr.Brackets place silent source awaited awaited := by
  refine .observe .peekKind ?_
  split
  next h => exact .plain_bind (h ▸ rfl) <| .idle
  next h => exact .plain_bind (h ▸ rfl) <| .idle
  next =>
    split
    next h =>
      exact .spanned <| .bind (readIdent_brackets (Kind.isBracket_of_isName h)) fun _ _ =>
        .bind moreSegments_brackets fun _ _ => .idle
    next => exact .refuse

theorem propertyName_brackets : propertyName.Brackets place silent source awaited awaited := by
  refine .observe .peek ?_
  split
  next h => exact .plain_bind (h ▸ rfl) <| .idle
  next h => exact .plain_bind (h ▸ rfl) <| .idle
  next h => exact .plain_bind (h ▸ rfl) <| .idle
  next h =>
    exact .spanned <| .opening_bind h rfl <| .bind keyExpr_brackets fun _ _ =>
      .bind .expect_closing fun _ _ => .idle
  next =>
    split
    next h =>
      exact .bind (readIdent_brackets (Kind.isBracket_of_isName h)) fun _ _ => .idle
    next => exact .refuse

/-! ## Lists -/

/-- A list carries back what its elements and the commas between them do. -/
theorem commaSeparated_carries {close : Kind} {element : Parser (Turn α)}
    {I F : List Token → Prop} (hstop : ∀ tokens, F tokens → I tokens)
    (hcomma : ∀ source : TokenStream, source.peek.kind = .mark .comma →
      I source.advance.pending → F source.pending)
    (helement : ∀ source, element.Carries place silent source I fun _ => F) :
    (commaSeparated close element).Carries place silent source I fun _ => F := by
  refine .collect fun source => .observe .peekKind ?_
  split
  next => exact .pure hstop
  next =>
    refine (helement source).bind fun taken rest => ?_
    split
    next =>
      refine .bind (.skipIf_of (Q := fun again => if again then I else F) ?_ ?_) fun again _ => ?_
      · exact hcomma rest
      · exact fun _ => id
      · exact .idle
    next hlast => exact .pure fun tokens => by simp [hlast]

theorem commaSeparated_brackets {close : Kind} {element : Parser (Turn α)}
    (helement : ∀ source, element.Brackets place silent source awaited awaited) :
    (commaSeparated close element).Brackets place silent source awaited awaited :=
  commaSeparated_carries (fun _ => id) (fun _ h => .of_plain (h ▸ rfl)) helement

theorem elementOrStop_carries {inner : Parser α} {I F : List Token → Prop}
    (hinner : inner.Carries place False source I fun _ => F) :
    (elementOrStop inner).Carries place silent source I fun _ => F :=
  .optional_bind hinner fun _ _ => .idle

theorem afterEach_brackets {mark : Mark} (hmark : isBracket (.mark mark) = false)
    {element : Parser α}
    (helement : ∀ source, element.Brackets place False source awaited awaited) :
    (afterEach mark element).Brackets place silent source awaited awaited := by
  refine .collect fun source => .bind (.skipIf hmark) fun skipped rest => ?_
  split
  next =>
    refine (elementOrStop_carries (helement rest)).mono id id fun taken _ => ?_
    split <;> exact id
  next => exact .idle

/-! ## Groups that are passed over -/

/-- Passing over a group leads to what is left after it, or to the end of the text. -/
def Passes (depth : Nat) (tokens left : List Token) : Prop :=
  afterGroup depth tokens = some left ∨ afterGroup depth tokens = none ∧ left = []

theorem Passes.cons {depth : Nat} {token : Token} {rest left : List Token} :
    Passes depth (token :: rest) left ↔
      match depthAfter depth token.kind with
      | some depth => Passes depth rest left
      | none => rest = left := by
  cases h : depthAfter depth token.kind <;> simp [Passes, afterGroup, h]

theorem skipTurn_eq (depth : Nat) : skipTurn depth = do
    let next ← peekKind
    if next = .endOfText then return .done ()
    else
      let _ ← advance
      match depthAfter depth next with
      | some depth => return .more depth
      | none => return .done () := by
  refine congrArg (Parser.bind _) (funext fun next => ?_)
  dsimp only [depthAfter]
  split_ifs <;> rfl

theorem skipTurn_carries {depth : Nat} {F : List Token → Prop} :
    (skipTurn depth).Carries place silent source
      (fun tokens => ∃ left, Passes depth tokens left ∧ F left)
      fun
        | .more next => fun tokens => ∃ left, Passes next tokens left ∧ F left
        | .done () => F := by
  rw [skipTurn_eq]
  -- The end of the text ends the group as well, and only there is nothing unread.
  refine .of_ends fun hends => .observe .peekKind ?_
  split
  next hend =>
    have hpending := source.pending_eq_nil_of_peek hends hend
    refine Carries.idle.mono id (fun hleft => ⟨[], ?_, ?_⟩) fun _ _ => id
    · exact .inr (by simp [hpending, afterGroup])
    · simpa [hpending] using hleft
  next hkind =>
    refine .advance_bind
      (M := fun tokens => ∃ left, (match depthAfter depth source.peek.kind with
        | some depth => Passes depth tokens left
        | none => tokens = left) ∧ F left) (fun _ hleft => ?_) ?_
    · rw [TokenStream.pending_eq_of_peek hkind]
      simpa only [Passes.cons] using hleft
    · split
      next => exact .idle
      next => exact .pure fun tokens hleft => ⟨tokens, rfl, hleft⟩

theorem skipGroup_carries {F : List Token → Prop} :
    skipGroup.Carries place silent source (fun tokens => ∃ left, Passes 0 tokens left ∧ F left)
      fun _ => F :=
  .loop (I := fun depth tokens => ∃ left, Passes depth tokens left ∧ F left)
    (fun _ _ => skipTurn_carries.mono id id fun step _ => by cases step <;> exact id) 0

/-- What a parameter is destructured into does not go on to the end of the text, since the
parameters must be closed. -/
theorem skipPattern_carries {mark : Mark}
    (h : source.peek.kind = .mark .openBrace ∨ source.peek.kind = .mark .openBracket) :
    skipGroup.Carries place silent source (Nests true (mark :: awaited))
      fun _ => Nests false (mark :: awaited) := by
  refine skipGroup_carries.mono id ?_ fun _ _ => id
  rintro ⟨left, hpasses, hleft⟩
  have hpeek : source.peek.kind ≠ .endOfText := by
    obtain h | h := h <;> simp [h]
  rw [TokenStream.pending_eq_of_peek hpeek] at hpasses ⊢
  obtain hafter | ⟨-, rfl⟩ := hpasses
  · exact .destructured h hafter hleft
  · simp [Nests.nil_iff] at hleft

end Parser

end DeclFile

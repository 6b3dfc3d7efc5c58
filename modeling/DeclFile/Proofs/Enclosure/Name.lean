import DeclFile.Proofs.Enclosure.Basic

/-! # Names, lists and groups in a stretch

A dotted name may go on with any word behind a dot, which is the one place outside of all groups
where a word may be taken that could begin a statement. A group is skipped as a whole.
-/

namespace DeclFile.Parser

open Enclosure

variable {α β : Type} {E : Enclosure} {home : E.Home} {place : Place} {source : TokenStream}
  {F : List Token → Prop}

/-! ## Names and literals -/

theorem readIdent_stays (h : source.peek.kind.isCommon = true) :
    readIdent.Stays home place source :=
  .common_bind h .idle

theorem readIdent_stays_word (hgrouped : E.Grouped) (h : source.peek.kind.isName = true) :
    readIdent.Stays home place source :=
  .advance_bind (fun hholds => holds_advance_word hgrouped hholds h) .idle

theorem ident_stays : ident.Stays home place source := by
  refine .observe .peekKind ?_
  split
  next h => exact readIdent_stays (Kind.isCommon_of_isBindingName h)
  next => exact .refuse fun _ => id

/-- Where an identifier is next, it is known what is read and what is left. -/
theorem Leads.ident_bind {permits : Diagnostic → Prop} {P M : List Token → Prop}
    {next : Ident → Parser β} {R : β → List Token → Prop}
    (h : source.peek.kind.isBindingName = true) (hP : P source.pending → M source.advance.pending)
    (hnext : (next ⟨source.peek.text, source.peek.span⟩).Leads permits place source.advance M F R) :
    (ident >>= next).Leads permits place source P F R := by
  refine .bind_of_evaluates fun _ hbefore _ _ hevaluates _ => ?_
  have hread : Evaluates place readIdent source _ _ :=
    (Evaluates.advance source).bind rfl (.pure _ _)
  have hkind : Evaluates place peekKind source _ _ := Observes.peekKind place
  have hident : Evaluates place ident source _ _ := hkind.bind rfl (by
    simp only [Outcome.ofResult, h, if_true]
    exact hread)
  obtain rfl := hevaluates.unique hident
  exact ⟨M, hP hbefore, hnext⟩

theorem anyIdent_stays (hgrouped : E.Grouped) : anyIdent.Stays home place source := by
  refine .observe .peekKind ?_
  split
  next h => exact readIdent_stays_word hgrouped h
  next => exact .refuse fun _ => id

theorem stringLit_stays : stringLit.Stays home place source :=
  (Leads.expect rfl).bind fun _ _ => .idle

/-- The first segment of a name was read, and what is left may begin with a dot. -/
theorem readIdent_leads (hname : source.peek.kind.isName = true)
    (hrest : E.Holds home source.pending → E.Holds home source.advance.pending) :
    readIdent.Leads E.Permits place source (E.Holds home) (E.Holds home) fun _ => E.Named home :=
  .advance_bind (M := E.Named home)
    (fun hholds => ⟨hrest hholds, source.peek, hname, holds_cons hholds⟩) .idle

theorem isName_of_isBindingName {kind : Kind} (h : kind.isBindingName = true) :
    kind.isName = true :=
  (Bool.and_eq_true_iff.mp h).1

theorem ident_leads :
    ident.Leads E.Permits place source (E.Holds home) (E.Holds home) fun _ => E.Named home := by
  refine .observe .peekKind ?_
  split
  next h =>
    apply readIdent_leads (isName_of_isBindingName h)
    exact fun hholds => holds_advance hholds (Kind.isCommon_of_isBindingName h)
  next => exact .refuse fun _ => id

theorem moreSegments_leads :
    moreSegments.Leads E.Permits place source (E.Named home) (E.Holds home)
      fun _ => E.Holds home := by
  refine .collect fun source => .observe .peekKind <| .observe (.kindAhead 1) ?_
  split
  next h =>
    simp only [Bool.and_eq_true, decide_eq_true_eq, source.ahead_one] at h
    refine .of_before fun _ ⟨hholds, name, hname, hbehind⟩ => ?_
    -- The dot and the word behind it are read together.
    have hword : source.advance.peek.kind ≠ .endOfText := by
      rintro heq
      rw [heq] at h
      cases h.2
    have hrest := source.advance.pending_eq_of_peek hword
    have hpending := (pending_eq hholds).1
    rw [hpending, hrest] at hholds hbehind
    obtain ⟨hnext, hlast⟩ := E.segment hbehind hholds hname h.1 h.2
    refine .advance_bind (M := E.Holds home) (fun _ => hrest ▸ hnext) ?_
    refine .bind (Q := fun _ => E.Named home) ?_ fun _ _ => .pure id
    exact .advance_bind (fun _ => ⟨hlast, _, h.2, hnext⟩) .idle
  next => exact .pure And.left

theorem entityName_stays : entityName.Stays home place source := by
  refine .spanned <| .observe .peekKind ?_
  split
  next h =>
    refine .bind (readIdent_leads (h ▸ rfl) fun hholds => holds_advance hholds (h ▸ rfl))
      fun _ _ => .bind moreSegments_leads fun _ _ => .idle
  next => exact .bind ident_leads fun _ _ => .bind moreSegments_leads fun _ _ => .idle

theorem qualifier_stays (hgrouped : E.Grouped) : qualifier.Stays home place source := by
  refine .spanned <| .bind (Q := fun _ => E.Named home) ?_ fun _ _ =>
    .bind moreSegments_leads fun _ _ => .idle
  refine .observe .peekKind ?_
  split
  next h => exact readIdent_leads h fun hholds => holds_advance_word hgrouped hholds h
  next => exact .refuse fun _ => id

/-- What is no literal may be any token. -/
theorem literal_leads :
    literal.Leads E.Permits place source (E.Holds home) (fun _ => True) fun _ => E.Holds home := by
  refine .bind (Leads.skipIf rfl).tried fun negative rest => ?_
  by_cases hcommon : rest.peek.kind.isCommon = true
  · refine .common_bind hcommon ?_
    dsimp only
    split
    · exact .idle
    · exact .fail fun _ => trivial
  · refine .advance_bind (M := fun _ => True) (fun _ => trivial) ?_
    dsimp only
    split
    next hvalue =>
      split at hvalue
      all_goals first | cases hvalue | skip
      all_goals
        next h => exact absurd (h ▸ rfl) hcommon
    next => exact .fail fun _ => trivial

theorem keyExpr_stays (hgrouped : E.Grouped) : keyExpr.Stays home place source := by
  refine .observe .peekKind ?_
  split
  next h => exact .common_bind (h ▸ rfl) .idle
  next h => exact .common_bind (h ▸ rfl) .idle
  next =>
    split
    next h =>
      refine .spanned <| .bind (readIdent_leads h fun hholds => ?_) fun _ _ =>
        .bind moreSegments_leads fun _ _ => .idle
      exact holds_advance_word hgrouped hholds h
    next => exact .refuse fun _ => id

theorem propertyName_stays (hgrouped : E.Grouped) : propertyName.Stays home place source := by
  refine .observe .peek ?_
  split
  next h => exact .common_bind (h ▸ rfl) .idle
  next h => exact .common_bind (h ▸ rfl) .idle
  next h => exact .common_bind (h ▸ rfl) .idle
  next h =>
    exact .spanned <| .common_bind (h ▸ rfl) <| .bind (keyExpr_stays hgrouped) fun _ _ =>
      .bind (.expect rfl) fun _ _ => .idle
  next =>
    split
    next h => exact .bind (readIdent_stays_word hgrouped h) fun _ _ => .idle
    next => exact .refuse fun _ => id

/-! ## Lists -/

theorem commaSeparated_stays {close : Kind} {element : Parser (Turn α)}
    (helement : ∀ source, element.Stays home place source) :
    (commaSeparated close element).Stays home place source := by
  refine .collect_evenly fun source => .observe .peekKind ?_
  split
  next => exact .idle
  next =>
    refine (helement source).bind fun taken rest => ?_
    split
    next => exact (Leads.skipIf rfl).bind fun _ _ => .idle
    next => exact .idle

theorem elementOrStop_stays {inner : Parser α} (hinner : inner.Stays home place source) :
    (elementOrStop inner).Stays home place source :=
  .optional_bind hinner (fun _ _ => .idle) fun _ => .idle

theorem afterEach_stays {mark : Mark} (hmark : (Kind.mark mark).isCommon = true)
    {element : Parser α} (helement : ∀ source, element.Stays home place source) :
    (afterEach mark element).Stays home place source := by
  refine .collect_evenly fun source => .bind (.skipIf hmark) fun skipped rest => ?_
  split
  next => exact elementOrStop_stays (helement rest)
  next => exact .idle

/-! ## Groups that are skipped -/

theorem skipTurn_leads {depth : Nat} {M : List Token → Prop} {permits : Diagnostic → Prop} :
    (skipTurn depth).Leads permits place source
      (fun tokens => ∃ left, afterGroup depth tokens = some left ∧ M left) F
      fun
        | .more next => fun tokens => ∃ left, afterGroup next tokens = some left ∧ M left
        | .done () => M := by
  rw [skipTurn_eq]
  refine .of_before fun hends ⟨left, hafter, hleft⟩ => ?_
  cases hpending : source.pending with
  | nil => simp [hpending, afterGroup] at hafter
  | cons token rest =>
      have hpeek : source.peek = token := by simp [TokenStream.peek, hpending]
      have hadvance : source.advance.pending = rest := by simp [TokenStream.advance, hpending]
      have hkind : token.kind ≠ .endOfText := hends token (by simp [hpending])
      rw [hpending, afterGroup] at hafter
      refine .observe .peekKind ?_
      rw [hpeek, if_neg hkind]
      refine .advance_bind (M := fun tokens => tokens = rest) (fun _ => hadvance) ?_
      split
      next heq =>
        rw [heq] at hafter
        exact .pure fun htokens => ⟨left, htokens ▸ hafter, hleft⟩
      next heq =>
        rw [heq] at hafter
        exact .pure fun htokens => htokens ▸ Option.some.inj hafter ▸ hleft

theorem skipGroup_leads {M : List Token → Prop} {permits : Diagnostic → Prop} :
    skipGroup.Leads permits place source
      (fun tokens => ∃ left, afterGroup 0 tokens = some left ∧ M left) F fun _ => M :=
  .loop (I := fun depth tokens => ∃ left, afterGroup depth tokens = some left ∧ M left)
    (fun _ _ => skipTurn_leads.post fun step _ => by cases step <;> exact id) 0

/-- What may be skipped inside of the stretch: a group, a common token, or any word where there
may be groups. -/
def Skippable (E : Enclosure) (kind : Kind) : Prop :=
  opensGroup kind = true ∨ kind.isCommon = true ∨ E.Grouped ∧ kind.isName = true

theorem skippable_of_grouped (hgrouped : E.Grouped) {kind : Kind}
    (h : kind ≠ .mark .closeBrace) : Skippable E kind := by
  by_cases hexport : kind = .word .export
  · exact .inr (.inr ⟨hgrouped, hexport ▸ rfl⟩)
  by_cases hopen : kind = .mark .openBrace
  · exact .inl (hopen ▸ rfl)
  · exact .inr (.inl (Kind.isCommon_of hopen h hexport))

/-- A group is skipped as a whole, and a token that opens none by itself. -/
theorem skipGroup_stays (h : Skippable E source.peek.kind) :
    skipGroup.Leads E.Permits place source (E.Holds home) F fun _ => E.Holds home := by
  refine skipGroup_leads.pre fun hholds => ?_
  by_cases hopens : opensGroup source.peek.kind = true
  · rw [(pending_eq hholds).1]
    exact E.group (holds_cons hholds) hopens
  · have hafter : afterGroup 0 source.pending = some source.advance.pending := by
      rw [(pending_eq hholds).1]
      simp [afterGroup, depthAfter, hopens]
    refine ⟨_, hafter, ?_⟩
    obtain hcommon | ⟨hgrouped, hname⟩ := h.resolve_left hopens
    · exact holds_advance hholds hcommon
    · exact holds_advance_word hgrouped hholds hname

/-- Skipping that stops at a closing brace comes to a token where it stops. -/
theorem skipGroupsUntil_leads (hgrouped : E.Grouped) {stop : Token → Bool}
    (hstop : ∀ token, token.kind = .mark .closeBrace → stop token = true) :
    (skipGroupsUntil stop).Leads E.Permits place source (E.Holds home) F fun _ tokens =>
      E.Holds home tokens ∧ ∃ token rest, tokens = token :: rest ∧ stop token = true := by
  refine .loop (I := fun _ => E.Holds home) (fun _ source => .observe .peek ?_) ()
  split
  next h =>
    refine .pure fun hholds => ⟨hholds, source.peek, source.advance.pending, ?_⟩
    obtain ⟨hpending, hkind⟩ := pending_eq hholds
    simp only [hkind, decide_false, Bool.false_or] at h
    exact ⟨hpending, h⟩
  next h =>
    refine .bind (skipGroup_stays (skippable_of_grouped hgrouped ?_)) fun _ _ => .pure id
    intro hclose
    simp [hstop _ hclose] at h

theorem skipGroupsUntil_stays (hgrouped : E.Grouped) {stop : Token → Bool}
    (hstop : ∀ token, token.kind = .mark .closeBrace → stop token = true) :
    (skipGroupsUntil stop).Stays home place source :=
  (skipGroupsUntil_leads hgrouped hstop).post fun _ _ => And.left

/-- The word `export` does not begin what is left unless there may be groups. -/
def BeginsWithin (E : Enclosure) (tokens : List Token) : Prop :=
  E.Grouped ∨ ∀ token ∈ tokens.head?, token.kind ≠ .word .export

/-- An initializer that has begun ends at the latest at the word `export` that begins a line. -/
theorem holds_advance_initializer {begun : Bool} (hholds : E.Holds home source.pending)
    (hbegins : begun = true ∨ BeginsWithin E source.pending)
    (hopens : opensGroup source.peek.kind ≠ true) (hcloses : closesGroup source.peek.kind ≠ true)
    (hline : ¬(source.peek.newlineBefore && begun) = true) :
    E.Holds home source.advance.pending := by
  by_cases hexport : source.peek.kind = .word .export
  · obtain ⟨-, hrest⟩ | ⟨hplain, hnewline⟩ := E.resumes (holds_cons hholds) hexport
    · exact hrest
    · rw [hnewline, Bool.true_and] at hline
      have hhead := (hbegins.resolve_left hline).resolve_left hplain
      rw [(pending_eq hholds).1] at hhead
      exact absurd hexport (hhead _ rfl)
  · apply holds_advance hholds
    apply Kind.isCommon_of _ _ hexport
    · intro heq
      exact hopens (heq ▸ rfl)
    · intro heq
      exact hcloses (heq ▸ rfl)

/-- An initializer is skipped up to the word `export` at the start of a line, unless it begins
with that. -/
theorem skipInitializer_leads :
    skipInitializer.Leads E.Permits place source
      (fun tokens => E.Holds home tokens ∧ BeginsWithin E tokens) F fun _ => E.Holds home := by
  refine (Leads.loop (I := fun begun tokens => E.Holds home tokens ∧
    (begun = true ∨ BeginsWithin E tokens)) (fun begun source => .observe .peek ?_) false).pre
      (And.imp_right .inr)
  split
  next => exact .pure And.left
  next hgoes =>
    simp only [Bool.or_eq_true, decide_eq_true_eq, not_or] at hgoes
    split
    next hopens =>
      refine .bind (Q := fun _ => E.Holds home)
        ((skipGroup_stays (.inl hopens)).pre And.left) fun _ _ => ?_
      exact .pure fun hholds => ⟨hholds, .inl rfl⟩
    next hopens =>
      split
      next => exact .pure And.left
      next hline =>
        refine .advance_bind (M := E.Holds home) (fun ⟨hholds, hbegins⟩ => ?_) <|
          .pure fun hholds => ⟨hholds, .inl rfl⟩
        exact holds_advance_initializer hholds hbegins hopens hgoes.1.2 hline

theorem skipInitializer_stays (h : E.Grouped ∨ source.peek.kind ≠ .word .export) :
    skipInitializer.Leads E.Permits place source (E.Holds home) F fun _ => E.Holds home := by
  refine skipInitializer_leads.pre fun hholds => ⟨hholds, ?_⟩
  refine h.imp_right fun hkind token htoken => ?_
  rw [(pending_eq hholds).1] at htoken
  cases htoken
  exact hkind

/-! ## Ends of statements and bodies -/

theorem endStatement_stays : endStatement.Stays home place source := by
  refine .observe .peek ?_
  split
  next h => exact .common_bind (h ▸ rfl) .idle
  next =>
    split
    · exact .idle
    · exact .expectOrReport rfl

theorem skipBody_stays : skipBody.Stays home place source := by
  refine .observe .peekKind ?_
  split
  next h => exact .reportHere_bind fun _ => skipGroup_stays (.inl (h ▸ rfl))
  next => exact .idle

/-- Skipping to the next statement does not go beyond a token that begins one. -/
theorem skipToStatement_stays :
    skipToStatement.Leads E.Permits place source (E.Holds home) F fun _ => E.Holds home := by
  refine .loop_evenly (fun _ source => .observe .peek ?_) ()
  split
  next => exact .idle
  next => exact .idle
  next h => exact .common_bind (h ▸ rfl) .idle
  next h => exact .bind (skipGroup_stays (.inl (h ▸ rfl))) fun _ _ => .idle
  next hend hclose _ hopen =>
    split
    next => exact .idle
    next hbegins =>
      refine .common_bind ?_ .idle
      have hexport : source.peek.kind ≠ .word .export := by
        intro heq
        simp [beginsStatement, heq] at hbegins
      exact Kind.isCommon_of hopen hclose hexport

end DeclFile.Parser

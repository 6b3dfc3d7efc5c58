import DeclFile.Proofs.Meets
import DeclFile.Token.Stream

/-! # Tokens stand in order

The spans of the tokens of a text follow one another. Positions only move forward, so each
piece begins where the one before it ended or later, and what is left out of a list of
tokens does not change the order of the others.
-/

namespace DeclFile

/-- The first span ends before the second one begins. -/
def Span.Precedes (first second : Span) : Prop := first.stop.offset ≤ second.start.offset

/-- The spans lie in the source one after another. -/
structure InOrder (source : SourceId) (spans : List Span) : Prop where
  source : ∀ span ∈ spans, span.source = source
  forward : ∀ span ∈ spans, span.start.offset ≤ span.stop.offset
  pairwise : spans.Pairwise Span.Precedes

theorem InOrder.sublist {source : SourceId} {spans fewer : List Span} (h : InOrder source spans)
    (hfewer : fewer.Sublist spans) : InOrder source fewer where
  source span hspan := h.source span (hfewer.subset hspan)
  forward span hspan := h.forward span (hfewer.subset hspan)
  pairwise := h.pairwise.sublist hfewer

namespace Pos

theorem offset_lt_after (pos : Pos) (c : Char) : pos.offset < (pos.after c).offset := by
  have hsize := c.utf8Size_pos
  unfold after
  split
  all_goals
    simp only
    omega

theorem offset_le_through (pos : Pos) (chars : List Char) :
    pos.offset ≤ (pos.through chars).offset := by
  induction chars generalizing pos with
  | nil => exact Nat.le_refl _
  | cons c chars ih => exact Nat.le_trans (Nat.le_of_lt (pos.offset_lt_after c)) (ih _)

theorem offset_lt_through (pos : Pos) (c : Char) (chars : List Char) :
    pos.offset < (pos.through (c :: chars)).offset :=
  Nat.lt_of_lt_of_le (pos.offset_lt_after c) (offset_le_through _ _)

theorem offset_through_take_le (pos : Pos) (chars : List Char) (n : Nat) :
    (pos.through (chars.take n)).offset ≤ (pos.through chars).offset := by
  conv => rhs; rw [← List.take_append_drop n chars, through_append]
  exact offset_le_through _ _

end Pos

/-! ## Pieces -/

/-- The spans are in order, none of them is empty, and all lie between two offsets. -/
structure Spaced (source : SourceId) (low high : Nat) (spans : List Span) : Prop where
  source : ∀ span ∈ spans, span.source = source
  inside : ∀ span ∈ spans, low ≤ span.start.offset ∧ span.start.offset < span.stop.offset ∧
    span.stop.offset ≤ high
  pairwise : spans.Pairwise Span.Precedes

namespace Spaced

variable {source : SourceId} {low low' high : Nat} {spans : List Span}

theorem nil : Spaced source low high [] := ⟨by simp, by simp, .nil⟩

theorem mono (h : Spaced source low' high spans) (hlow : low ≤ low') :
    Spaced source low high spans where
  source := h.source
  inside span hspan := ⟨Nat.le_trans hlow (h.inside span hspan).1, (h.inside span hspan).2⟩
  pairwise := h.pairwise

theorem cons {span : Span} (h : Spaced source low' high spans) (hsource : span.source = source)
    (hinside : low ≤ span.start.offset ∧ span.start.offset < span.stop.offset ∧
      span.stop.offset ≤ high) (hlow : span.stop.offset ≤ low') :
    Spaced source low high (span :: spans) where
  source := List.forall_mem_cons.mpr ⟨hsource, h.source⟩
  inside := by
    refine List.forall_mem_cons.mpr ⟨hinside, fun other hother => ?_⟩
    have hbetween := h.inside other hother
    omega
  pairwise := .cons (fun other hother => Nat.le_trans hlow (h.inside other hother).1) h.pairwise

/-- Something may follow at the end. -/
theorem concat (h : Spaced source low high spans) (last : Span) (hsource : last.source = source)
    (hstart : high ≤ last.start.offset) (hforward : last.start.offset ≤ last.stop.offset) :
    InOrder source (spans ++ [last]) where
  source := List.forall_mem_append.mpr ⟨h.source, by simpa using hsource⟩
  forward := List.forall_mem_append.mpr
    ⟨fun span hspan => Nat.le_of_lt (h.inside span hspan).2.1, by simpa using hforward⟩
  pairwise := by
    refine List.pairwise_append.mpr ⟨h.pairwise, List.pairwise_singleton _ _, ?_⟩
    intro span hspan other hother
    rw [List.mem_singleton.mp hother]
    exact Nat.le_trans (h.inside span hspan).2.2 hstart

end Spaced

/-- The pieces of what is left of a text lie between the end of the last one and the end of
the text. -/
theorem piecesOnto_spaced (source : SourceId) (skip : Nat) (state : LexState)
    (chars : List Char) :
    (piecesOnto source [] skip state chars).2.pos = state.pos.through chars ∧
    Spaced source (state.pos.through (chars.take skip)).offset (state.pos.through chars).offset
      ((piecesOnto source [] skip state chars).1.map Piece.span) := by
  induction chars generalizing skip state with
  | nil => exact ⟨rfl, .nil⟩
  | cons c rest ih =>
      cases skip with
      | succ skip => exact ih skip (state.afterChar c)
      | zero =>
          rw [piecesOnto]
          split
          · obtain ⟨hpos, hspaced⟩ := ih 0 (state.afterSpace c)
            exact ⟨hpos, hspaced.mono (Nat.le_of_lt (state.pos.offset_lt_after c))⟩
          · rw [piecesOnto_eq]
            obtain ⟨hpos, hspaced⟩ := ih (Lexeme.read state.depths c rest).length
              (state.afterLexeme c rest (Lexeme.read state.depths c rest))
            refine ⟨hpos, hspaced.cons rfl ⟨Nat.le_refl _, ?_, ?_⟩ (Nat.le_refl _)⟩
            · exact state.pos.offset_lt_through c _
            · exact (state.pos.after c).offset_through_take_le rest _

/-! ## Tokens -/

theorem map_span_token?_sublist (pieces : List Piece) :
    ((pieces.filterMap Piece.token?).map Token.span).Sublist (pieces.map Piece.span) := by
  induction pieces with
  | nil => exact .slnil
  | cons piece pieces ih =>
      obtain ⟨_ | kind, text, span, newlineBefore, fault⟩ := piece
      · exact .cons _ ih
      · exact .cons_cons _ ih

theorem map_span_error?_sublist (pieces : List Piece) :
    ((pieces.filterMap Piece.error?).map LexicalError.span).Sublist (pieces.map Piece.span) := by
  induction pieces with
  | nil => exact .slnil
  | cons piece pieces ih =>
      obtain ⟨kind, text, span, newlineBefore, _ | fault⟩ := piece
      · exact .cons _ ih
      · exact .cons_cons _ ih

namespace Lexeme

theorem kind_template_ne {whole part : Kind} (depths : List Nat) (body : Body)
    (hwhole : whole ≠ .endOfText) (hpart : part ≠ .endOfText) :
    (template depths whole part body).kind ≠ some .endOfText := by
  unfold template
  split <;> simpa

theorem kind_number_ne (depths : List Nat) (first : Char) (rest : List Char) :
    (number depths first rest).kind ≠ some .endOfText := by
  unfold number
  split <;> simp [plain]

theorem kind_dot_ne (depths : List Nat) (rest : List Char) :
    (dot depths rest).kind ≠ some .endOfText := by
  unfold dot
  repeat' split
  all_goals first | exact kind_number_ne _ _ _ | simp [plain]

theorem kind_lineComment_ne (depths : List Nat) (rest : List Char) :
    (lineComment depths rest).kind ≠ some .endOfText := by
  unfold lineComment
  dsimp only
  split <;> simp [plain]

theorem kind_word_ne (depths : List Nat) (first : Char) (rest : List Char) :
    (word depths first rest).kind ≠ some .endOfText := by
  unfold word plain
  dsimp only
  split <;> simp

/-- No lexeme is the end of the text. -/
theorem kind_read_ne (depths : List Nat) (c : Char) (rest : List Char) :
    (read depths c rest).kind ≠ some .endOfText := by
  unfold read
  split
  · simp [plain]
  split
  · unfold openBrace
    split <;> simp [plain]
  · unfold closeBrace
    split
    · exact kind_template_ne _ _ (by simp) (by simp)
    all_goals simp [plain]
  · exact kind_dot_ne _ _
  · split <;> simp [plain]
  · split
    · exact kind_lineComment_ne _ _
    · simp [blockComment]
    · simp [plain]
  · simp [string]
  · simp [string]
  · exact kind_template_ne _ _ (by simp) (by simp)
  · split <;> simp [plain, unexpected]
  · split
    · exact kind_number_ne _ _ _
    split
    · exact kind_word_ne _ _ _
    · simp [unexpected]

end Lexeme

/-- No piece of a text is its end. -/
theorem kind_ne_of_mem_piecesOnto {source : SourceId} {skip : Nat} {state : LexState}
    {chars : List Char} {piece : Piece} (h : piece ∈ (piecesOnto source [] skip state chars).1) :
    piece.kind ≠ some .endOfText := by
  induction chars generalizing skip state with
  | nil => simp [piecesOnto] at h
  | cons c rest ih =>
      cases skip with
      | succ skip => exact ih h
      | zero =>
          rw [piecesOnto] at h
          split at h
          · exact ih h
          · rw [piecesOnto_eq] at h
            obtain rfl | h := List.mem_cons.mp h
            · exact Lexeme.kind_read_ne _ _ _
            · exact ih h

/-! ## Streams -/

namespace TokenStream

/-- Only line breaks change. -/
theorem map_span_significantOnto_sublist (pending : Bool) (raw : List Token) :
    ((significantOnto [] pending raw).map Token.span).Sublist (raw.map Token.span) := by
  induction raw generalizing pending with
  | nil => exact .slnil
  | cons token raw ih =>
      rw [significantOnto]
      split
      · exact .cons _ (ih _)
      · rw [significantOnto_eq]
        exact .cons_cons _ (ih _)

theorem kind_of_mem_significantOnto {pending : Bool} {raw : List Token} {token : Token}
    (h : token ∈ significantOnto [] pending raw) : ∃ other ∈ raw, other.kind = token.kind := by
  induction raw generalizing pending with
  | nil => simp [significantOnto] at h
  | cons first raw ih =>
      rw [significantOnto] at h
      split at h
      · obtain ⟨other, hother, hkind⟩ := ih h
        exact ⟨other, List.mem_cons_of_mem _ hother, hkind⟩
      · rw [significantOnto_eq] at h
        obtain rfl | h := List.mem_cons.mp h
        · exact ⟨first, List.mem_cons_self, rfl⟩
        · obtain ⟨other, hother, hkind⟩ := ih h
          exact ⟨other, List.mem_cons_of_mem _ hother, hkind⟩

theorem significantOnto_concat (pending : Bool) (raw : List Token) (last : Token)
    (hlast : last.kind.isTrivia = false) :
    ∃ newline, significantOnto [] pending (raw ++ [last]) =
      significantOnto [] pending raw ++ [{ last with newlineBefore := newline }] := by
  induction raw generalizing pending with
  | nil => exact ⟨last.newlineBefore || pending, by simp [significantOnto, hlast]⟩
  | cons token raw ih =>
      rw [List.cons_append, significantOnto, significantOnto]
      split
      · exact ih _
      · obtain ⟨newline, heq⟩ := ih false
        refine ⟨newline, ?_⟩
        rw [significantOnto_eq, heq, significantOnto_eq [_] false raw]
        simp

/-- Tokens that are all significant are kept as they are. -/
theorem significantOnto_of_significant {raw : List Token}
    (h : ∀ token ∈ raw, token.kind.isTrivia = false) : significantOnto [] false raw = raw := by
  induction raw with
  | nil => rfl
  | cons first raw ih =>
      have hfirst := h first List.mem_cons_self
      have hrest := ih fun token htoken => h token (.tail _ htoken)
      simp [significantOnto, hfirst, significantOnto_eq [first], hrest]

end TokenStream

/-! ## The tokens of a text -/

section

variable (text : String) (source : SourceId)

/-- The pieces of a text, and the state at its end. -/
def textPieces : List Piece × LexState := piecesOnto source [] 0 .initial text.toList

/-- The tokens of a text before its end, comments and directives among them. -/
def textTokens : List Token := (textPieces text source).1.filterMap Piece.token?

/-- The end of a text. -/
def textEnd : Token :=
  ⟨.endOfText, "", .point source (textPieces text source).2.pos, (textPieces text source).2.newline⟩

/-- The stream of the tokens of a text. -/
def textStream : TokenStream := .ofTokens (lex text source).tokens

theorem lex_tokens : (lex text source).tokens = textTokens text source ++ [textEnd text source] :=
  rfl

theorem spaced_textPieces : Spaced source 0 (textPieces text source).2.pos.offset
    ((textPieces text source).1.map Piece.span) := by
  have hspaced := piecesOnto_spaced source 0 .initial text.toList
  rw [← hspaced.1] at hspaced
  exact hspaced.2

/-- The tokens of a text are in order. -/
theorem inOrder_lex : InOrder source ((lex text source).tokens.map Token.span) := by
  rw [lex_tokens, List.map_append]
  have hpieces := (spaced_textPieces text source).concat (textEnd text source).span rfl
    (Nat.le_refl _) (Nat.le_refl _)
  exact hpieces.sublist ((map_span_token?_sublist _).append (List.Sublist.refl _))

/-- The lexical errors of a text are in order. -/
theorem inOrder_lex_errors :
    InOrder source ((lex text source).errors.map LexicalError.span) := by
  have hspaced := spaced_textPieces text source
  have hpieces : InOrder source ((textPieces text source).1.map Piece.span) :=
    ⟨hspaced.source, fun span hspan => Nat.le_of_lt (hspaced.inside span hspan).2.1,
      hspaced.pairwise⟩
  exact hpieces.sublist (map_span_error?_sublist _)

theorem kind_ne_of_mem_textTokens {token : Token} (h : token ∈ textTokens text source) :
    token.kind ≠ .endOfText := by
  obtain ⟨piece, hpiece, htoken⟩ := List.mem_filterMap.mp h
  have hkind := kind_ne_of_mem_piecesOnto hpiece
  obtain ⟨kind, hsome, rfl⟩ := Option.map_eq_some_iff.mp htoken
  simpa [hsome] using hkind

/-- The stream keeps the end of the text apart. -/
theorem textStream_spec :
    (textStream text source).pending =
      TokenStream.significantOnto [] false (textTokens text source) ∧
    (textStream text source).last.span = (textEnd text source).span ∧
    (textStream text source).directives =
      (textTokens text source).filter (·.kind == .directive) := by
  obtain ⟨newline, heq⟩ :=
    TokenStream.significantOnto_concat false (textTokens text source) (textEnd text source) rfl
  have hend : (textEnd text source).kind = .endOfText := rfl
  simp [textStream, TokenStream.ofTokens, lex_tokens, heq, hend]

theorem textStream_ends {token : Token} (h : token ∈ (textStream text source).pending) :
    token.kind ≠ .endOfText := by
  rw [(textStream_spec text source).1] at h
  obtain ⟨other, hother, hkind⟩ := TokenStream.kind_of_mem_significantOnto h
  exact hkind ▸ kind_ne_of_mem_textTokens text source hother

/-- No token before the end of the text is empty. -/
theorem textStream_nonempty {token : Token} (h : token ∈ (textStream text source).pending) :
    token.span.start.offset < token.span.stop.offset := by
  rw [(textStream_spec text source).1] at h
  have hspan := (TokenStream.map_span_significantOnto_sublist _ _).subset (List.mem_map_of_mem h)
  have hpiece := (map_span_token?_sublist _).subset hspan
  exact ((spaced_textPieces text source).inside _ hpiece).2.1

/-- No span is in the stream that is not in the text. -/
theorem textStream_sublist :
    ((textStream text source).tokens.map Token.span).Sublist
      ((lex text source).tokens.map Token.span) := by
  obtain ⟨hpending, hlast, -⟩ := textStream_spec text source
  rw [TokenStream.tokens, lex_tokens, List.map_append, List.map_append, hpending]
  refine (TokenStream.map_span_significantOnto_sublist _ _).append ?_
  simp [hlast]

theorem textStream_directives_sublist :
    ((textStream text source).directives.map Token.span).Sublist
      ((lex text source).tokens.map Token.span) := by
  rw [(textStream_spec text source).2.2, lex_tokens, List.map_append]
  exact (List.filter_sublist.map _).trans (List.sublist_append_left _ _)

theorem textStream_inOrder :
    InOrder source ((textStream text source).tokens.map Token.span) :=
  (inOrder_lex text source).sublist (textStream_sublist text source)

theorem textStream_directives_inOrder :
    InOrder source ((textStream text source).directives.map Token.span) :=
  (inOrder_lex text source).sublist (textStream_directives_sublist text source)

end

end DeclFile

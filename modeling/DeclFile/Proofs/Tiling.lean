import Mathlib.Data.List.Pairwise
import DeclFile.Proofs.Cutting

/-! # Reading a text neither loses nor repeats a character

The tokens of a text, comments and directives among them, and the characters that begin no
token stand one after another. None of them is empty but the end of the text, only white space
is left between them, and the text of a token is what stands in the source at its span, unless
it is a literal or a directive, whose text is worked out from that.
-/

namespace DeclFile

open Unicode

/-- Whether the text of a token of this kind is worked out from what stands in the source. -/
def Kind.isCooked : Kind → Bool
  | .stringLiteral | .bigintLiteral | .directive => true
  | .templateWhole | .templateHead | .templateMiddle | .templateTail => true
  | _ => false

/-! ## Lexemes -/

namespace Lexeme

/-- The lexeme has a text of its own only if it is cooked, and it is a single character without
a token if that is what is wrong with it. -/
structure Faithful (lexeme : Lexeme) : Prop where
  text_eq : ∀ kind, lexeme.kind = some kind → kind.isCooked = false → lexeme.text = none
  kind_eq : ∀ c, lexeme.fault = some (.unexpectedChar c) → lexeme.kind = none
  fault_eq : lexeme.kind = none → ∃ c, lexeme.fault = some (.unexpectedChar c)

variable (depths : List Nat)

theorem faithful_plain (kind : Kind) (length : Nat) : (plain depths kind length).Faithful :=
  ⟨fun _ _ _ => rfl, nofun, nofun⟩

theorem faithful_cooked {kind : Kind} (hkind : kind.isCooked = true) (length : Nat)
    (text : Option (List Char)) {fault : Option Fault} 
    (hfault : ∀ c, fault ≠ some (.unexpectedChar c)) :
    Faithful ⟨some kind, length, text, fault, depths⟩ := by
  refine ⟨?_, fun c h => absurd h (hfault c), nofun⟩
  rintro _ ⟨⟩ hplain
  rw [hkind] at hplain
  cases hplain

theorem faithful_template {whole part : Kind} (hwhole : whole.isCooked = true)
    (hpart : part.isCooked = true) (body : Body) : (template depths whole part body).Faithful := by
  unfold template
  split
  · exact faithful_cooked _ hwhole _ _ nofun
  · exact faithful_cooked _ hpart _ _ nofun
  · exact faithful_cooked _ hwhole _ _ nofun

theorem faithful_string (body : Body) : (string depths body).Faithful := by
  apply faithful_cooked _ rfl
  intro c
  split <;> simp

theorem faithful_number (first : Char) (rest : List Char) :
    (number depths first rest).Faithful := by
  unfold number
  dsimp only
  split
  · exact faithful_cooked _ rfl _ _ nofun
  · exact faithful_plain _ _ _

theorem faithful_lineComment (rest : List Char) : (lineComment depths rest).Faithful := by
  unfold lineComment
  dsimp only
  split
  · exact faithful_cooked _ rfl _ _ nofun
  · exact faithful_plain _ _ _

theorem faithful_blockComment (rest : List Char) : (blockComment depths rest).Faithful := by
  refine ⟨fun _ _ _ => rfl, fun c h => ?_, nofun⟩
  unfold blockComment at h
  dsimp only at h
  split at h <;> cases h

theorem faithful_unexpected (c : Char) : (unexpected depths c).Faithful :=
  ⟨nofun, fun _ _ => rfl, fun _ => ⟨c, rfl⟩⟩

theorem faithful_closeBrace (rest : List Char) : (closeBrace rest depths).Faithful := by
  unfold closeBrace
  split
  · exact faithful_template _ rfl rfl _
  all_goals exact faithful_plain _ _ _

theorem faithful_openBrace : (openBrace depths).Faithful := by
  unfold openBrace
  split <;> exact faithful_plain _ _ _

theorem faithful_dot (rest : List Char) : (dot depths rest).Faithful := by
  unfold dot
  repeat' split
  all_goals first | exact faithful_number _ _ _ | exact faithful_plain _ _ _

theorem faithful_read (c : Char) (rest : List Char) : (read depths c rest).Faithful := by
  unfold read
  split
  · exact faithful_plain _ _ _
  split
  · exact faithful_openBrace _
  · exact faithful_closeBrace _ _
  · exact faithful_dot _ _
  · split <;> exact faithful_plain _ _ _
  · split
    · exact faithful_lineComment _ _
    · exact faithful_blockComment _ _
    · exact faithful_plain _ _ _
  · exact faithful_string _ _
  · exact faithful_string _ _
  · exact faithful_template _ rfl rfl _
  · split
    · exact faithful_plain _ _ _
    · exact faithful_unexpected _ _
  · split
    · exact faithful_number _ _ _
    split
    · exact faithful_plain _ _ _
    · exact faithful_unexpected _ _

end Lexeme

/-! ## Tiles -/

/-- Whether an error is a character that begins no token. -/
def LexicalError.isStray (error : LexicalError) : Bool :=
  match error.fault with
  | .unexpectedChar _ => true
  | _ => false

/-- The characters of a text that begin no token. -/
def Lexed.strays (lexed : Lexed) : List LexicalError :=
  lexed.errors.filter (·.isStray)

/-- The spans of the tokens and stray characters of a text. -/
def Lexed.spans (lexed : Lexed) : List Span :=
  lexed.tokens.map Token.span ++ lexed.strays.map LexicalError.span

/-- The tokens and stray characters cover the text without overlapping. -/
structure Lexed.Tiles (lexed : Lexed) (text : String) : Prop where
  /-- The last token, and no other, is the end of the text. -/
  ends : ∃ others last, lexed.tokens = others ++ [last] ∧
    (∀ token ∈ others, token.kind ≠ .endOfText) ∧ last.kind = .endOfText ∧
    last.span.start = last.span.stop ∧ last.span.stop.offset = text.utf8ByteSize
  tokens_nonempty : ∀ token ∈ lexed.tokens, token.kind ≠ .endOfText →
    token.span.start.offset < token.span.stop.offset
  strays_nonempty : ∀ stray ∈ lexed.strays, stray.span.start.offset < stray.span.stop.offset
  tokens_inOrder : (lexed.tokens.map Token.span).Pairwise Span.Precedes
  strays_inOrder : (lexed.strays.map LexicalError.span).Pairwise Span.Precedes
  apart : ∀ token ∈ lexed.tokens, ∀ stray ∈ lexed.strays,
    token.span.Precedes stray.span ∨ stray.span.Precedes token.span
  /-- A character outside of all spans is white space. -/
  covered : ∀ before c after, text.toList = before ++ c :: after → isWhiteSpace c = false →
    ∃ span ∈ lexed.spans, span.start.offset ≤ (String.ofList before).utf8ByteSize ∧
      (String.ofList (before ++ [c])).utf8ByteSize ≤ span.stop.offset
  /-- The text of a token that is not cooked is the slice of the source at its span. -/
  verbatim : ∀ token ∈ lexed.tokens, token.kind.isCooked = false →
    token.text =
      String.Pos.Raw.extract text ⟨token.span.start.offset⟩ ⟨token.span.stop.offset⟩

section

variable {text : String} {source : SourceId}

/-- A stray character is a piece that is no token. -/
theorem exists_piece_of_mem_strays {stray : LexicalError} (h : stray ∈ (lex text source).strays) :
    ∃ piece ∈ (textPieces text source).1, piece.kind = none ∧ piece.span = stray.span := by
  obtain ⟨herror, hstray⟩ := List.mem_filter.mp h
  obtain ⟨piece, hpiece, hfault⟩ := List.mem_filterMap.mp herror
  obtain ⟨fault, hsome, rfl⟩ := Option.map_eq_some_iff.mp hfault
  refine ⟨piece, hpiece, ?_, rfl⟩
  obtain ⟨before, c, rest, place, _, rfl, -, -, rfl⟩ := exists_lexeme_of_mem hpiece
  cases fault with
  | unexpectedChar d => exact (Lexeme.faithful_read _ _ _).kind_eq d hsome
  | _ => cases hstray

/-- Each piece is a token or a stray character. -/
theorem span_mem_spans {piece : Piece} (h : piece ∈ (textPieces text source).1) :
    piece.span ∈ (lex text source).spans := by
  apply List.mem_append.mpr
  cases hkind : piece.kind with
  | some kind =>
      have htoken : piece.token? = some ⟨kind, piece.text, piece.span, piece.newlineBefore⟩ := by
        rw [Piece.token?, hkind, Option.map_some]
      have hmem : ⟨kind, piece.text, piece.span, piece.newlineBefore⟩ ∈ textTokens text source :=
        List.mem_filterMap.mpr ⟨_, h, htoken⟩
      exact .inl (List.mem_map.mpr ⟨_, List.mem_append_left _ hmem, rfl⟩)
  | none =>
      have hfault : ∃ c, piece.fault = some (.unexpectedChar c) := by
        obtain ⟨before, c, rest, place, _, rfl, -, -, rfl⟩ := exists_lexeme_of_mem h
        exact (Lexeme.faithful_read _ _ _).fault_eq hkind
      obtain ⟨c, hfault⟩ := hfault
      have herror : piece.error? = some ⟨.unexpectedChar c, piece.span⟩ := by
        rw [Piece.error?, hfault, Option.map_some]
      have hmem : ⟨.unexpectedChar c, piece.span⟩ ∈ (lex text source).errors :=
        List.mem_filterMap.mpr ⟨_, h, herror⟩
      exact .inr (List.mem_map.mpr ⟨_, List.mem_filter.mpr ⟨hmem, rfl⟩, rfl⟩)

/-- No piece of a text is empty, and none goes beyond its end. -/
theorem offset_lt_of_mem_textPieces {piece : Piece} (h : piece ∈ (textPieces text source).1) :
    piece.span.start.offset < piece.span.stop.offset ∧
      piece.span.stop.offset ≤ (textPieces text source).2.pos.offset :=
  ((spaced_textPieces text source).inside _ (List.mem_map_of_mem h)).2

/-- Two pieces of a text do not overlap. -/
theorem precedes_of_mem_textPieces {first second : Piece}
    (hfirst : first ∈ (textPieces text source).1) (hsecond : second ∈ (textPieces text source).1)
    (hne : first ≠ second) :
    first.span.Precedes second.span ∨ second.span.Precedes first.span := by
  have hapart : (textPieces text source).1.Pairwise fun first second =>
      first.span.Precedes second.span ∨ second.span.Precedes first.span :=
    (List.pairwise_map.mp (spaced_textPieces text source).pairwise).imp Or.inl
  have : Std.Symm fun first second : Piece =>
      first.span.Precedes second.span ∨ second.span.Precedes first.span := ⟨fun _ _ => Or.symm⟩
  exact hapart.forall hfirst hsecond hne

/-- A token and a stray character do not overlap, since no piece is both. -/
theorem token_apart_stray {token : Token} {stray : LexicalError}
    (htoken : token ∈ (lex text source).tokens) (hstray : stray ∈ (lex text source).strays) :
    token.span.Precedes stray.span ∨ stray.span.Precedes token.span := by
  obtain ⟨piece, hpiece, hnone, hspan⟩ := exists_piece_of_mem_strays hstray
  rw [← hspan]
  rcases mem_tokens_cases htoken with htoken | rfl
  · obtain ⟨other, hother, hsome, -, hspan'⟩ := exists_piece_of_mem_textTokens htoken
    rw [← hspan']
    apply precedes_of_mem_textPieces hother hpiece
    rintro rfl
    rw [hnone] at hsome
    cases hsome
  · exact .inr (offset_lt_of_mem_textPieces hpiece).2

/-- The text of a token that is not cooked is what stands in the source. -/
theorem text_eq_extract {piece : Piece} (h : piece ∈ (textPieces text source).1) {kind : Kind}
    (hkind : piece.kind = some kind) (hplain : kind.isCooked = false) :
    piece.text =
      String.Pos.Raw.extract text ⟨piece.span.start.offset⟩ ⟨piece.span.stop.offset⟩ := by
  obtain ⟨before, c, rest, place, lexeme, hread, hchars, hplace, rfl⟩ := exists_lexeme_of_mem h
  have hfaithful : lexeme.Faithful := hread ▸ Lexeme.faithful_read _ _ _
  have htext := hfaithful.text_eq kind hkind hplain
  have hslice := extract_through hchars
  rw [Pos.through_append, ← hplace] at hslice
  simp only [LexState.piece, htext, Option.getD_none]
  exact hslice.symm

end

/-- Reading a text neither loses nor repeats a character. -/
theorem lex_tiles (text : String) (source : SourceId) : (lex text source).Tiles text where
  ends := by
    refine ⟨textTokens text source, textEnd text source, rfl, ?_, rfl, rfl, ?_⟩
    · intro token htoken
      exact kind_ne_of_mem_textTokens text source htoken
    · change (textPieces text source).2.pos.offset = _
      rw [textPieces_last, Pos.offset_start_through, String.ofList_toList]
  tokens_nonempty := by
    intro token htoken hkind
    rcases mem_tokens_cases htoken with htoken | rfl
    · obtain ⟨piece, hpiece, -, -, hspan⟩ := exists_piece_of_mem_textTokens htoken
      rw [← hspan]
      exact (offset_lt_of_mem_textPieces hpiece).1
    · exact absurd rfl hkind
  strays_nonempty := by
    intro stray hstray
    obtain ⟨piece, hpiece, -, hspan⟩ := exists_piece_of_mem_strays hstray
    rw [← hspan]
    exact (offset_lt_of_mem_textPieces hpiece).1
  tokens_inOrder := (inOrder_lex text source).pairwise
  strays_inOrder := (inOrder_lex_errors text source).pairwise.sublist (List.filter_sublist.map _)
  apart _ htoken _ hstray := token_apart_stray htoken hstray
  covered := by
    intro before c after hchars hspace
    obtain ⟨piece, hpiece, hstart, hstop⟩ := (textPieces_cuts text source).within hchars hspace
    refine ⟨piece.span, span_mem_spans hpiece, ?_, ?_⟩
    · rw [← Pos.offset_start_through]
      exact hstart
    · rw [← Pos.offset_start_through]
      exact hstop
  verbatim := by
    intro token htoken hplain
    rcases mem_tokens_cases htoken with htoken | rfl
    · obtain ⟨piece, hpiece, hkind, htext, hspan⟩ := exists_piece_of_mem_textTokens htoken
      rw [← htext, ← hspan]
      exact text_eq_extract hpiece hkind hplain
    · have hend : text.toList = text.toList ++ [] ++ [] := by simp
      have hslice := extract_through hend
      rw [List.append_nil, ← textPieces_last text source] at hslice
      exact hslice.symm

end DeclFile

import Mathlib.Data.String.Basic
import DeclFile.Proofs.Order

/-! # How a text is cut

Reading a text keeps one place that moves over every character once. A character of white
space is left out; any other character begins a lexeme, and the place moves past all that
belongs to it. The rules here say this a whole lexeme at a time, so that what holds of each
piece follows by induction on how the text is cut.
-/

namespace DeclFile

open String (utf8Len)
open Unicode

namespace Pos

theorem offset_after (pos : Pos) (c : Char) : (pos.after c).offset = pos.offset + c.utf8Size := by
  unfold after
  split <;> rfl

/-- The offset after some characters counts their bytes. -/
theorem offset_through (pos : Pos) (chars : List Char) :
    (pos.through chars).offset = pos.offset + utf8Len chars := by
  induction chars generalizing pos with
  | nil => rfl
  | cons c chars ih =>
      rw [through_cons, ih, offset_after, String.utf8Len_cons]
      omega

/-- From the beginning of a text the offset is the size of what was passed. -/
theorem offset_start_through (chars : List Char) :
    (start.through chars).offset = (String.ofList chars).utf8ByteSize := by
  rw [offset_through, start, Nat.zero_add, String.utf8ByteSize_ofList]

theorem offset_through_le_of_prefix (pos : Pos) {first second : List Char}
    (h : first <+: second) : (pos.through first).offset ≤ (pos.through second).offset := by
  obtain ⟨more, rfl⟩ := h
  rw [through_append]
  exact offset_le_through _ _

theorem through_concat (pos : Pos) (chars : List Char) (c : Char) :
    pos.through (chars ++ [c]) = (pos.through chars).after c := by
  rw [through_append]
  rfl

end Pos

/-- Reading on from a state cuts the characters into the pieces and ends in the last state. -/
inductive Cuts (source : SourceId) : LexState → List Char → List Piece → LexState → Prop
  | done (state : LexState) : Cuts source state [] [] state
  | space {state last : LexState} {c : Char} {rest : List Char} {pieces : List Piece}
      (hspace : isWhiteSpace c = true)
      (hrest : Cuts source (state.afterSpace c) rest pieces last) :
      Cuts source state (c :: rest) pieces last
  | lexeme {state next last : LexState} {c : Char} {rest : List Char} {pieces : List Piece}
      {lexeme : Lexeme} (hspace : isWhiteSpace c = false)
      (hread : Lexeme.read state.depths c rest = lexeme)
      (hnext : next.pos = state.pos.through (c :: rest.take lexeme.length))
      (hrest : Cuts source next (rest.drop lexeme.length) pieces last) :
      Cuts source state (c :: rest) (state.piece source c rest lexeme :: pieces) last

/-- Passing the characters of a lexeme one by one is passing it as a whole. -/
theorem piecesOnto_cuts (source : SourceId) (skip : Nat) (state : LexState) (chars : List Char) :
    Cuts source { state with pos := state.pos.through (chars.take skip) } (chars.drop skip)
      (piecesOnto source [] skip state chars).1 (piecesOnto source [] skip state chars).2 := by
  induction chars generalizing skip state with
  | nil =>
      rw [List.take_nil, List.drop_nil]
      exact .done state
  | cons c rest ih =>
      cases skip with
      | succ skip => exact ih skip (state.afterChar c)
      | zero =>
          rw [piecesOnto]
          by_cases hspace : isWhiteSpace c = true
          · rw [if_pos hspace]
            exact .space hspace (ih 0 (state.afterSpace c))
          · rw [if_neg hspace, piecesOnto_eq]
            exact .lexeme (Bool.eq_false_iff.mpr hspace) rfl rfl (ih _ _)

theorem textPieces_cuts (text : String) (source : SourceId) :
    Cuts source .initial text.toList (textPieces text source).1 (textPieces text source).2 :=
  piecesOnto_cuts source 0 .initial text.toList

/-- An element of two lists in a row stands in the first of them or in the second. -/
theorem mem_append_cases {α : Type} {first second before after : List α} {x : α}
    (h : first ++ second = before ++ x :: after) :
    (∃ more, first = before ++ x :: more) ∨
      ∃ more, before = first ++ more ∧ second = more ++ x :: after := by
  rcases List.append_eq_append_iff.mp h with hsecond | ⟨more, hfirst, hmore⟩
  · exact .inr hsecond
  · rcases List.cons_eq_append_iff.mp hmore with ⟨rfl, hsecond⟩ | ⟨more, rfl, -⟩
    · exact .inr ⟨[], by simpa using hfirst.symm, hsecond⟩
    · exact .inl ⟨more, hfirst⟩

namespace Cuts

variable {source : SourceId} {state last : LexState} {chars : List Char} {pieces : List Piece}

/-- At the end every character was passed once. -/
theorem pos_last (h : Cuts source state chars pieces last) :
    last.pos = state.pos.through chars := by
  induction h with
  | done => rfl
  | space _ _ ih => exact ih
  | @lexeme state next last c rest pieces lexeme _ _ hnext _ ih =>
      rw [ih, hnext, ← Pos.through_append, List.cons_append, List.take_append_drop]

/-- Each piece is the lexeme that begins at some character, at the place that the characters
before it lead to. -/
theorem of_mem (h : Cuts source state chars pieces last) {piece : Piece} (hpiece : piece ∈ pieces) :
    ∃ (before : List Char) (c : Char) (rest : List Char) (place : LexState),
      chars = before ++ c :: rest ∧
      place.pos = state.pos.through before ∧
      piece = place.piece source c rest (Lexeme.read place.depths c rest) := by
  induction h with
  | done => simp at hpiece
  | @space state last c rest pieces _ _ ih =>
      obtain ⟨before, d, more, place, rfl, hplace, heq⟩ := ih hpiece
      exact ⟨c :: before, d, more, place, rfl, hplace, heq⟩
  | @lexeme state next last c rest pieces lexeme _ hread hnext _ ih =>
      rcases List.mem_cons.mp hpiece with rfl | hpiece
      · exact ⟨[], c, rest, state, rfl, rfl, by rw [hread]⟩
      · obtain ⟨before, d, more, place, hrest, hplace, heq⟩ := ih hpiece
        refine ⟨c :: rest.take lexeme.length ++ before, d, more, place, ?_, ?_, heq⟩
        · rw [List.append_assoc, ← hrest, List.cons_append, List.take_append_drop]
        · rw [hplace, hnext, Pos.through_append]

/-- A character that is no white space stands within some piece. -/
theorem within (h : Cuts source state chars pieces last) {before after : List Char} {c : Char}
    (hchars : chars = before ++ c :: after) (hspace : isWhiteSpace c = false) :
    ∃ piece ∈ pieces, piece.span.start.offset ≤ (state.pos.through before).offset ∧
      (state.pos.through (before ++ [c])).offset ≤ piece.span.stop.offset := by
  induction h generalizing before with
  | done => simp at hchars
  | @space state last d rest pieces hd _ ih =>
      cases before with
      | nil =>
          obtain ⟨rfl, rfl⟩ := List.cons.inj hchars
          rw [hd] at hspace
          cases hspace
      | cons e before =>
          obtain ⟨rfl, rfl⟩ := List.cons.inj hchars
          exact ih rfl
  | @lexeme state next last d rest pieces lexeme _ _ hnext _ ih =>
      -- The character belongs to the first lexeme or stands in what follows it.
      rw [← List.take_append_drop lexeme.length rest, ← List.cons_append] at hchars
      rcases mem_append_cases hchars with ⟨more, hfirst⟩ | ⟨more, rfl, hrest⟩
      · refine ⟨_, List.mem_cons_self, state.pos.offset_le_through before, ?_⟩
        change _ ≤ (state.pos.through (d :: rest.take lexeme.length)).offset
        rw [hfirst, List.append_cons before c more]
        exact state.pos.offset_through_le_of_prefix (List.prefix_append _ _)
      · obtain ⟨piece, hpiece, hstart, hstop⟩ := ih hrest
        rw [List.append_assoc, Pos.through_append, Pos.through_append, ← hnext]
        exact ⟨piece, List.mem_cons_of_mem _ hpiece, hstart, hstop⟩

end Cuts

/-- Between two places of a text stand the characters that lead from the one to the other. -/
theorem extract_through {text : String} {before chars after : List Char}
    (h : text.toList = before ++ chars ++ after) :
    String.Pos.Raw.extract text ⟨(Pos.start.through before).offset⟩
      ⟨(Pos.start.through (before ++ chars)).offset⟩ = String.ofList chars := by
  have hslice := String.extract_of_valid before chars after
  rw [← h, String.ofList_toList, ← String.utf8Len_append, ← String.utf8ByteSize_ofList,
    ← String.utf8ByteSize_ofList, ← Pos.offset_start_through, ← Pos.offset_start_through] at hslice
  exact hslice

/-! ## The pieces of a text -/

section

variable {text : String} {source : SourceId}

/-- A piece of a text is the lexeme that begins after the characters before it. -/
theorem exists_lexeme_of_mem {piece : Piece} (h : piece ∈ (textPieces text source).1) :
    ∃ (before : List Char) (c : Char) (rest : List Char) (place : LexState) (lexeme : Lexeme),
      lexeme = Lexeme.read place.depths c rest ∧
      text.toList = before ++ c :: rest.take lexeme.length ++ rest.drop lexeme.length ∧
      place.pos = Pos.start.through before ∧ piece = place.piece source c rest lexeme := by
  obtain ⟨before, c, rest, place, hchars, hplace, heq⟩ := (textPieces_cuts text source).of_mem h
  refine ⟨before, c, rest, place, _, rfl, ?_, hplace, heq⟩
  rw [hchars, List.append_assoc, List.cons_append, List.take_append_drop]

/-- A token before the end of the text is a piece with a kind. -/
theorem exists_piece_of_mem_textTokens {token : Token} (h : token ∈ textTokens text source) :
    ∃ piece ∈ (textPieces text source).1, piece.kind = some token.kind ∧
      piece.text = token.text ∧ piece.span = token.span := by
  obtain ⟨piece, hpiece, htoken⟩ := List.mem_filterMap.mp h
  obtain ⟨kind, hkind, rfl⟩ := Option.map_eq_some_iff.mp htoken
  exact ⟨piece, hpiece, hkind, rfl, rfl⟩

theorem mem_tokens_cases {token : Token} (h : token ∈ (lex text source).tokens) :
    token ∈ textTokens text source ∨ token = textEnd text source := by
  rw [lex_tokens] at h
  exact (List.mem_append.mp h).imp_right List.mem_singleton.mp

/-- The end of the text is where its characters lead to. -/
theorem textPieces_last (text : String) (source : SourceId) :
    (textPieces text source).2.pos = Pos.start.through text.toList :=
  (textPieces_cuts text source).pos_last

end

end DeclFile

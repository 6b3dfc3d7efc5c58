import Mathlib.Data.List.DropRight
import DeclFile.Proofs.Cutting

/-! # Reported positions are the true ones

A position is moved on character by character while a text is read. What it says can also be
found by counting in the text itself: the offset is the size of all characters before it, the
line counts the line feeds among them, and the column counts those after the last line feed.
-/

namespace DeclFile

/-- The position is the one that counting finds after some characters. -/
structure Pos.IsAfter (pos : Pos) (chars : List Char) : Prop where
  offset : pos.offset = (String.ofList chars).utf8ByteSize
  line : pos.line = 1 + chars.count '\n'
  column : pos.column = 1 + (chars.rtakeWhile (· != '\n')).length

/-- The position is the one that counting finds somewhere in a text, between two characters. -/
def Pos.IsTrueIn (pos : Pos) (text : String) : Prop :=
  ∃ before, before <+: text.toList ∧ pos.IsAfter before

/-- Counters of 32 bits hold the line and the column. -/
structure Pos.FitsCounters (pos : Pos) : Prop where
  line : pos.line < 2 ^ 32
  column : pos.column < 2 ^ 32

namespace Pos

/-- Moving on by one character keeps a position true. -/
theorem IsAfter.after {pos : Pos} {chars : List Char} (h : pos.IsAfter chars) (c : Char) :
    (pos.after c).IsAfter (chars ++ [c]) := by
  have hoffset : (pos.after c).offset = (String.ofList (chars ++ [c])).utf8ByteSize := by
    rw [offset_after, h.offset, String.ofList_append, String.utf8ByteSize_append,
      String.utf8ByteSize_ofList [c], String.utf8Len_cons, String.utf8Len_nil, Nat.zero_add]
  -- A line feed belongs to the line that it ends, and nothing stands after it yet.
  by_cases hfeed : c = '\n'
  · subst hfeed
    refine ⟨hoffset, ?_, ?_⟩
    · simp [Pos.after, h.line, Nat.add_assoc]
    · simp [Pos.after]
  · refine ⟨hoffset, ?_, ?_⟩
    · simp [Pos.after, hfeed, h.line]
    · simp [Pos.after, hfeed, h.column, Nat.add_assoc]

/-- Moving through some characters from the beginning of a text leads just after them. -/
theorem isAfter_through (chars : List Char) : (start.through chars).IsAfter chars := by
  induction chars using List.reverseRecOn with
  | nil => exact ⟨rfl, rfl, rfl⟩
  | append_singleton chars c ih =>
      rw [through_concat]
      exact ih.after c

/-- The offset counts bytes and the column characters. -/
example : start.through ['a', '\n', 'é'] = ⟨4, 2, 2⟩ := by decide

theorem isTrueIn_through {text : String} {before after : List Char}
    (h : text.toList = before ++ after) : (start.through before).IsTrueIn text :=
  ⟨before, ⟨after, h.symm⟩, isAfter_through before⟩

namespace IsTrueIn

variable {text : String} {pos : Pos}

theorem line_le (h : pos.IsTrueIn text) : pos.line ≤ text.length + 1 := by
  obtain ⟨before, hbefore, hpos⟩ := h
  have hcount := before.count_le_length (a := '\n')
  have hlength := hbefore.length_le
  rw [hpos.line, ← String.length_toList]
  omega

theorem column_le (h : pos.IsTrueIn text) : pos.column ≤ text.length + 1 := by
  obtain ⟨before, hbefore, hpos⟩ := h
  have hcount := (List.rtakeWhile_suffix (· != '\n') before).length_le
  have hlength := hbefore.length_le
  rw [hpos.column, ← String.length_toList]
  omega

/-- In a text that is not too long, no counter runs over. -/
theorem fitsCounters (h : pos.IsTrueIn text) (hlength : text.length < 2 ^ 32 - 1) :
    pos.FitsCounters := by
  have hline := h.line_le
  have hcolumn := h.column_le
  constructor <;> omega

end IsTrueIn

end Pos

/-- A piece of a text stands between two true positions. -/
theorem isTrueIn_of_mem_textPieces {text : String} {source : SourceId} {piece : Piece}
    (h : piece ∈ (textPieces text source).1) :
    piece.span.start.IsTrueIn text ∧ piece.span.stop.IsTrueIn text := by
  obtain ⟨before, c, rest, place, lexeme, -, hchars, hplace, rfl⟩ := exists_lexeme_of_mem h
  constructor
  · change place.pos.IsTrueIn text
    rw [hplace]
    rw [List.append_assoc] at hchars
    exact Pos.isTrueIn_through hchars
  · change (place.pos.through (c :: rest.take lexeme.length)).IsTrueIn text
    rw [hplace, ← Pos.through_append]
    exact Pos.isTrueIn_through hchars

/-- The positions in the tokens and errors of a text. -/
def Lexed.positions (lexed : Lexed) : List Pos :=
  (lexed.tokens.map Token.span ++ lexed.errors.map LexicalError.span).flatMap fun span =>
    [span.start, span.stop]

/-- The positions are true, and 32 bits are enough for each line and each column. -/
structure Lexed.Placed (lexed : Lexed) (text : String) : Prop where
  isTrueIn : ∀ pos ∈ lexed.positions, pos.IsTrueIn text
  fitsCounters : ∀ pos ∈ lexed.positions, pos.FitsCounters

theorem isTrueIn_of_mem_positions {text : String} {source : SourceId} {pos : Pos}
    (h : pos ∈ (lex text source).positions) : pos.IsTrueIn text := by
  obtain ⟨span, hspan, hpos⟩ := List.mem_flatMap.mp h
  have htrue : span.start.IsTrueIn text ∧ span.stop.IsTrueIn text := by
    rcases List.mem_append.mp hspan with hmem | hmem
    · obtain ⟨token, htoken, rfl⟩ := List.mem_map.mp hmem
      rcases mem_tokens_cases htoken with htoken | rfl
      · obtain ⟨piece, hpiece, -, -, heq⟩ := exists_piece_of_mem_textTokens htoken
        rw [← heq]
        exact isTrueIn_of_mem_textPieces hpiece
      · have hlast : (textPieces text source).2.pos.IsTrueIn text := by
          rw [textPieces_last]
          exact Pos.isTrueIn_through (List.append_nil _).symm
        exact ⟨hlast, hlast⟩
    · obtain ⟨error, herror, rfl⟩ := List.mem_map.mp hmem
      obtain ⟨piece, hpiece, hfault⟩ := List.mem_filterMap.mp herror
      obtain ⟨fault, -, rfl⟩ := Option.map_eq_some_iff.mp hfault
      exact isTrueIn_of_mem_textPieces hpiece
  rcases List.mem_pair.mp hpos with rfl | rfl
  · exact htrue.1
  · exact htrue.2

end DeclFile

import DeclFile.Proofs.Lookahead
import DeclFile.Proofs.Positions
import DeclFile.Proofs.Substitution

/-! # Texts that are joined at the end of a line

At a line feed outside of all tokens the reader is as at the beginning of a text, but for its
place and for the line that has just ended. So a text that goes on behind the line feed is read
as it is by itself. In front of the line feed a text is read as it is by itself too, since no
token without a fault looks beyond the end of a line.
-/

namespace DeclFile

open Unicode

/-! ## Moving places -/

/-- The place further on by some bytes and by some whole lines. -/
def Pos.moved (bytes lines : Nat) (pos : Pos) : Pos :=
  ⟨pos.offset + bytes, pos.line + lines, pos.column⟩

def Span.moved (bytes lines : Nat) (span : Span) : Span :=
  ⟨span.source, span.start.moved bytes lines, span.stop.moved bytes lines⟩

def Token.moved (bytes lines : Nat) (token : Token) : Token :=
  { token with span := token.span.moved bytes lines }

def LexicalError.moved (bytes lines : Nat) (error : LexicalError) : LexicalError :=
  { error with span := error.span.moved bytes lines }

def Piece.moved (bytes lines : Nat) (piece : Piece) : Piece :=
  { piece with span := piece.span.moved bytes lines }

def LexState.moved (bytes lines : Nat) (state : LexState) : LexState :=
  { state with pos := state.pos.moved bytes lines }

section

variable (bytes lines : Nat)

end

/-! ## Reading from some state on -/

/-- The end of a text as a token of its own. -/
def LexState.endToken (state : LexState) (source : SourceId) : Token :=
  ⟨.endOfText, "", .point source state.pos, state.newline⟩

/-- The tokens and errors of what is left of a text, read from a state on. -/
def lexFrom (source : SourceId) (skip : Nat) (state : LexState) (chars : List Char) : Lexed :=
  ⟨(piecesOnto source [] skip state chars).1.filterMap Piece.token? ++
      [(piecesOnto source [] skip state chars).2.endToken source],
    (piecesOnto source [] skip state chars).1.filterMap Piece.error?⟩

theorem lex_ofList (chars : List Char) (source : SourceId) :
    lex (String.ofList chars) source = lexFrom source 0 .initial chars := by
  rw [lex, String.toList_ofList]
  rfl

namespace Lexed

def moved (bytes lines : Nat) (lexed : Lexed) : Lexed :=
  ⟨lexed.tokens.map (Token.moved bytes lines), lexed.errors.map (LexicalError.moved bytes lines)⟩

/-- With some pieces in front. -/
def after (pieces : List Piece) (lexed : Lexed) : Lexed :=
  ⟨pieces.filterMap Piece.token? ++ lexed.tokens, pieces.filterMap Piece.error? ++ lexed.errors⟩

end Lexed

section

variable (source : SourceId) (state : LexState) (c : Char) (rest : List Char)

/-- The piece that a lexeme is stands in front of what follows it. -/
theorem lexFrom_lexeme (hspace : isWhiteSpace c = false) {lexeme : Lexeme}
    (hread : Lexeme.read state.depths c rest = lexeme) :
    lexFrom source 0 state (c :: rest) =
      (lexFrom source lexeme.length (state.afterLexeme c rest lexeme) rest).after
        [state.piece source c rest lexeme] := by
  rw [lexFrom, piecesOnto, if_neg (Bool.eq_false_iff.mp hspace), piecesOnto_eq, hread,
    List.reverse_singleton, Lexed.after, List.filterMap_append, List.filterMap_append,
    List.append_assoc]
  rfl

end

theorem lex_errors (text : String) (source : SourceId) :
    (lex text source).errors = (textPieces text source).1.filterMap Piece.error? :=
  rfl

/-- In a text without errors no piece has a fault. -/
theorem fault_of_lex_errors {text : String} {source : SourceId}
    (h : (lex text source).errors = []) :
    ∀ piece ∈ (textPieces text source).1, piece.fault = none := by
  intro piece hpiece
  rw [lex_errors, List.filterMap_eq_nil_iff] at h
  exact Option.map_eq_none_iff.mp (h piece hpiece)

/-! ## The seam -/

/-- A lexeme without a fault that is read up to the end of a text is the same if there are more
lines. -/
theorem Lexeme.read_line {depths : List Nat} {c : Char} {rest : List Char}
    (hfault : (read depths c rest).fault = none) (more : List Char) :
    read depths c (rest ++ '\n' :: more) = read depths c rest := by
  have hsteady : IsSteady (· = '\n') rest [] ('\n' :: more) (read depths c) :=
    isSteady_read (fun _ => Or.inl) (.breaks (by rfl) [] more)
  have heq := hsteady.eq
  rw [List.append_nil] at heq
  exact heq hfault (length_read_le _ _ _) fun _ _ => id

namespace LexState

variable {state : LexState} {source : SourceId} {c : Char} {rest : List Char} {lexeme : Lexeme}

/-- A piece is made of the characters of its lexeme only. -/
theorem piece_append (hlength : lexeme.length ≤ rest.length) (more : List Char) :
    state.piece source c (rest ++ more) lexeme = state.piece source c rest lexeme := by
  rw [piece, piece, List.take_append_of_le_length hlength]

theorem past_append (hlength : lexeme.length ≤ rest.length) (more : List Char) :
    state.past c (rest ++ more) lexeme = state.past c rest lexeme := by
  rw [past, past, afterLexeme, afterLexeme, List.take_append_of_le_length hlength]

end LexState

namespace Reaches

variable {first second : String} {source : SourceId} {pieces : List Piece} {state : LexState}
  {left : List Char}

/-- Nothing that stands in the lines after it changes how a text without errors is read. -/
theorem followed (h : Reaches first source pieces state left)
    (hfault : ∀ piece ∈ pieces, piece.fault = none) :
    Reaches (first ++ "\n" ++ second) source pieces state (left ++ '\n' :: second.toList) := by
  induction h with
  | start =>
      have htext : (first ++ "\n" ++ second).toList = first.toList ++ '\n' :: second.toList := by
        rw [String.toList_append, String.toList_append, List.append_assoc]
        rfl
      exact htext ▸ .start
  | space _ hspace ih => exact (ih hfault).space hspace
  | @lexeme pieces state c rest lexeme _ hspace hread ih =>
      have hbefore := ih fun piece hpiece => hfault piece (List.mem_append_left _ hpiece)
      have hlength : lexeme.length ≤ rest.length := hread ▸ Lexeme.length_read_le _ _ _
      have hsound : lexeme.fault = none := hfault _ List.mem_concat_self
      have hread' : Lexeme.read state.depths c (rest ++ '\n' :: second.toList) = lexeme :=
        (Lexeme.read_line (hread ▸ hsound) _).trans hread
      rw [List.cons_append] at hbefore
      have hnext := hbefore.lexeme hspace hread'
      rwa [LexState.piece_append hlength, LexState.past_append hlength,
        List.drop_append_of_le_length hlength] at hnext

/-- From any place of the reader on the text is read as what is left there. -/
theorem lex_eq (h : Reaches first source pieces state left) :
    lex first source = (lexFrom source 0 state left).after pieces := by
  have hlex : lex first source = ⟨(textPieces first source).1.filterMap Piece.token? ++
      [(textPieces first source).2.endToken source],
        (textPieces first source).1.filterMap Piece.error?⟩ := rfl
  rw [hlex, h.resume, List.filterMap_append, List.filterMap_append, List.append_assoc]
  rfl

end Reaches

/-- What is read of a text that stands in the lines behind another one. -/
def Lexed.behind (lexed : Lexed) (text : String) : Lexed :=
  lexed.moved (text.utf8ByteSize + 1) (text.toList.count '\n' + 1)

end DeclFile

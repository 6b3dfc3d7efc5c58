import DeclFile.Token.Lexeme

/-! # The lexed text

A text is cut into pieces from left to right. Between pieces there is only white space, and
a piece is a token or a character that begins none. Tokens and lexical errors are read off
the pieces, and the end of the text is a token of its own. Reading goes character by
character and always reaches the end.
-/

namespace DeclFile

open Unicode

/-- A lexeme at its place in the text. -/
structure Piece where
  /-- The kind of token; nothing for a character that begins no token. -/
  kind : Option Kind
  text : String
  span : Span
  newlineBefore : Bool
  fault : Option Fault
deriving DecidableEq, Repr

namespace Piece

/-- The token that a piece is. -/
def token? (piece : Piece) : Option Token :=
  piece.kind.map fun kind => ⟨kind, piece.text, piece.span, piece.newlineBefore⟩

/-- The error in a piece. -/
def error? (piece : Piece) : Option LexicalError :=
  piece.fault.map fun fault => ⟨fault, piece.span⟩

end Piece

/-- Where the reader of a text stands: its position, the open braces inside each open
template substitution, and whether a line ended since the last token. -/
structure LexState where
  pos : Pos
  depths : List Nat
  newline : Bool
deriving DecidableEq, Repr

namespace LexState

/-- The state at the beginning of a text. -/
def initial : LexState := ⟨.start, [], false⟩

/-- Whether white space `c` ends a line for the next token. -/
def isLineBreak (c : Char) : Bool :=
  c == '\n' || c == '\u2028' || c == '\u2029'

/-- The state after the white space `c`. -/
def afterSpace (state : LexState) (c : Char) : LexState :=
  { state with pos := state.pos.after c, newline := state.newline || isLineBreak c }

/-- The state with one character of a piece passed. -/
def afterChar (state : LexState) (c : Char) : LexState :=
  { state with pos := state.pos.after c }

/-- The state for what follows a lexeme, positioned after its first character `c`. A
character that begins no token leaves the line break before it pending, and a comment over
several lines ends a line. -/
def afterLexeme (state : LexState) (c : Char) (rest : List Char) (lexeme : Lexeme) : LexState where
  pos := state.pos.after c
  depths := lexeme.depths
  newline :=
    match lexeme.kind with
    | none => state.newline
    | some .blockComment => (rest.take lexeme.length).contains '\n'
    | some _ => false

/-- The piece that a lexeme is at this place. -/
def piece (state : LexState) (source : SourceId) (c : Char) (rest : List Char)
    (lexeme : Lexeme) : Piece :=
  let chars := c :: rest.take lexeme.length
  ⟨lexeme.kind, String.ofList (lexeme.text.getD chars),
    ⟨source, state.pos, state.pos.through chars⟩, state.newline, lexeme.fault⟩

end LexState

/-- Cuts `chars` into pieces, in front of which `sofar` stands in reverse; `skip` characters
belong to the last piece. Also gives the state at the end of the text. -/
def piecesOnto (source : SourceId) (sofar : List Piece) :
    (skip : Nat) → LexState → List Char → List Piece × LexState
  | _, state, [] => (sofar.reverse, state)
  | skip + 1, state, c :: rest => piecesOnto source sofar skip (state.afterChar c) rest
  | 0, state, c :: rest =>
      if isWhiteSpace c then piecesOnto source sofar 0 (state.afterSpace c) rest
      else
        let lexeme := Lexeme.read state.depths c rest
        piecesOnto source (state.piece source c rest lexeme :: sofar) lexeme.length
          (state.afterLexeme c rest lexeme) rest

/-- What was read before only stands in front. -/
theorem piecesOnto_eq (source : SourceId) (sofar : List Piece) (skip : Nat) (state : LexState)
    (chars : List Char) :
    piecesOnto source sofar skip state chars =
      (sofar.reverse ++ (piecesOnto source [] skip state chars).1,
        (piecesOnto source [] skip state chars).2) := by
  induction chars generalizing sofar skip state with
  | nil => simp [piecesOnto]
  | cons c rest ih =>
      cases skip with
      | succ skip => simpa only [piecesOnto] using ih sofar skip (state.afterChar c)
      | zero =>
          simp only [piecesOnto]
          split
          · exact ih sofar 0 (state.afterSpace c)
          · rw [ih, ih [_]]
            simp

/-- The tokens of a text, the end of the text last, and its lexical errors. -/
structure Lexed where
  tokens : List Token
  errors : List LexicalError
deriving DecidableEq, Repr

/-- Reads a whole text. -/
def lex (text : String) (source : SourceId) : Lexed :=
  let (pieces, final) := piecesOnto source [] 0 .initial text.toList
  let endToken : Token := ⟨.endOfText, "", .point source final.pos, final.newline⟩
  ⟨pieces.filterMap Piece.token? ++ [endToken], pieces.filterMap Piece.error?⟩

end DeclFile

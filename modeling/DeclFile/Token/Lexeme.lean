import DeclFile.Token.Basic
import DeclFile.Token.Literal
import DeclFile.Unicode.Numeric
import DeclFile.Unicode.WhiteSpace

/-! # Lexemes

A lexeme is what begins at a character that is no white space: a token, or a character that
begins none. Which lexeme it is depends on the characters from there on and on the open
template substitutions, not on the place in the text. For each open substitution the reader
keeps the number of braces opened inside it; a closing brace at zero resumes the template.
-/

namespace DeclFile

open Unicode

/-- A lexeme, with how many characters follow its first one. -/
structure Lexeme where
  /-- The kind of token; nothing for a character that begins no token. -/
  kind : Option Kind
  /-- How many characters belong to the lexeme after the first. -/
  length : Nat
  /-- The text of the token where it is not the characters themselves. -/
  text : Option (List Char)
  fault : Option Fault
  /-- The open braces inside each open substitution afterwards, innermost first. -/
  depths : List Nat
deriving DecidableEq, Repr

/-- Whether a character can begin an identifier. -/
def isIdentifierStart (c : Char) : Bool :=
  c == '_' || c == '$' || isAlphabetic c

/-- Whether a character can continue an identifier. -/
def isIdentifierContinue (c : Char) : Bool :=
  c == '_' || c == '$' || isAlphanumeric c

/-- The mark that a character is by itself, whatever follows. -/
def Mark.ofChar? : Char → Option Mark
  | '(' => some .openParen
  | ')' => some .closeParen
  | '[' => some .openBracket
  | ']' => some .closeBracket
  | '<' => some .openAngle
  | '>' => some .closeAngle
  | ',' => some .comma
  | ';' => some .semicolon
  | ':' => some .colon
  | '?' => some .question
  | '|' => some .pipe
  | '&' => some .ampersand
  | '+' => some .plus
  | '-' => some .minus
  | '*' => some .star
  | '!' => some .bang
  | '@' => some .atSign
  | _ => none

namespace Lexeme

/-- A token whose text is its characters. -/
def plain (depths : List Nat) (kind : Kind) (length : Nat) : Lexeme :=
  ⟨some kind, length, none, none, depths⟩

/-- A piece of a template with the body `body`: `whole` when the template ends with it and
`part` when a substitution opens. -/
def template (depths : List Nat) (whole part : Kind) (body : Body) : Lexeme :=
  match body.ending with
  | .closed => ⟨some whole, body.length, some body.text, none, depths⟩
  | .substitution => ⟨some part, body.length, some body.text, none, 0 :: depths⟩
  | .broken => ⟨some whole, body.length, some body.text, some .unterminatedTemplate, depths⟩

/-- A string literal with the body `body`. -/
def string (depths : List Nat) (body : Body) : Lexeme :=
  ⟨some .stringLiteral, body.length, some body.text,
    if body.ending = .broken then some .unterminatedString else none, depths⟩

/-- A number literal; a bigint that begins with a digit loses its suffix in the text. -/
def number (depths : List Nat) (first : Char) (rest : List Char) : Lexeme :=
  let length := NumberLiteral.length first rest
  if NumberLiteral.isBigint first rest then
    ⟨some .bigintLiteral, length,
      if first = '.' then none else some (first :: rest.take (length - 1)), none, depths⟩
  else plain depths .numberLiteral length

/-- The rest of a comment after its two slashes, up to the end of its line. A third slash
and a text that begins with `<` make it a directive. -/
def lineComment (depths : List Nat) (rest : List Char) : Lexeme :=
  let line := rest.takeWhile (· != '\n')
  let text := trim (line.dropWhile (· == '/'))
  if line.head? == some '/' && text.head? == some '<' then
    ⟨some .directive, 1 + line.length, some text, none, depths⟩
  else plain depths .lineComment (1 + line.length)

/-- The length of a comment after its opening, and whether it is closed. -/
def blockLength : List Char → Nat × Bool
  | [] => (0, false)
  | '*' :: '/' :: _ => (2, true)
  | _ :: rest => let (length, closed) := blockLength rest; (length + 1, closed)

/-- The rest of a comment after its slash and star. -/
def blockComment (depths : List Nat) (rest : List Char) : Lexeme :=
  let (length, closed) := blockLength rest
  ⟨some .blockComment, 1 + length, none,
    if closed then none else some .unterminatedComment, depths⟩

/-- An identifier or keyword. -/
def word (depths : List Nat) (first : Char) (rest : List Char) : Lexeme :=
  let more := rest.takeWhile isIdentifierContinue
  let kind := match Keyword.ofSpelling? (String.ofList (first :: more)) with
    | some keyword => .word keyword
    | none => .identifier
  plain depths kind more.length

/-- A character that begins no token. -/
def unexpected (depths : List Nat) (c : Char) : Lexeme :=
  ⟨none, 0, none, some (.unexpectedChar c), depths⟩

/-- A closing brace: the end of a substitution, or a brace of its own. -/
def closeBrace (rest : List Char) : List Nat → Lexeme
  | 0 :: outer => template outer .templateTail .templateMiddle (Body.readTemplate 0 rest)
  | (depth + 1) :: outer => plain (depth :: outer) (.mark .closeBrace) 0
  | [] => plain [] (.mark .closeBrace) 0

/-- An opening brace, counted inside the innermost open substitution. -/
def openBrace : List Nat → Lexeme
  | depth :: outer => plain ((depth + 1) :: outer) (.mark .openBrace) 0
  | [] => plain [] (.mark .openBrace) 0

/-- A point: the start of a number, an ellipsis, or a dot. -/
def dot (depths : List Nat) (rest : List Char) : Lexeme :=
  match rest with
  | '.' :: '.' :: _ => plain depths (.mark .ellipsis) 2
  | c :: _ =>
      if c.isDigit then number depths '.' rest else plain depths (.mark .dot) 0
  | [] => plain depths (.mark .dot) 0

/-- Reads the lexeme that begins with `c`, where `rest` follows it. -/
def read (depths : List Nat) (c : Char) (rest : List Char) : Lexeme :=
  match Mark.ofChar? c with
  | some mark => plain depths (.mark mark) 0
  | none =>
    match c with
    | '\x7b' => openBrace depths
    | '\x7d' => closeBrace rest depths
    | '.' => dot depths rest
    | '=' =>
        if rest.head? == some '>' then plain depths (.mark .arrow) 1
        else plain depths (.mark .equals) 0
    | '/' =>
        match rest with
        | '/' :: more => lineComment depths more
        | '*' :: more => blockComment depths more
        | _ => plain depths (.mark .slash) 0
    | '"' => string depths (Body.readString '"' 0 rest)
    | '\x27' => string depths (Body.readString '\x27' 0 rest)
    | '\x60' => template depths .templateWhole .templateHead (Body.readTemplate 0 rest)
    | '#' =>
        if rest.head?.any isIdentifierStart then
          plain depths .privateName (rest.takeWhile isIdentifierContinue).length
        else unexpected depths c
    | c =>
        if c.isDigit then number depths c rest
        else if isIdentifierStart c then word depths c rest
        else unexpected depths c

end Lexeme

end DeclFile

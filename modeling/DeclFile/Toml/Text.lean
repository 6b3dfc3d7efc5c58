/-! # TOML texts

Strings in their four forms, and the white space and comments between values. Each function
gives what it read and the characters that are left, or nothing where the text is malformed.
-/

namespace DeclFile.Toml

/-- Whether a character separates values on a line. -/
def isBlank (c : Char) : Bool := c == ' ' || c == '\t'

/-- Whether a character may stand in a comment or in a string on one line: not a control
character of ASCII other than a tab. -/
def isPlain (c : Char) : Bool := c == '\t' || (0x20 ≤ c.toNat && c != '\x7f')

/-- The character with the number that hexadecimal digits write. -/
def scalarValue? (digits : List Char) : Option Char := do
  let number ← digits.foldlM (fun number c => do
    let digit ←
      if '0' ≤ c && c ≤ '9' then some (c.toNat - '0'.toNat)
      else if 'a' ≤ c && c ≤ 'f' then some (c.toNat - 'a'.toNat + 10)
      else if 'A' ≤ c && c ≤ 'F' then some (c.toNat - 'A'.toNat + 10)
      else none
    return 16 * number + digit) 0
  if h : number.isValidChar then some (Char.ofNatAux number h) else none

/-- The character that a letter stands for after a backslash. -/
def escaped? : Char → Option Char
  | 'b' => some '\x08'
  | 't' => some '\t'
  | 'n' => some '\n'
  | 'f' => some '\x0c'
  | 'r' => some '\r'
  | '"' => some '"'
  | '\\' => some '\\'
  | _ => none

/-- A text read and the characters left, with `c` in front of the text. -/
def prepend (c : Char) : List Char × List Char → List Char × List Char
  | (text, rest) => (c :: text, rest)

/-- The inside of a string in double quotes on one line, from after its opening quote. -/
def basicString? : List Char → Option (List Char × List Char)
  | [] => none
  | '"' :: rest => some ([], rest)
  | '\\' :: 'u' :: a :: b :: c :: d :: rest => do
      let char ← scalarValue? [a, b, c, d]
      return prepend char (← basicString? rest)
  | '\\' :: 'U' :: a :: b :: c :: d :: e :: f :: g :: h :: rest => do
      let char ← scalarValue? [a, b, c, d, e, f, g, h]
      return prepend char (← basicString? rest)
  | '\\' :: letter :: rest => do
      let char ← escaped? letter
      return prepend char (← basicString? rest)
  | c :: rest => do
      if isPlain c && c != '\\' then return prepend c (← basicString? rest)
      else none

/-- The inside of a string in single quotes on one line, from after its opening quote. -/
def literalString? : List Char → Option (List Char × List Char)
  | [] => none
  | '\x27' :: rest => some ([], rest)
  | c :: rest => do
      if isPlain c then return prepend c (← literalString? rest)
      else none

/-- Whether a line ends after blanks. -/
def endsLine (chars : List Char) : Bool :=
  match chars.dropWhile isBlank with
  | '\n' :: _ => true
  | '\r' :: '\n' :: _ => true
  | _ => false

/-- The inside of a string in three double quotes, from after its opening quotes. After a
backslash at the end of a line, `trimming` passes over blanks and line ends. Up to two quotes
may stand before the closing ones. -/
def longBasicString? : (trimming : Bool) → List Char → Option (List Char × List Char)
  | _, [] => none
  | trimming, '\r' :: '\n' :: rest =>
      if trimming then longBasicString? true rest
      else (longBasicString? false rest).map (prepend '\n')
  | _, '"' :: '"' :: '"' :: '"' :: '"' :: rest => some (['"', '"'], rest)
  | _, '"' :: '"' :: '"' :: '"' :: rest => some (['"'], rest)
  | _, '"' :: '"' :: '"' :: rest => some ([], rest)
  | _, '\\' :: 'u' :: a :: b :: c :: d :: rest => do
      let char ← scalarValue? [a, b, c, d]
      return prepend char (← longBasicString? false rest)
  | _, '\\' :: 'U' :: a :: b :: c :: d :: e :: f :: g :: h :: rest => do
      let char ← scalarValue? [a, b, c, d, e, f, g, h]
      return prepend char (← longBasicString? false rest)
  | _, '\\' :: letter :: rest =>
      if endsLine (letter :: rest) then longBasicString? true rest
      else do
        let char ← escaped? letter
        return prepend char (← longBasicString? false rest)
  | trimming, c :: rest =>
      if trimming && (isBlank c || c == '\n') then longBasicString? true rest
      else if (isPlain c && c != '\\') || c == '\n' then
        (longBasicString? false rest).map (prepend c)
      else none

/-- The inside of a string in three single quotes, from after its opening quotes. Up to two
quotes may stand before the closing ones. -/
def longLiteralString? : List Char → Option (List Char × List Char)
  | [] => none
  | '\r' :: '\n' :: rest => (longLiteralString? rest).map (prepend '\n')
  | '\x27' :: '\x27' :: '\x27' :: '\x27' :: '\x27' :: rest => some (['\x27', '\x27'], rest)
  | '\x27' :: '\x27' :: '\x27' :: '\x27' :: rest => some (['\x27'], rest)
  | '\x27' :: '\x27' :: '\x27' :: rest => some ([], rest)
  | c :: rest =>
      if isPlain c || c == '\n' then (longLiteralString? rest).map (prepend c)
      else none

/-- The characters without a line end at the front. -/
def withoutLineEnd : List Char → List Char
  | '\n' :: rest => rest
  | '\r' :: '\n' :: rest => rest
  | chars => chars

/-- A string in any of its forms, from its first quote on. -/
def string? (chars : List Char) : Option (List Char × List Char) :=
  match chars with
  | '"' :: '"' :: '"' :: rest => longBasicString? false (withoutLineEnd rest)
  | '\x27' :: '\x27' :: '\x27' :: rest => longLiteralString? (withoutLineEnd rest)
  | '"' :: rest => basicString? rest
  | '\x27' :: rest => literalString? rest
  | _ => none

/-- What follows the end of a line, or nothing if other characters come first. A comment may
stand before the end of the line. -/
def afterLine? (chars : List Char) : Option (List Char) :=
  let rest := match chars.dropWhile isBlank with
    | '#' :: comment => comment.dropWhile isPlain
    | rest => rest
  match rest with
  | [] => some []
  | '\n' :: rest => some rest
  | '\r' :: '\n' :: rest => some rest
  | _ => none

/-- What follows blanks, line ends and comments, as they may stand inside an array; `comment`
says whether a comment is open. -/
def afterSpace? : (comment : Bool) → List Char → Option (List Char)
  | comment, [] => if comment then none else some []
  | _, '\n' :: rest => afterSpace? false rest
  | _, '\r' :: '\n' :: rest => afterSpace? false rest
  | true, c :: rest => if isPlain c then afterSpace? true rest else none
  | false, c :: rest =>
      if isBlank c then afterSpace? false rest
      else if c = '#' then afterSpace? true rest
      else some (c :: rest)

end DeclFile.Toml

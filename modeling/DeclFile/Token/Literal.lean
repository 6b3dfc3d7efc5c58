import DeclFile.Token.Escape

/-! # String, template and number literals

A quoted body is read from after its opening delimiter to its closing one. A string also
ends, broken, at the end of its line; a template pauses at each substitution. Number
literals are measured only, since their text is kept as written.
-/

namespace DeclFile

/-- How the body of a string or template literal ended. -/
inductive BodyEnd where
  | closed
  | substitution
  | broken
deriving DecidableEq, Repr

/-- The body of a string or template literal: its text with the escapes resolved, how many
characters it takes with its closing delimiter, and how it ended. -/
structure Body where
  text : List Char
  length : Nat
  ending : BodyEnd
deriving DecidableEq, Repr

namespace Body

/-- The body with one more character read in front, which adds `text`. -/
def prepend (text : List Char) (body : Body) : Body :=
  ⟨text ++ body.text, body.length + 1, body.ending⟩

/-- Reads the body of a string that opened with `quote`; `skip` characters belong to an
escape that has been read. -/
def readString (quote : Char) : (skip : Nat) → List Char → Body
  | _, [] => ⟨[], 0, .broken⟩
  | skip + 1, _ :: rest => (readString quote skip rest).prepend []
  | 0, c :: rest =>
      if c = '\\' then
        let escape := Escape.read rest
        (readString quote escape.length rest).prepend escape.text
      else if c = quote then ⟨[], 1, .closed⟩
      else if c = '\n' then ⟨[], 0, .broken⟩
      else (readString quote 0 rest).prepend [c]

/-- Reads the body of a template up to its closing backtick or its next substitution;
`skip` characters belong to an escape that has been read. -/
def readTemplate : (skip : Nat) → List Char → Body
  | _, [] => ⟨[], 0, .broken⟩
  | skip + 1, _ :: rest => (readTemplate skip rest).prepend []
  | 0, c :: rest =>
      if c = '\\' then
        let escape := Escape.read rest
        (readTemplate escape.length rest).prepend escape.text
      else if c = '\x60' then ⟨[], 1, .closed⟩
      else if c = '$' && rest.head? == some '\x7b' then ⟨[], 2, .substitution⟩
      else (readTemplate 0 rest).prepend [c]

end Body

namespace NumberLiteral

/-- How many digits and separators stand at the front. -/
def digitsLength (isDigit : Char → Bool) (chars : List Char) : Nat :=
  (chars.takeWhile fun c => isDigit c || c == '_').length

/-- The digits of the number system that the letter after a leading zero selects. -/
def radixDigit? (letter : Char) : Option (Char → Bool) :=
  if letter == 'x' || letter == 'X' then some Escape.isHexDigit
  else if letter == 'o' || letter == 'O' then some fun c => '0' ≤ c && c ≤ '7'
  else if letter == 'b' || letter == 'B' then some fun c => c == '0' || c == '1'
  else none

/-- The length of a point and the digits after it; a number that began with a point has no
second one. -/
def fractionLength (first : Char) : List Char → Nat
  | '.' :: rest => if first = '.' then 0 else 1 + digitsLength Char.isDigit rest
  | _ => 0

/-- The length of an exponent: an `e`, then a sign or a digit, then digits. -/
def exponentLength : List Char → Nat
  | e :: next :: rest =>
      if e == 'e' || e == 'E' then
        if next == '+' || next == '-' then 2 + digitsLength Char.isDigit rest
        else if next.isDigit then 1 + digitsLength Char.isDigit (next :: rest)
        else 0
      else 0
  | _ => 0

/-- The length of a decimal number after its first character. -/
def decimalLength (first : Char) (rest : List Char) : Nat :=
  let whole := digitsLength Char.isDigit rest
  let fraction := fractionLength first (rest.drop whole)
  whole + fraction + exponentLength (rest.drop (whole + fraction))

/-- The length of a number after its first character, without the suffix of a bigint. -/
def bareLength (first : Char) (rest : List Char) : Nat :=
  match first, rest with
  | '0', letter :: more =>
      match radixDigit? letter with
      | some isDigit => 1 + digitsLength isDigit more
      | none => decimalLength first rest
  | _, _ => decimalLength first rest

/-- Whether the number ends with the suffix of a bigint. -/
def isBigint (first : Char) (rest : List Char) : Bool :=
  (rest.drop (bareLength first rest)).head? == some 'n'

/-- The length of a number after its first character. -/
def length (first : Char) (rest : List Char) : Nat :=
  bareLength first rest + (isBigint first rest).toNat

end NumberLiteral

end DeclFile

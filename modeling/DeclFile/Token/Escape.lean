/-! # Escapes in string and template literals

An escape begins with a backslash. Reading one looks at the characters after the backslash
and says what the escape stands for and how many of those characters belong to it. An
escape with digits that name no character stands for its own spelling.
-/

namespace DeclFile

/-- An escape: the characters it stands for, and how many characters after its backslash
it takes. -/
structure Escape where
  text : List Char
  length : Nat
deriving DecidableEq, Repr

namespace Escape

/-- The value of a hexadecimal digit. -/
def hexValue? (c : Char) : Option Nat :=
  if '0' ≤ c && c ≤ '9' then some (c.toNat - '0'.toNat)
  else if 'a' ≤ c && c ≤ 'f' then some (c.toNat - 'a'.toNat + 10)
  else if 'A' ≤ c && c ≤ 'F' then some (c.toNat - 'A'.toNat + 10)
  else none

/-- Whether a character is a hexadecimal digit. -/
def isHexDigit (c : Char) : Bool := (hexValue? c).isSome

/-- The number that hexadecimal digits write; there must be at least one. -/
def hexNumber? (digits : List Char) : Option Nat :=
  if digits.isEmpty then none
  else digits.foldlM (fun value c => (hexValue? c).map (16 * value + ·)) 0

/-- The character with the given hexadecimal number, which may carry a plus sign. -/
def codePoint? (digits : List Char) : Option Char := do
  let number ← match digits with
    | '+' :: unsigned => hexNumber? unsigned
    | _ => hexNumber? digits
  if h : number.isValidChar then some (Char.ofNatAux number h) else none

/-- The escape with the letter `letter` and the digits `digits`, which takes `length`
characters: the character it numbers or, failing that, its own spelling. -/
def numbered (letter : Char) (digits : List Char) (length : Nat) : Escape :=
  match codePoint? digits with
  | some c => ⟨[c], length⟩
  | none => ⟨'\\' :: letter :: digits, length⟩

/-- Reads the escape whose backslash stands before `rest`. A line feed continues the line,
`x` takes up to two digits, `u` up to four or any characters in braces, and a letter
without a meaning of its own stands for itself. -/
def read : List Char → Escape
  | [] => ⟨[], 0⟩
  | 'n' :: _ => ⟨['\n'], 1⟩
  | 't' :: _ => ⟨['\t'], 1⟩
  | 'r' :: _ => ⟨['\r'], 1⟩
  | 'b' :: _ => ⟨['\x08'], 1⟩
  | 'f' :: _ => ⟨['\x0c'], 1⟩
  | 'v' :: _ => ⟨['\x0b'], 1⟩
  | '0' :: _ => ⟨['\x00'], 1⟩
  | '\n' :: _ => ⟨[], 1⟩
  | 'x' :: rest =>
      let digits := (rest.take 2).takeWhile isHexDigit
      numbered 'x' digits (1 + digits.length)
  | 'u' :: '\x7b' :: rest =>
      let digits := rest.takeWhile (· != '\x7d')
      numbered 'u' digits (min (3 + digits.length) (2 + rest.length))
  | 'u' :: rest =>
      let digits := (rest.take 4).takeWhile isHexDigit
      numbered 'u' digits (1 + digits.length)
  | c :: _ => ⟨[c], 1⟩

end Escape

end DeclFile

import DeclFile.Toml.Table

/-! # TOML scalars

The values that are written as a single word: booleans, integers, floats, dates and times.
An integer must fit in sixty-four bits with its sign, and a float must not be too large.
-/

namespace DeclFile.Toml

/-- Whether a character can be part of a word. -/
def isWordChar (c : Char) : Bool :=
  c.isAlphanum || c == '_' || c == '+' || c == '-' || c == '.' || c == ':'

/-- The value of a digit, if it is below `radix`. -/
def digit? (radix : Nat) (c : Char) : Option Nat :=
  let value? :=
    if c.isDigit then some (c.toNat - '0'.toNat)
    else if 'a' ≤ c && c ≤ 'f' then some (c.toNat - 'a'.toNat + 10)
    else if 'A' ≤ c && c ≤ 'F' then some (c.toNat - 'A'.toNat + 10)
    else none
  value?.filter (· < radix)

/-- The digits in a word without the underscores, each of which must stand between two
digits. -/
def digits? (radix : Nat) : List Char → Option (List Nat)
  | [] => none
  | [c] => (digit? radix c).map ([·])
  | c :: '_' :: rest => do
      let first ← digit? radix c
      return first :: (← digits? radix rest)
  | c :: rest => do
      let first ← digit? radix c
      return first :: (← digits? radix rest)

/-- The number that digits write. -/
def ofDigits (radix : Nat) (digits : List Nat) : Nat :=
  digits.foldl (fun number digit => radix * number + digit) 0

/-- A sign in front of a word, true for a minus, and the rest. -/
def signed : List Char → Bool × List Char
  | '-' :: rest => (true, rest)
  | '+' :: rest => (false, rest)
  | chars => (false, chars)

/-- The digits of a decimal number, which has no zero in front of others. -/
def decimal? (chars : List Char) : Option (List Nat) :=
  match chars with
  | ['0'] => some [0]
  | '0' :: _ => none
  | _ => digits? 10 chars

/-- The least number that does not fit in sixty-four bits with its sign. -/
def integerBound : Nat := 1 <<< 63

/-- A number if it fits in sixty-four bits with its sign. -/
def inRange? (negative : Bool) (magnitude : Nat) : Option Int :=
  if negative then
    if magnitude ≤ integerBound then some (-(magnitude : Int)) else none
  else if magnitude < integerBound then some magnitude
  else none

/-- An integer: hexadecimal, octal or binary after its prefix, or decimal with a sign. -/
def integer? (chars : List Char) : Option Int :=
  match chars with
  | '0' :: 'x' :: rest => (digits? 16 rest).bind fun ds => inRange? false (ofDigits 16 ds)
  | '0' :: 'o' :: rest => (digits? 8 rest).bind fun ds => inRange? false (ofDigits 8 ds)
  | '0' :: 'b' :: rest => (digits? 2 rest).bind fun ds => inRange? false (ofDigits 2 ds)
  | _ =>
      let (negative, rest) := signed chars
      (decimal? rest).bind fun ds => inRange? negative (ofDigits 10 ds)

/-- The least number that no float is nearest to. -/
def floatBound : Nat := (1 <<< 1024) - (1 <<< 970)

/-- Whether `mantissa` times ten to the power `exponent` is too large for a float. Only
numbers with about as many places as the bound are compared digit by digit. -/
def overflows (mantissa : Nat) (exponent : Int) : Bool :=
  let places := (toString mantissa).length + exponent
  if mantissa = 0 || places < 300 then false
  else if 320 < places then true
  else if 0 ≤ exponent then floatBound ≤ mantissa * Nat.pow 10 exponent.toNat
  else floatBound * Nat.pow 10 (-exponent).toNat ≤ mantissa

/-- The exponent of a float after its `e`. -/
def exponent? (chars : List Char) : Option Int :=
  let (negative, rest) := signed chars
  (digits? 10 rest).map fun ds =>
    if negative then -(ofDigits 10 ds : Int) else (ofDigits 10 ds : Int)

/-- Whether a word is a float with digits, and not a positive one that is too large. -/
def isFiniteFloat (chars : List Char) : Bool :=
  let isExponent (c : Char) : Bool := c == 'e' || c == 'E'
  let (negative, rest) := signed chars
  let number := rest.takeWhile (!isExponent ·)
  let power := rest.dropWhile (!isExponent ·)
  let whole := number.takeWhile (· != '.')
  let fraction := number.dropWhile (· != '.')
  let accepted : Option Bool := do
    let wholeDigits ← decimal? whole
    let fractionDigits ← if fraction.isEmpty then some [] else digits? 10 (fraction.drop 1)
    let exponent ← if power.isEmpty then some 0 else exponent? (power.drop 1)
    if fraction.isEmpty && power.isEmpty then none
    else
      let mantissa := ofDigits 10 (wholeDigits ++ fractionDigits)
      return negative || !overflows mantissa (exponent - fractionDigits.length)
  accepted.getD false

/-- Whether a word is a float without digits. -/
def isSpecialFloat (chars : List Char) : Bool :=
  let (_, rest) := signed chars
  rest == ['i', 'n', 'f'] || rest == ['n', 'a', 'n']

/-! ## Dates and times -/

/-- The number that exactly `count` digits at the front write, and the rest. -/
def fixedDigits? (count : Nat) (chars : List Char) : Option (Nat × List Char) :=
  let front := chars.take count
  if front.length = count && front.all Char.isDigit then
    some (front.foldl (fun n c => 10 * n + (c.toNat - '0'.toNat)) 0, chars.drop count)
  else none

/-- What follows `c` at the front. -/
def after? (c : Char) : List Char → Option (List Char)
  | first :: rest => if first = c then some rest else none
  | [] => none

/-- The number of days of a month. -/
def daysInMonth (year month : Nat) : Nat :=
  if month = 2 then
    if year % 4 = 0 && (year % 100 != 0 || year % 400 = 0) then 29 else 28
  else if month = 4 || month = 6 || month = 9 || month = 11 then 30
  else 31

/-- What follows a date at the front. -/
def afterDate? (chars : List Char) : Option (List Char) := do
  let (year, rest) ← fixedDigits? 4 chars
  let (month, rest) ← fixedDigits? 2 (← after? '-' rest)
  let (day, rest) ← fixedDigits? 2 (← after? '-' rest)
  if 1 ≤ month && month ≤ 12 && 1 ≤ day && day ≤ daysInMonth year month then some rest
  else none

/-- What follows a time of day at the front. -/
def afterTime? (chars : List Char) : Option (List Char) := do
  let (hour, rest) ← fixedDigits? 2 chars
  let (minute, rest) ← fixedDigits? 2 (← after? ':' rest)
  let (second, rest) ← fixedDigits? 2 (← after? ':' rest)
  if hour ≤ 23 && minute ≤ 59 && second ≤ 60 then
    match rest with
    | '.' :: c :: more => if c.isDigit then some (more.dropWhile Char.isDigit) else none
    | _ => some rest
  else none

/-- Whether the rest of a date with a time is an offset or nothing. -/
def isOffset (chars : List Char) : Bool :=
  match chars with
  | [] | ['Z'] | ['z'] => true
  | sign :: rest =>
      let accepted : Option Bool := do
        let (hour, rest) ← fixedDigits? 2 rest
        let (minute, rest) ← fixedDigits? 2 (← after? ':' rest)
        return (sign == '+' || sign == '-') && hour ≤ 23 && minute ≤ 59 && rest.isEmpty
      accepted.getD false

/-- Whether a word is a date. -/
def isDate (chars : List Char) : Bool := afterDate? chars == some []

/-- Whether a word is a time with perhaps an offset, as it may follow a date. -/
def isOffsetTime (chars : List Char) : Bool := (afterTime? chars).any isOffset

/-- Whether a word is a date, a time, or both with a letter between them. -/
def isDateTime (chars : List Char) : Bool :=
  isDate chars || afterTime? chars == some [] ||
    match afterDate? chars with
    | some (letter :: rest) => (letter == 'T' || letter == 't') && isOffsetTime rest
    | _ => false

/-- The value of a word. -/
def scalar? (chars : List Char) : Option Value :=
  if chars == "true".toList then some (.boolean true)
  else if chars == "false".toList then some (.boolean false)
  else if isDateTime chars then some (.date (String.ofList chars))
  else if isFiniteFloat chars || isSpecialFloat chars then some (.float (String.ofList chars))
  else (integer? chars).map .integer

end DeclFile.Toml

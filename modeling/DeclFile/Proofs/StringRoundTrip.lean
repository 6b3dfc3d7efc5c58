import DeclFile.Proofs.Quoted
import DeclFile.Proofs.Seam
import Mathlib.Data.Nat.Digits.Defs

/-! # String literals stand for what was written into them

A character can be written into a string literal as itself or as one of several escapes, and
lines can be continued anywhere between the characters. However a string is written, the
literal is read as one token with that string as its text.
-/

namespace DeclFile

/-! ## Hexadecimal digits -/

/-- A hexadecimal digit, with a small or a capital letter. -/
structure HexDigit where
  value : Fin 16
  capital : Bool
deriving DecidableEq, Repr

namespace HexDigit

def char (digit : HexDigit) : Char :=
  let small := Nat.digitChar digit.value
  if digit.capital then small.toUpper else small

/-- The number that digits write, the first of which weighs most. -/
def number (digits : List HexDigit) : Nat :=
  Nat.ofDigits 16 (digits.map fun digit => digit.value.val).reverse

theorem hexValue?_char : ∀ digit : HexDigit,
    Escape.hexValue? digit.char = some digit.value.val := by
  have hall : ∀ value : Fin 16, ∀ capital : Bool,
      Escape.hexValue? (HexDigit.mk value capital).char = some value.val := by decide
  exact fun digit => hall digit.value digit.capital

theorem isHexDigit_char (digit : HexDigit) : Escape.isHexDigit digit.char = true := by
  rw [Escape.isHexDigit, hexValue?_char, Option.isSome_some]

/-- No digit is one of the characters with a meaning of their own around digits. -/
theorem char_ne (digit : HexDigit) {c : Char} (h : Escape.isHexDigit c = false) :
    digit.char ≠ c := by
  intro hchar
  rw [← hchar, isHexDigit_char] at h
  cases h

theorem number_concat (digits : List HexDigit) (digit : HexDigit) :
    number (digits ++ [digit]) = 16 * number digits + digit.value := by
  rw [number, List.map_append, List.map_singleton, List.reverse_append, List.reverse_singleton,
    List.singleton_append, Nat.ofDigits_cons, Nat.add_comm]
  rfl

theorem foldlM_map_char (digits : List HexDigit) :
    (digits.map char).foldlM (fun value c => (Escape.hexValue? c).map (16 * value + ·)) 0 =
      some (number digits) := by
  induction digits using List.reverseRecOn with
  | nil => rfl
  | append_singleton digits digit ih =>
      rw [List.map_append, List.foldlM_append, ih, number_concat]
      simp only [List.map_cons, List.map_nil, List.foldlM_cons, List.foldlM_nil, hexValue?_char]
      rfl

theorem hexNumber?_map_char {digits : List HexDigit} (h : digits ≠ []) :
    Escape.hexNumber? (digits.map char) = some (number digits) := by
  rw [Escape.hexNumber?, if_neg (by simpa using h), foldlM_map_char]

/-- Digits that write the number of a character name that character. -/
theorem codePoint?_map_char {digits : List HexDigit} {c : Char} (h : digits ≠ [])
    (hnumber : number digits = c.toNat) : Escape.codePoint? (digits.map char) = some c := by
  have hdigits : Escape.codePoint? (digits.map char) =
      (Escape.hexNumber? (digits.map char)).bind fun number =>
        if h : number.isValidChar then some (Char.ofNatAux number h) else none := by
    unfold Escape.codePoint?
    generalize (fun number : Nat =>
      if h : number.isValidChar then some (Char.ofNatAux number h) else none) = ofNumber
    split
    next unsigned hplus =>
      obtain ⟨digit, _, hdigit⟩ := List.map_eq_cons_iff.mp hplus
      exact absurd hdigit.2.1 (digit.char_ne rfl)
    next => rfl
  have hvalid : (number digits).isValidChar := hnumber ▸ c.valid
  rw [hdigits, hexNumber?_map_char h, Option.bind_some, dif_pos hvalid]
  have htoNat : (Char.ofNatAux (number digits) hvalid).toNat = number digits := rfl
  exact congrArg some (Char.toNat_inj.mp (htoNat.trans hnumber))

theorem numbered_map_char {digits : List HexDigit} {c : Char} (h : digits ≠ [])
    (hnumber : number digits = c.toNat) (letter : Char) (length : Nat) :
    Escape.numbered letter (digits.map char) length = ⟨[c], length⟩ := by
  rw [Escape.numbered, codePoint?_map_char h hnumber]

/-- As many digits as are looked for are all taken, whatever follows. -/
theorem takeWhile_take_map_char (digits : List HexDigit) (rest : List Char) :
    ((digits.map char ++ rest).take digits.length).takeWhile Escape.isHexDigit =
      digits.map char := by
  have htake : (digits.map char ++ rest).take digits.length = digits.map char := by
    rw [← List.length_map char, List.take_left]
  rw [htake, List.takeWhile_eq_self_iff.mpr]
  intro c hc
  obtain ⟨digit, -, rfl⟩ := List.mem_map.mp hc
  exact digit.isHexDigit_char

theorem takeWhile_brace_map_char (digits : List HexDigit) (rest : List Char) :
    (digits.map char ++ '\x7d' :: rest).takeWhile (· != '\x7d') = digits.map char := by
  have hdigits : ∀ c ∈ digits.map char, (c != '\x7d') = true := by
    intro c hc
    obtain ⟨digit, -, rfl⟩ := List.mem_map.mp hc
    exact bne_iff_ne.mpr (digit.char_ne rfl)
  rw [List.takeWhile_append_of_pos hdigits, List.takeWhile_cons_of_neg (by simp),
    List.append_nil]

end HexDigit

/-! ## Ways to write a string -/

/-- The quotes that a string can stand between. -/
inductive Quote where
  | single
  | double
deriving DecidableEq, Repr

def Quote.char : Quote → Char
  | .single => '\x27'
  | .double => '"'

/-- The letters that stand for another character after a backslash. -/
def namedEscapes : List (Char × Char) :=
  [('n', '\n'), ('t', '\t'), ('r', '\r'), ('b', '\x08'), ('f', '\x0c'), ('v', '\x0b'),
    ('0', '\x00')]

/-- What has a meaning of its own after a backslash. -/
def meaningful : List Char :=
  namedEscapes.map Prod.fst ++ ['x', 'u', '\n']

/-- A way to write a character between two quotes. -/
inductive Spelling (quote : Quote) : Char → Type where
  | plain {c : Char} (hquote : c ≠ quote.char) (hslash : c ≠ '\\') (hfeed : c ≠ '\n') :
      Spelling quote c
  | named {c : Char} (letter : Char) (h : (letter, c) ∈ namedEscapes) : Spelling quote c
  | byte {c : Char} (digits : List HexDigit) (hlength : digits.length = 2)
      (h : HexDigit.number digits = c.toNat) : Spelling quote c
  | fourDigits {c : Char} (digits : List HexDigit) (hlength : digits.length = 4)
      (h : HexDigit.number digits = c.toNat) : Spelling quote c
  | braced {c : Char} (digits : List HexDigit) (hne : digits ≠ [])
      (h : HexDigit.number digits = c.toNat) : Spelling quote c
  | escaped {c : Char} (h : c ∉ meaningful) : Spelling quote c

/-- A way to write characters between two quotes: each in some spelling, with continued lines
between them. -/
inductive Encoding (quote : Quote) : List Char → Type where
  | done : Encoding quote []
  | char {c : Char} {chars : List Char} (spelling : Spelling quote c)
      (behind : Encoding quote chars) : Encoding quote (c :: chars)
  | continued {chars : List Char} (behind : Encoding quote chars) : Encoding quote chars

variable {quote : Quote}

def Spelling.write {c : Char} : Spelling quote c → List Char
  | .plain _ _ _ => [c]
  | .named letter _ => ['\\', letter]
  | .byte digits _ _ => '\\' :: 'x' :: digits.map HexDigit.char
  | .fourDigits digits _ _ => '\\' :: 'u' :: digits.map HexDigit.char
  | .braced digits _ _ => '\\' :: 'u' :: '\x7b' :: (digits.map HexDigit.char ++ ['\x7d'])
  | .escaped _ => ['\\', c]

namespace Encoding

def write : {chars : List Char} → Encoding quote chars → List Char
  | _, .done => []
  | _, .char spelling behind => spelling.write ++ behind.write
  | _, .continued behind => '\\' :: '\n' :: behind.write

/-- The literal between its quotes. -/
def literal {chars : List Char} (encoding : Encoding quote chars) : String :=
  String.ofList (quote.char :: (encoding.write ++ [quote.char]))

end Encoding

/-! ## Reading what was written -/

theorem Escape.read_named {letter c : Char} (h : (letter, c) ∈ namedEscapes) (rest : List Char) :
    read (letter :: rest) = ⟨[c], 1⟩ := by
  simp only [namedEscapes, List.mem_cons, Prod.mk.injEq, List.not_mem_nil, or_false] at h
  rcases h with ⟨rfl, rfl⟩ | ⟨rfl, rfl⟩ | ⟨rfl, rfl⟩ | ⟨rfl, rfl⟩ | ⟨rfl, rfl⟩ | ⟨rfl, rfl⟩ |
    ⟨rfl, rfl⟩
  all_goals rfl

/-- After a backslash, what has no meaning of its own stands for itself. -/
theorem Escape.read_of_not_meaningful {c : Char} (h : c ∉ meaningful) (rest : List Char) :
    read (c :: rest) = ⟨[c], 1⟩ := by
  simp only [meaningful, namedEscapes, List.map_cons, List.map_nil, List.cons_append,
    List.nil_append, List.mem_cons, List.not_mem_nil, or_false, not_or] at h
  unfold Escape.read
  split <;> simp_all

/-- Four digits behind the letter are no brace. -/
theorem Escape.read_fourDigits {digits : List HexDigit} (hlength : digits.length = 4)
    (rest : List Char) :
    read ('u' :: (digits.map HexDigit.char ++ rest)) =
      numbered 'u' (digits.map HexDigit.char) (1 + digits.length) := by
  have htake := HexDigit.takeWhile_take_map_char digits rest
  rw [hlength] at htake
  rcases digits with _ | ⟨digit, digits⟩
  · cases hlength
  · rw [List.map_cons, List.cons_append] at htake ⊢
    rw [read_u_of_ne (digit.char_ne rfl), htake, List.length_cons, List.length_map,
      List.length_cons]

theorem Escape.read_byte {digits : List HexDigit} (hlength : digits.length = 2)
    (rest : List Char) :
    read ('x' :: (digits.map HexDigit.char ++ rest)) =
      numbered 'x' (digits.map HexDigit.char) (1 + digits.length) := by
  have htake := HexDigit.takeWhile_take_map_char digits rest
  rw [hlength] at htake
  rw [read_x, htake, List.length_map]

/-- The closing brace belongs to the escape, and nothing behind it does. -/
theorem Escape.read_braced (digits : List HexDigit) (rest : List Char) :
    read ('u' :: '\x7b' :: (digits.map HexDigit.char ++ '\x7d' :: rest)) =
      numbered 'u' (digits.map HexDigit.char) (3 + digits.length) := by
  rw [read_brace, HexDigit.takeWhile_brace_map_char, List.length_append, List.length_map,
    List.length_cons]
  congr 1
  omega

/-- However a character is written, it is read as itself and reading goes on behind it. -/
theorem Spelling.readString_write {c : Char} (spelling : Spelling quote c) (rest : List Char) :
    Body.readString quote.char 0 (spelling.write ++ rest) =
      (Body.readString quote.char 0 rest).behind [c] spelling.write.length := by
  cases spelling with
  | plain hquote hslash hfeed => exact Body.readString_char hslash hquote hfeed rest
  | named letter h => exact Body.readString_escape [letter] (Escape.read_named h rest)
  | byte digits hlength h =>
      refine Body.readString_escape ('x' :: digits.map HexDigit.char) ?_
      rw [List.cons_append, Escape.read_byte hlength, List.length_cons, List.length_map,
        Nat.add_comm]
      exact HexDigit.numbered_map_char (List.ne_nil_of_length_pos (by omega)) h _ _
  | fourDigits digits hlength h =>
      refine Body.readString_escape ('u' :: digits.map HexDigit.char) ?_
      rw [List.cons_append, Escape.read_fourDigits hlength, List.length_cons, List.length_map,
        Nat.add_comm]
      exact HexDigit.numbered_map_char (List.ne_nil_of_length_pos (by omega)) h _ _
  | braced digits hne h =>
      refine Body.readString_escape
        ('u' :: '\x7b' :: (digits.map HexDigit.char ++ ['\x7d'])) ?_
      rw [List.cons_append, List.cons_append, List.append_assoc, List.singleton_append,
        Escape.read_braced, HexDigit.numbered_map_char hne h]
      simp only [List.length_cons, List.length_append, List.length_map, List.length_nil,
        Escape.mk.injEq, true_and]
      omega
  | escaped h =>
      exact Body.readString_escape [c] (Escape.read_of_not_meaningful h rest)

/-- A continued line adds nothing. -/
theorem Body.readString_continued (quote : Char) (rest : List Char) :
    readString quote 0 ('\\' :: '\n' :: rest) = (readString quote 0 rest).behind [] 2 :=
  readString_escape ['\n'] rfl

theorem Encoding.readString_write {chars : List Char} (encoding : Encoding quote chars)
    (rest : List Char) :
    Body.readString quote.char 0 (encoding.write ++ rest) =
      (Body.readString quote.char 0 rest).behind chars encoding.write.length := by
  induction encoding with
  | done => simp only [write, Body.behind, List.nil_append, List.length_nil, Nat.zero_add]
  | char spelling behind ih =>
      rw [write, List.append_assoc, spelling.readString_write, ih, Body.behind_behind,
        List.singleton_append, List.length_append]
  | continued behind ih =>
      rw [write, List.cons_append, List.cons_append, Body.readString_continued, ih,
        Body.behind_behind, List.nil_append, List.length_cons, List.length_cons, Nat.add_comm 2]

theorem Body.readString_quote (quote : Quote) (rest : List Char) :
    readString quote.char 0 (quote.char :: rest) = ⟨[], 1, .closed⟩ := by
  cases quote <;> rfl

/-- A literal is one lexeme up to its closing quote. -/
theorem Encoding.read_literal {chars : List Char} (encoding : Encoding quote chars)
    (depths : List Nat) (rest : List Char) :
    Lexeme.read depths quote.char (encoding.write ++ quote.char :: rest) =
      ⟨some .stringLiteral, encoding.write.length + 1, some chars, none, depths⟩ := by
  have hbody : Body.readString quote.char 0 (encoding.write ++ quote.char :: rest) =
      ⟨chars, encoding.write.length + 1, .closed⟩ := by
    rw [encoding.readString_write, Body.readString_quote, Body.behind, List.append_nil]
  have hread : Lexeme.read depths quote.char (encoding.write ++ quote.char :: rest) =
      Lexeme.string depths
        (Body.readString quote.char 0 (encoding.write ++ quote.char :: rest)) := by
    cases quote <;> rfl
  rw [hread, hbody]
  rfl

/-- However a string is written between quotes, all of the literal is one token with that
string as its text. -/
theorem lex_literal (source : SourceId) {text : String} (encoding : Encoding quote text.toList) :
    lex encoding.literal source =
      ⟨[⟨.stringLiteral, text,
            ⟨source, .start, Pos.start.through encoding.literal.toList⟩, false⟩,
          ⟨.endOfText, "", .point source (Pos.start.through encoding.literal.toList), false⟩],
        []⟩ := by
  have hread := encoding.read_literal [] []
  have hspace : Unicode.isWhiteSpace quote.char = false := by cases quote <;> rfl
  have hlength : (encoding.write ++ [quote.char]).length = encoding.write.length + 1 :=
    List.length_append
  have hlex : lex encoding.literal source = lexFrom source 0 .initial encoding.literal.toList :=
    rfl
  rw [hlex, Encoding.literal, String.toList_ofList, lexFrom_lexeme source _ _ _ hspace hread,
    lexFrom, piecesOnto_skip]
  dsimp only
  rw [← hlength, List.drop_length, List.take_length]
  simp only [piecesOnto, LexState.piece, List.take_length, Option.getD_some,
    String.ofList_toList]
  rfl

/-- One character in each spelling, with a continued line between them. -/
def everySpelling : Encoding .double ['a', '\n', 'é', 'Ω', '😀', '"'] :=
  .char (.plain (by decide) (by decide) (by decide)) <|
  .char (.named 'n' (by decide)) <|
  .char (.byte [⟨14, true⟩, ⟨9, false⟩] rfl (by decide)) <|
  .continued <|
  .char (.fourDigits [⟨0, false⟩, ⟨3, false⟩, ⟨10, false⟩, ⟨9, false⟩] rfl (by decide)) <|
  .char (.braced [⟨1, false⟩, ⟨15, true⟩, ⟨6, false⟩, ⟨0, false⟩, ⟨0, false⟩] (by decide) (by decide)) <|
  .char (.escaped (by decide)) .done

/-- The literal is read as the string that it stands for. -/
theorem lex_literal_everySpelling :
    let literal := "\"a\\n\\xE9\\\n\\u03a9\\u\x7b1F600\x7d\\\"\""
    lex literal ⟨0⟩ =
      ⟨[⟨.stringLiteral, "a\néΩ😀\"", ⟨⟨0⟩, .start, Pos.start.through literal.toList⟩, false⟩,
          ⟨.endOfText, "", .point ⟨0⟩ (Pos.start.through literal.toList), false⟩], []⟩ := by
  have hchars : "a\néΩ😀\"".toList = ['a', '\n', 'é', 'Ω', '😀', '"'] := by decide +kernel
  obtain ⟨encoding, hliteral⟩ : ∃ encoding : Encoding .double "a\néΩ😀\"".toList,
      encoding.literal = "\"a\\n\\xE9\\\n\\u03a9\\u\x7b1F600\x7d\\\"\"" := by
    rw [hchars]
    exact ⟨everySpelling, by decide +kernel⟩
  rw [← hliteral]
  exact lex_literal ⟨0⟩ encoding

end DeclFile

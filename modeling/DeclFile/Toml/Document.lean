import DeclFile.Toml.Scalar
import DeclFile.Toml.Text

/-! # TOML documents

Reading a document gives its root table, or nothing where it is malformed. Arrays and tables
in braces nest to a fixed depth, and so do dotted keys; that bound is what the recursion on
values goes down on.
-/

namespace DeclFile.Toml

/-- How deep arrays and tables in braces may nest, and how many parts a dotted key may have. -/
def depthLimit : Nat := 79

/-- Whether a character can stand in a key without quotes. -/
def isBareKeyChar (c : Char) : Bool := c.isAlphanum || c == '_' || c == '-'

/-- A key without dots and the characters left. -/
def simpleKey? (chars : List Char) : Option (String × List Char) :=
  match chars with
  | '"' :: rest => (basicString? rest).map fun (key, rest) => (String.ofList key, rest)
  | '\x27' :: rest => (literalString? rest).map fun (key, rest) => (String.ofList key, rest)
  | _ =>
      match chars.takeWhile isBareKeyChar with
      | [] => none
      | key => some (String.ofList key, chars.dropWhile isBareKeyChar)

/-- The keys of a dotted key, at most `parts` of them, with blanks around each, and the
characters left. -/
def keyParts? : (parts : Nat) → List Char → Option (List String × List Char)
  | 0, _ => none
  | parts + 1, chars => do
      let (key, rest) ← simpleKey? (chars.dropWhile isBlank)
      match rest.dropWhile isBlank with
      | '.' :: rest =>
          let (keys, rest) ← keyParts? parts rest
          return (key :: keys, rest)
      | rest => return ([key], rest)

/-- A dotted key: the path to its table, its last part, and the characters left. -/
def key? (chars : List Char) : Option (List String × String × List Char) := do
  let (keys, rest) ← keyParts? depthLimit chars
  return (keys.dropLast, ← keys.getLast?, rest)

/-- A value written as a word and the characters left. A time may follow a date after a
blank. -/
def word? (chars : List Char) : Option (Value × List Char) :=
  let word := chars.takeWhile isWordChar
  let rest := chars.dropWhile isWordChar
  let time := (rest.drop 1).takeWhile isWordChar
  if isDate word && rest.head? == some ' ' && isOffsetTime time then
    some (.date (String.ofList (word ++ ' ' :: time)), rest.drop (1 + time.length))
  else (scalar? word).map (·, rest)

/-- The items of an array after its opening bracket and the characters left. Each turn reads
one item. -/
def items? (value? : List Char → Option (Value × List Char)) :
    (turns : Nat) → List Char → Option (List Value × List Char)
  | 0, _ => none
  | turns + 1, chars => do
      match ← afterSpace? false chars with
      | ']' :: rest => return ([], rest)
      | start =>
          let (item, rest) ← value? start
          match ← afterSpace? false rest with
          | ',' :: rest =>
              let (items, rest) ← items? value? turns rest
              return (item :: items, rest)
          | ']' :: rest => return ([item], rest)
          | _ => none

/-- The entries of a table in braces, added to `table`, and the characters left. Each turn
reads one entry. -/
def entries? (value? : List Char → Option (Value × List Char)) :
    (turns : Nat) → Table → List Char → Option (Table × List Char)
  | 0, _, _ => none
  | turns + 1, table, chars => do
      let (path, key, rest) ← key? chars
      let rest ← after? '=' rest
      let (value, rest) ← value? (rest.dropWhile isBlank)
      let table ← table.define path key value
      match rest.dropWhile isBlank with
      | ',' :: rest => entries? value? turns table rest
      | '\x7d' :: rest => return (table, rest)
      | _ => none

/-- A value that holds no others and the characters left. -/
def simpleValue? (chars : List Char) : Option (Value × List Char) :=
  match chars.head? with
  | some '"' | some '\x27' => do
      let (text, rest) ← string? chars
      return (.string (String.ofList text), rest)
  | _ => word? chars

/-- A value and the characters left. Arrays and tables in braces may nest `levels` deep. -/
def value? : (levels : Nat) → List Char → Option (Value × List Char)
  | 0, chars => simpleValue? chars
  | levels + 1, chars =>
      match chars with
      | '[' :: rest => do
          let (items, rest) ← items? (value? levels) (rest.length + 1) rest
          return (.array items, rest)
      | '\x7b' :: rest => do
          match rest.dropWhile isBlank with
          | '\x7d' :: rest => return (.table (.empty .inline), rest)
          | start =>
              let (table, rest) ← entries? (value? levels) (rest.length + 1) (.empty .inline) start
              return (.table table, rest)
      | _ => simpleValue? chars

/-- A document as far as it was read: its root and the path of the last header. -/
structure Document where
  root : Table
  current : List String

namespace Document

/-- An empty document. -/
def empty : Document := ⟨.empty .header, []⟩

/-- A header and the characters after its line. -/
def header? (document : Document) (chars : List Char) : Option (Document × List Char) := do
  match chars with
  | '[' :: '[' :: rest =>
      let (path, key, rest) ← key? rest
      let rest ← after? ']' (← after? ']' rest)
      return (⟨← document.root.openNext path key, path ++ [key]⟩, ← afterLine? rest)
  | '[' :: rest =>
      let (path, key, rest) ← key? rest
      let rest ← after? ']' rest
      return (⟨← document.root.openTable path key, path ++ [key]⟩, ← afterLine? rest)
  | _ => none

/-- An entry of the current table and the characters after its line. -/
def entry? (document : Document) (chars : List Char) : Option (Document × List Char) := do
  let (path, key, rest) ← key? chars
  let rest ← after? '=' rest
  let (value, rest) ← value? depthLimit (rest.dropWhile isBlank)
  let root ← document.root.changeAt false (·.define path key value) document.current
  return (⟨root, document.current⟩, ← afterLine? rest)

/-- One line of a document and the characters after it. -/
def line? (document : Document) (chars : List Char) : Option (Document × List Char) :=
  match chars.dropWhile isBlank with
  | [] => some (document, [])
  | '[' :: rest => document.header? ('[' :: rest)
  | c :: rest =>
      if c = '#' || c = '\n' || c = '\r' then
        (afterLine? (c :: rest)).map (document, ·)
      else document.entry? (c :: rest)

/-- Reads lines until none is left. Each turn reads one. -/
def read? : (turns : Nat) → Document → List Char → Option Document
  | _, document, [] => some document
  | 0, _, _ => none
  | turns + 1, document, chars => do
      let (document, rest) ← document.line? chars
      read? turns document rest

end Document

/-- The root table of a document. A byte order mark in front is passed over. -/
def parse? (text : String) : Option Table :=
  let chars := match text.toList with
    | '\uFEFF' :: rest => rest
    | chars => chars
  (Document.read? chars.length .empty chars).map Document.root

end DeclFile.Toml

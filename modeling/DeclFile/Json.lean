/-! # JSON texts

The values that results are written as, with their compact and their indented text. Fields
keep their order. Only natural numbers occur.
-/

namespace DeclFile

mutual

/-- A JSON value. -/
inductive Json where
  | null
  | bool (value : Bool)
  | number (value : Nat)
  | string (value : String)
  | array (items : List Json)
  | object (fields : List JsonField)

/-- A field of a JSON object. -/
structure JsonField where
  key : String
  value : Json

end

instance : Inhabited Json := ⟨.null⟩

namespace Json

/-- An object from its fields in order. -/
def ofFields (fields : List (String × Json)) : Json :=
  .object (fields.map fun (key, value) => ⟨key, value⟩)

/-- An absent value is null. -/
def ofOption {α : Type} (encode : α → Json) : Option α → Json
  | none => .null
  | some value => encode value

/-- A list is an array. -/
def ofList {α : Type} (encode : α → Json) (values : List α) : Json :=
  .array (values.map encode)

/-- The hexadecimal digit of a number below sixteen. -/
def hexDigit (n : Nat) : Char := Nat.digitChar n

/-- A character inside a quoted text: quotes, backslashes and control characters are
escaped, everything else stands for itself. -/
def escapeChar (c : Char) : List Char :=
  match c with
  | '"' => ['\\', '"']
  | '\\' => ['\\', '\\']
  | '\x08' => ['\\', 'b']
  | '\x0c' => ['\\', 'f']
  | '\n' => ['\\', 'n']
  | '\r' => ['\\', 'r']
  | '\t' => ['\\', 't']
  | _ =>
      if c.toNat < 0x20 then
        ['\\', 'u', '0', '0', hexDigit (c.toNat / 16), hexDigit (c.toNat % 16)]
      else [c]

/-- A text in quotes. -/
def quote (text : String) : String :=
  String.ofList ('"' :: text.toList.flatMap escapeChar ++ ['"'])

mutual

/-- Appends the one-line text of a value to `out`. -/
def compactOnto (out : String) : Json → String
  | .null => out ++ "null"
  | .bool true => out ++ "true"
  | .bool false => out ++ "false"
  | .number value => out ++ toString value
  | .string value => out ++ quote value
  | .array [] => out ++ "[]"
  | .array (item :: items) => compactItemsOnto (compactOnto (out ++ "[") item) items
  | .object [] => out ++ "\x7b\x7d"
  | .object (⟨key, value⟩ :: fields) =>
      compactFieldsOnto (compactOnto (out ++ "\x7b" ++ quote key ++ ":") value) fields

/-- Appends the items after the first and the closing bracket. -/
def compactItemsOnto (out : String) : List Json → String
  | [] => out ++ "]"
  | item :: items => compactItemsOnto (compactOnto (out ++ ",") item) items

/-- Appends the fields after the first and the closing brace. -/
def compactFieldsOnto (out : String) : List JsonField → String
  | [] => out ++ "\x7d"
  | ⟨key, value⟩ :: fields =>
      compactFieldsOnto (compactOnto (out ++ "," ++ quote key ++ ":") value) fields

end

/-- The one-line text of a value. -/
def compact (value : Json) : String := compactOnto "" value

/-- A new line at the given level, two spaces deep each. -/
def lineBreak (level : Nat) : String := String.ofList ('\n' :: List.replicate (2 * level) ' ')

mutual

/-- Appends the indented text of a value that stands at `level` to `out`. -/
def prettyOnto (level : Nat) (out : String) : Json → String
  | .null => out ++ "null"
  | .bool true => out ++ "true"
  | .bool false => out ++ "false"
  | .number value => out ++ toString value
  | .string value => out ++ quote value
  | .array [] => out ++ "[]"
  | .array (item :: items) =>
      prettyItemsOnto level (prettyOnto (level + 1) (out ++ "[" ++ lineBreak (level + 1)) item) items
  | .object [] => out ++ "\x7b\x7d"
  | .object (⟨key, value⟩ :: fields) =>
      prettyFieldsOnto level
        (prettyOnto (level + 1) (out ++ "\x7b" ++ lineBreak (level + 1) ++ quote key ++ ": ") value)
        fields

/-- Appends the items after the first and the closing bracket. -/
def prettyItemsOnto (level : Nat) (out : String) : List Json → String
  | [] => out ++ lineBreak level ++ "]"
  | item :: items =>
      prettyItemsOnto level (prettyOnto (level + 1) (out ++ "," ++ lineBreak (level + 1)) item) items

/-- Appends the fields after the first and the closing brace. -/
def prettyFieldsOnto (level : Nat) (out : String) : List JsonField → String
  | [] => out ++ lineBreak level ++ "\x7d"
  | ⟨key, value⟩ :: fields =>
      prettyFieldsOnto level
        (prettyOnto (level + 1) (out ++ "," ++ lineBreak (level + 1) ++ quote key ++ ": ") value)
        fields

end

/-- The indented text of a value. -/
def pretty (value : Json) : String := prettyOnto 0 "" value

end Json

end DeclFile

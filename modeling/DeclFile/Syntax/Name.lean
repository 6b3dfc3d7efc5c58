import DeclFile.Position

/-! # Names, literals and modifiers

The leaves of the syntax of a declaration file. A name keeps the span it was written at.
-/

namespace DeclFile

/-- An identifier where it was written. -/
structure Ident where
  name : String
  span : Span
deriving DecidableEq, Repr, Inhabited

/-- A string literal where it was written, without its quotes. -/
structure StringLit where
  value : String
  span : Span
deriving DecidableEq, Repr, Inhabited

/-- A dotted name such as `A.B.C`; it has at least one segment. -/
structure EntityName where
  first : Ident
  rest : List Ident
  span : Span
deriving DecidableEq, Repr, Inhabited

namespace EntityName

/-- The identifiers between the dots. -/
def segments (name : EntityName) : List Ident := name.first :: name.rest

/-- The only segment of a name without dots. -/
def single? (name : EntityName) : Option Ident :=
  if name.rest.isEmpty then some name.first else none

/-- The last segment. -/
def last (name : EntityName) : Ident := name.rest.getLastD name.first

/-- A dotted name as it is written. -/
def render (name : EntityName) : String :=
  ".".intercalate (name.segments.map Ident.name)

end EntityName

/-- What stands between the brackets of a computed name. -/
inductive KeyExpr where
  | name (name : EntityName)
  | string (value : String)
  | number (value : String)
deriving DecidableEq, Repr

/-- The name of a member. -/
inductive PropertyName where
  | ident (ident : Ident)
  | string (literal : StringLit)
  | number (value : String) (span : Span)
  | computed (expr : KeyExpr) (span : Span)
  /-- A `#name`, kept without its mark. -/
  | privateName (ident : Ident)
deriving DecidableEq, Repr

namespace PropertyName

/-- Where a member name was written. -/
def span : PropertyName → Span
  | .ident id | .privateName id => id.span
  | .string literal => literal.span
  | .number _ place | .computed _ place => place

/-- The name as a text, unless it is computed. -/
def text? : PropertyName → Option String
  | .ident id | .privateName id => some id.name
  | .string literal => some literal.value
  | .number value _ => some value
  | .computed _ _ => none

end PropertyName

/-- A literal value. Numbers keep their digits as text, with a minus sign in front when they
are negative and without the suffix of a bigint. -/
inductive Literal where
  | string (value : String)
  | number (digits : String)
  | bigint (digits : String)
  | boolean (value : Bool)
deriving DecidableEq, Repr

/-- The types that are written as keywords. -/
inductive Primitive where
  | string | number | boolean | bigint | symbol | uniqueSymbol | void | null | undefined
  | never | any | unknown | object | intrinsic
deriving DecidableEq, Repr

/-- How a primitive type is written. -/
def Primitive.spelling : Primitive → String
  | .string => "string"
  | .number => "number"
  | .boolean => "boolean"
  | .bigint => "bigint"
  | .symbol => "symbol"
  | .uniqueSymbol => "unique symbol"
  | .void => "void"
  | .null => "null"
  | .undefined => "undefined"
  | .never => "never"
  | .any => "any"
  | .unknown => "unknown"
  | .object => "object"
  | .intrinsic => "intrinsic"

/-- The words that may stand in front of a class member or a parameter. -/
inductive Modifier where
  | «public» | «private» | «protected» | static | readonly | abstract | async | override
  | declare | accessor
deriving DecidableEq, Repr

/-- Every modifier, in the order in which sets of them are listed. -/
def Modifier.all : List Modifier :=
  [.public, .private, .protected, .static, .readonly, .abstract, .async, .override, .declare,
    .accessor]

/-- A set of modifiers, listed in the order of `Modifier.all`. -/
structure Modifiers where
  toList : List Modifier
deriving DecidableEq, Repr

/-- Who may use a member. -/
inductive Visibility where
  | «public» | «protected» | «private»
deriving DecidableEq, Repr

namespace Modifiers

/-- No modifiers. -/
def empty : Modifiers := ⟨[]⟩

/-- Whether a modifier is in the set. -/
def contains (modifiers : Modifiers) (modifier : Modifier) : Bool :=
  modifiers.toList.contains modifier

/-- The set with `modifier` in it. -/
def insert (modifiers : Modifiers) (modifier : Modifier) : Modifiers :=
  ⟨Modifier.all.filter fun other => other == modifier || modifiers.contains other⟩

theorem contains_insert (modifiers : Modifiers) (modifier other : Modifier) :
    (modifiers.insert modifier).contains other =
      (other == modifier || modifiers.contains other) := by
  have hall : other ∈ Modifier.all := by cases other <;> decide
  rw [Bool.eq_iff_iff]
  simp [insert, contains, hall]

/-- The strictest visibility that the modifiers ask for. -/
def visibility (modifiers : Modifiers) : Visibility :=
  if modifiers.contains .private then .private
  else if modifiers.contains .protected then .protected
  else .public

end Modifiers

end DeclFile

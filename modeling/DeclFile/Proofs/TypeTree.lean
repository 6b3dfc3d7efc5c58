import DeclFile.Proofs.Blank
import DeclFile.Proofs.Quiet.Basic

/-! # Type trees

The types in the order in which their forms bind, and how they are written with no more
parentheses than they have. Each stratum holds the tighter ones, so that a tree of the
loosest stratum is a type in which nothing binds across the nodes.
-/

namespace DeclFile

/-- The strata of types, from the one that binds tightest. -/
inductive Stratum where
  | primary | suffixed | operator | intersection | union | full
deriving DecidableEq, Repr

/-- A word that can name a binding. -/
structure BindingWord where
  kind : Kind
  text : String
  binds : kind.isBindingName = true

/-- A word that can stand where a name is allowed that need not name a binding. -/
structure NameWord where
  kind : Kind
  text : String
  names : kind.isName = true

theorem Kind.isBindingName_identifier : Kind.identifier.isBindingName = true := rfl

theorem Kind.isName_identifier : Kind.identifier.isName = true := rfl

theorem Kind.isName_word (keyword : Keyword) : (Kind.word keyword).isName = true := rfl

/-- An identifier, as the name of a binding. -/
def BindingWord.ofText (text : String) : BindingWord :=
  ⟨.identifier, text, Kind.isBindingName_identifier⟩

/-- A keyword that is not reserved, as the name of a binding. -/
def BindingWord.ofKeyword (keyword : Keyword) (h : (Kind.word keyword).isBindingName = true) :
    BindingWord :=
  ⟨.word keyword, keyword.spelling, h⟩

/-- An identifier, as a name. -/
def NameWord.ofText (text : String) : NameWord := ⟨.identifier, text, Kind.isName_identifier⟩

/-- A keyword, as a name. -/
def NameWord.ofKeyword (keyword : Keyword) : NameWord :=
  ⟨.word keyword, keyword.spelling, Kind.isName_word keyword⟩

/-- Identifiers with dots between them; a single one is not `intrinsic`. -/
structure DottedName where
  first : String
  rest : List String
  ordinary : rest = [] → first ≠ "intrinsic"

/-- How a modifier of a mapped type is written. -/
inductive ModifierSign where
  | absent | bare | plus | minus
deriving DecidableEq, Repr

mutual

/-- A type of a stratum. -/
inductive TypeTree : Stratum → Type
  | keyword (keyword : Keyword) (primitive : Primitive)
      (spelled : keyword.spelling = primitive.spelling) : TypeTree .primary
  | string (value : String) : TypeTree .primary
  | bigint (digits : String) : TypeTree .primary
  | boolean (value : Bool) : TypeTree .primary
  | number (isNegative : Bool) (digits : String) : TypeTree .primary
  | this : TypeTree .primary
  | name (name : DottedName) : TypeTree .primary
  /-- A name with arguments, at least one. -/
  | applied (name : DottedName) (first : TypeTree .full) (more : TypeTrees .full) :
      TypeTree .primary
  | parenthesized (inner : TypeTree .full) : TypeTree .primary
  | tuple (elements : TypeTrees .full) : TypeTree .primary
  | mapped (readonly : ModifierSign) (key : BindingWord) (constraint : TypeTree .full)
      (nameType : Option (TypeTree .full)) (optional : ModifierSign) (value : TypeTree .full) :
      TypeTree .primary
  | ofPrimary (inner : TypeTree .primary) : TypeTree .suffixed
  | array (element : TypeTree .suffixed) : TypeTree .suffixed
  | indexed (object : TypeTree .suffixed) (index : TypeTree .full) : TypeTree .suffixed
  | ofSuffixed (inner : TypeTree .suffixed) : TypeTree .operator
  | keyOf (operand : TypeTree .operator) : TypeTree .operator
  | readonly (operand : TypeTree .operator) : TypeTree .operator
  | uniqueSymbol : TypeTree .operator
  | ofOperator (inner : TypeTree .operator) : TypeTree .intersection
  | intersection (first second : TypeTree .operator) (more : TypeTrees .operator) :
      TypeTree .intersection
  | ofIntersection (inner : TypeTree .intersection) : TypeTree .union
  | union (first second : TypeTree .intersection) (more : TypeTrees .intersection) :
      TypeTree .union
  | ofUnion (inner : TypeTree .union) : TypeTree .full
  | conditional (check bound : TypeTree .union) (whenTrue whenFalse : TypeTree .full) :
      TypeTree .full
  | function (params : List ParamTree) (result : TypeTree .full) : TypeTree .full

/-- Any number of types of a stratum. -/
inductive TypeTrees : Stratum → Type
  | nil {stratum : Stratum} : TypeTrees stratum
  | cons {stratum : Stratum} (first : TypeTree stratum) (more : TypeTrees stratum) :
      TypeTrees stratum

/-- A parameter with its type. -/
structure ParamTree where
  rest : Bool
  name : BindingWord
  optional : Bool
  annotation : TypeTree .full

end

/-! ## The types that they are -/

/-- A word as an identifier, without its place. -/
def BindingWord.ident (word : BindingWord) : Ident := ⟨word.text, default⟩

def DottedName.entity (name : DottedName) : EntityName :=
  ⟨⟨name.first, default⟩, name.rest.map fun segment => ⟨segment, default⟩, default⟩

def ModifierSign.modifier : ModifierSign → MappedModifier
  | .absent => .none
  | .bare | .plus => .add
  | .minus => .remove

/-- An element of a tuple without a label, without its place. -/
def TupleElement.unlabelled (type : Ty) : TupleElement := ⟨none, false, false, type, default⟩

mutual

/-- The type of the tree, without its place. -/
@[simp] def TypeTree.type {stratum : Stratum} : TypeTree stratum → Ty
  | .keyword _ primitive _ => ⟨.primitive primitive, default⟩
  | .string value => ⟨.literal (.string value), default⟩
  | .bigint digits => ⟨.literal (.bigint digits), default⟩
  | .boolean value => ⟨.literal (.boolean value), default⟩
  | .number isNegative digits =>
      ⟨.literal (.number (if isNegative then "-" ++ digits else digits)), default⟩
  | .this => ⟨.this, default⟩
  | .name name => ⟨.reference ⟨name.entity, none, default⟩, default⟩
  | .applied name first more =>
      ⟨.reference ⟨name.entity, some (first.type :: more.types), default⟩, default⟩
  | .parenthesized inner => ⟨.parenthesized inner.type, default⟩
  | .tuple elements => ⟨.tuple (elements.types.map TupleElement.unlabelled), default⟩
  | .mapped readonly key constraint nameType optional value =>
      ⟨.mapped ⟨key.ident, constraint.type, optionalType nameType, readonly.modifier,
        optional.modifier, some value.type⟩, default⟩
  | .ofPrimary inner | .ofSuffixed inner | .ofOperator inner | .ofIntersection inner
  | .ofUnion inner => inner.type
  | .array element => ⟨.array element.type, default⟩
  | .indexed object index => ⟨.indexedAccess object.type index.type, default⟩
  | .keyOf operand => ⟨.keyOf operand.type, default⟩
  | .readonly operand => ⟨.readonly operand.type, default⟩
  | .uniqueSymbol => ⟨.primitive .uniqueSymbol, default⟩
  | .intersection first second more =>
      ⟨.intersection (first.type :: second.type :: more.types), default⟩
  | .union first second more => ⟨.union (first.type :: second.type :: more.types), default⟩
  | .conditional check bound whenTrue whenFalse =>
      ⟨.conditional check.type bound.type whenTrue.type whenFalse.type, default⟩
  | .function params result => ⟨.function ⟨[], paramsOf params, result.type⟩, default⟩

@[simp] def optionalType : Option (TypeTree .full) → Option Ty
  | none => none
  | some tree => some tree.type

@[simp] def TypeTrees.types {stratum : Stratum} : TypeTrees stratum → List Ty
  | .nil => []
  | .cons first more => first.type :: more.types

@[simp] def ParamTree.param : ParamTree → Param
  | ⟨rest, name, optional, annotation⟩ =>
      ⟨.ident name.ident, some annotation.type, optional, rest, .empty, default⟩

@[simp] def paramsOf : List ParamTree → List Param
  | [] => []
  | first :: more => first.param :: paramsOf more

end

/-! ## How they are written -/

def BindingWord.symbol (word : BindingWord) : Symbol := ⟨word.kind, word.text⟩

def NameWord.symbol (word : NameWord) : Symbol := ⟨word.kind, word.text⟩

def DottedName.write (name : DottedName) : List Symbol :=
  ⟨.identifier, name.first⟩ ::
    name.rest.flatMap fun segment => [.mark .dot, ⟨.identifier, segment⟩]

/-- A modifier with its sign; `symbol` is the modifier. -/
def ModifierSign.write (symbol : Symbol) : ModifierSign → List Symbol
  | .absent => []
  | .bare => [symbol]
  | .plus => [.mark .plus, symbol]
  | .minus => [.mark .minus, symbol]

/-- What stands between the braces of a mapped type. -/
def mappedBody (readonly : ModifierSign) (key : BindingWord) (constraint clause : List Symbol)
    (optional : ModifierSign) (value : List Symbol) : List Symbol :=
  readonly.write (.word .readonly) ++ .mark .openBracket :: key.symbol :: .word .in ::
    (constraint ++ (clause ++ .mark .closeBracket ::
      (optional.write (.mark .question) ++ .mark .colon :: value)))

mutual

/-- The tree as it is written. -/
@[simp] def TypeTree.write {stratum : Stratum} : TypeTree stratum → List Symbol
  | .keyword keyword _ _ => [.word keyword]
  | .string value => [⟨.stringLiteral, value⟩]
  | .bigint digits => [⟨.bigintLiteral, digits⟩]
  | .boolean value => [.word (if value then .true else .false)]
  | .number isNegative digits => Symbol.onlyIf (.mark .minus) isNegative ++ [⟨.numberLiteral, digits⟩]
  | .this => [.word .this]
  | .name name => name.write
  | .applied name first more =>
      name.write ++ .mark .openAngle :: (commas (first.write :: more.writes) ++ [.mark .closeAngle])
  | .parenthesized inner => .mark .openParen :: (inner.write ++ [.mark .closeParen])
  | .tuple elements => .mark .openBracket :: (commas elements.writes ++ [.mark .closeBracket])
  | .mapped readonly key constraint nameType optional value =>
      .mark .openBrace :: (mappedBody readonly key constraint.write (nameClause nameType) optional
        value.write ++ [.mark .closeBrace])
  | .ofPrimary inner | .ofSuffixed inner | .ofOperator inner | .ofIntersection inner
  | .ofUnion inner => inner.write
  | .array element => element.write ++ [.mark .openBracket, .mark .closeBracket]
  | .indexed object index =>
      object.write ++ .mark .openBracket :: (index.write ++ [.mark .closeBracket])
  | .keyOf operand => .word .keyof :: operand.write
  | .readonly operand => .word .readonly :: operand.write
  | .uniqueSymbol => [.word .unique, .word .symbol]
  | .intersection first second more =>
      first.write ++ markEach .ampersand (second.write :: more.writes)
  | .union first second more => first.write ++ markEach .pipe (second.write :: more.writes)
  | .conditional check bound whenTrue whenFalse =>
      check.write ++ .word .extends :: (bound.write ++ .mark .question ::
        (whenTrue.write ++ .mark .colon :: whenFalse.write))
  | .function params result =>
      .mark .openParen :: (commas (paramWrites params) ++ .mark .closeParen :: .mark .arrow :: result.write)

/-- The name type of a mapped type, if there is one. -/
@[simp] def nameClause : Option (TypeTree .full) → List Symbol
  | none => []
  | some tree => .word .as :: tree.write

@[simp] def TypeTrees.writes {stratum : Stratum} : TypeTrees stratum → List (List Symbol)
  | .nil => []
  | .cons first more => first.write :: more.writes

@[simp] def ParamTree.write : ParamTree → List Symbol
  | ⟨rest, name, optional, annotation⟩ =>
      Symbol.onlyIf (.mark .ellipsis) rest ++ name.symbol ::
        (Symbol.onlyIf (.mark .question) optional ++ .mark .colon :: annotation.write)

@[simp] def paramWrites : List ParamTree → List (List Symbol)
  | [] => []
  | first :: more => first.write :: paramWrites more

end

/-! ## Lists of trees -/

/-- The trees as a list. -/
def TypeTrees.toList {stratum : Stratum} : TypeTrees stratum → List (TypeTree stratum)
  | .nil => []
  | .cons first more => first :: more.toList

theorem TypeTrees.types_eq_map {stratum : Stratum} (trees : TypeTrees stratum) :
    trees.types = trees.toList.map TypeTree.type := by
  match trees with
  | .nil => simp [types, toList]
  | .cons first more => simp [types, toList, more.types_eq_map]

theorem TypeTrees.writes_eq_map {stratum : Stratum} (trees : TypeTrees stratum) :
    trees.writes = trees.toList.map TypeTree.write := by
  match trees with
  | .nil => simp [writes, toList]
  | .cons first more => simp [writes, toList, more.writes_eq_map]

theorem paramsOf_eq_map (params : List ParamTree) : paramsOf params = params.map ParamTree.param := by
  induction params with
  | nil => simp [paramsOf]
  | cons first more ih => simp [paramsOf, ih]

theorem paramWrites_eq_map (params : List ParamTree) :
    paramWrites params = params.map ParamTree.write := by
  induction params with
  | nil => simp [paramWrites]
  | cons first more ih => simp [paramWrites, ih]

end DeclFile

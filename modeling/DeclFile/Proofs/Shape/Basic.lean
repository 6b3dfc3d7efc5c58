import DeclFile.Proofs.Ensures
import DeclFile.Proofs.Occurrence

/-! # The shape of syntax

What the syntax types leave open but a parsed file keeps to: how loosely the parts of a type
may bind, where types of some forms may stand, and what may stand behind `declare` and
`export`. Some of it only holds where nothing was reported, which `clean` stands for.
-/

namespace DeclFile

/-! ## Types -/

namespace TyKind

/-- How loosely a type of this form binds. Operators in front of a type bind tighter than the
marks between operands, and whatever needs no parentheses in front of `[]` binds tightest. -/
def looseness : TyKind → Nat
  | .conditional _ _ _ _ => 4
  | .union _ => 3
  | .intersection _ => 2
  | .keyOf _ | .readonly _ | .infer _ _ | .primitive .uniqueSymbol => 1
  | _ => 0

/-- Whether a type of this form needs no parentheses in front of `[]`, may stand anywhere and
asks nothing of its parts. -/
def isPrimary : TyKind → Bool
  | .primitive .uniqueSymbol => false
  | .primitive _ | .literal _ | .reference _ | .this | .function _ | .constructor _ _
  | .object _ | .parenthesized _ | .rest _ | .mapped _ | .template _ | .typeOf _ _
  | .importType _ => true
  | _ => false

/-- The parts of a type of this form bind tighter than it does, and operands are not
missing. -/
def Normal (clean : Prop) : TyKind → Prop
  | .union operands =>
      (∀ operand ∈ operands, operand.kind.looseness < 3) ∧ operands ≠ [] ∧
        (clean → 2 ≤ operands.length)
  | .intersection operands =>
      (∀ operand ∈ operands, operand.kind.looseness < 2) ∧ operands ≠ [] ∧
        (clean → 2 ≤ operands.length)
  | .keyOf operand | .readonly operand => operand.kind.looseness < 2
  | .array element => element.kind.looseness = 0
  | .indexedAccess indexed _ => indexed.kind.looseness = 0
  | .conditional check bound _ _ => check.kind.looseness < 4 ∧ bound.kind.looseness < 4
  | .infer _ constraint => ∀ type ∈ constraint, type.kind.looseness < 4
  | _ => True

end TyKind

/-- Only an element with a label is marked itself, and then its type is not marked too. -/
def TupleElement.MarkedOnce (clean : Prop) (element : TupleElement) : Prop :=
  (element.label = none → element.optional = false ∧ element.rest = false) ∧
    (clean → element.label ≠ none → ∀ inner, element.type.kind ≠ .optional inner)

/-- A type of this form may stand as `role`. -/
def TyKind.MayStandAs (clean : Prop) (role : Role) : TyKind → Prop
  | .optional _ => role = .element
  | .predicate asserts _ type => role = .result ∧ (type = none → asserts = true)
  | .tuple elements => ∀ element ∈ elements, element.MarkedOnce clean
  | _ => True

/-- A type has the form that it should have where it stands. -/
structure Occurrence.Sound (clean : Prop) (occurrence : Occurrence) : Prop where
  normal : occurrence.type.kind.Normal clean
  mayStand : occurrence.type.kind.MayStandAs clean occurrence.role

/-- All of these types have the forms that they should have. -/
def AllSound (clean : Prop) (found : List Occurrence) : Prop :=
  ∀ occurrence ∈ found, occurrence.Sound clean

section

variable {clean : Prop} {role : Role} {level : Nat}

@[simp] theorem allSound_nil : AllSound clean [] := fun _ h => absurd h List.not_mem_nil

@[simp] theorem allSound_append {first second : List Occurrence} :
    AllSound clean (first ++ second) ↔ AllSound clean first ∧ AllSound clean second :=
  List.forall_mem_append

@[simp] theorem allSound_cons {occurrence : Occurrence} {found : List Occurrence} :
    AllSound clean (occurrence :: found) ↔ occurrence.Sound clean ∧ AllSound clean found :=
  List.forall_mem_cons

theorem allSound_flatMap {α : Type} {parts : List α} {occurrences : α → List Occurrence} :
    AllSound clean (parts.flatMap occurrences) ↔
      ∀ part ∈ parts, AllSound clean (occurrences part) :=
  List.forall_mem_flatMap

theorem allSound_optional {type? : Option Ty} :
    AllSound clean (optionalOccurrences role type?) ↔
      ∀ type ∈ type?, AllSound clean (type.occurrences role) := by
  cases type? <;> simp

/-- A type of this form, with `level` for how loosely it may bind, has the form that it should
have and so have all types inside it. -/
structure TyKind.Sound (clean : Prop) (level : Nat) (kind : TyKind) : Prop where
  looseness_le : kind.looseness ≤ level
  normal : kind.Normal clean
  mayStand : kind.MayStandAs clean .other
  inner : AllSound clean kind.occurrences

/-- A type that may stand anywhere, with `level` for how loosely it may bind, has the form that
it should have and so have all types inside it. -/
structure Ty.Sound (clean : Prop) (level : Nat) (type : Ty) : Prop where
  looseness_le : type.kind.looseness ≤ level
  all : AllSound clean (type.occurrences .other)

/-- Of a primary type, only what is inside it is of concern. -/
theorem TyKind.Sound.of_isPrimary {kind : TyKind} (h : kind.isPrimary = true)
    (hinner : AllSound clean kind.occurrences) : kind.Sound clean 0 := by
  cases kind with
  | primitive primitive =>
      cases primitive with
      | uniqueSymbol => cases h
      | _ => exact ⟨Nat.le_refl _, trivial, trivial, hinner⟩
  | literal | reference | this | function | constructor | object | parenthesized | rest | mapped
  | template | typeOf | importType => exact ⟨Nat.le_refl _, trivial, trivial, hinner⟩
  | array | tuple | union | intersection | indexedAccess | conditional | infer | keyOf | predicate
  | optional | readonly => cases h

theorem TyKind.Sound.ty {kind : TyKind} (h : kind.Sound clean level) (span : Span) :
    (⟨kind, span⟩ : Ty).Sound clean level where
  looseness_le := h.looseness_le
  all := allSound_cons.mpr ⟨⟨h.normal, h.mayStand⟩, h.inner⟩

theorem Ty.Sound.looseness_lt {type : Ty} (h : type.Sound clean level) :
    type.kind.looseness < level + 1 :=
  Nat.lt_succ_of_le h.looseness_le

theorem Ty.Sound.mono {type : Ty} {level' : Nat} (h : type.Sound clean level)
    (hlevel : level ≤ level') : type.Sound clean level' :=
  ⟨Nat.le_trans h.looseness_le hlevel, h.all⟩

/-- What may stand anywhere may stand as anything. -/
theorem TyKind.MayStandAs.of_other {kind : TyKind} (h : kind.MayStandAs clean .other) :
    kind.MayStandAs clean role := by
  cases kind with
  | optional inner => cases h
  | predicate asserts subject type => cases h.1
  | _ => exact h

theorem Ty.Sound.standingAs {type : Ty} (h : type.Sound clean level) (role : Role) :
    AllSound clean (type.occurrences role) := by
  rcases type with ⟨kind, span⟩
  rcases allSound_cons.mp h.all with ⟨⟨hnormal, hstand⟩, hinner⟩
  exact allSound_cons.mpr ⟨⟨hnormal, hstand.of_other⟩, hinner⟩

/-- Only an element of a tuple is optional. -/
theorem Ty.Sound.kind_ne_optional {type : Ty} (h : type.Sound clean level) (inner : Ty) :
    type.kind ≠ .optional inner := by
  rcases type with ⟨kind, span⟩
  rintro rfl
  cases (allSound_cons.mp h.all).1.mayStand

end

/-! ## Statements -/

/-- Whether a statement of this form is a declaration by itself. -/
def StatementKind.isDeclaration : StatementKind → Bool
  | .import _ | .export _ | .ambient _ => false
  | _ => true

/-- Whether a declaration of this form runs code, for which it needs `declare` or `export`. -/
def StatementKind.isRuntime : StatementKind → Bool
  | .var _ | .function _ | .class _ => true
  | _ => false

/-- A statement of this form may stand behind `export default` or elsewhere. -/
def StatementKind.MayStand (isDefault : Bool) : StatementKind → Prop
  | .var decl =>
      decl.declarators ≠ [] ∧
        ∀ declarator ∈ decl.declarators, declarator.init ≠ none → decl.kind = .const
  | .class decl => decl.name = none → isDefault = true
  | .ambient inner => inner.kind.isDeclaration = true
  | .export (.declaration inner) | .export (.defaultDeclaration inner) =>
      ∀ exported, inner.kind ≠ .export exported
  | _ => True

/-- A statement has the form that it should have where it stands. -/
def Standing.Sound (standing : Standing) : Prop :=
  standing.statement.kind.MayStand standing.isDefault

/-- A statement of this form, behind `export default` or elsewhere, has the form that it should
have and so has everything inside it. -/
structure StatementKind.Sound (clean : Prop) (isDefault : Bool) (kind : StatementKind) : Prop where
  mayStand : kind.MayStand isDefault
  types : AllSound clean kind.occurrences
  statements : ∀ standing ∈ kind.standings, standing.Sound

/-- A statement, behind `export default` or elsewhere, has the form that it should have and so
has everything inside it. -/
structure Statement.Sound (clean : Prop) (isDefault : Bool) (statement : Statement) : Prop where
  types : AllSound clean statement.occurrences
  statements : ∀ standing ∈ statement.standings isDefault, standing.Sound

section

variable {clean : Prop} {isDefault : Bool}

theorem StatementKind.Sound.statement {kind : StatementKind} (h : kind.Sound clean isDefault)
    (span : Span) : (⟨kind, span⟩ : Statement).Sound clean isDefault where
  types := h.types
  statements := List.forall_mem_cons.mpr ⟨h.mayStand, h.statements⟩

/-- Of a statement without statements inside it, only its types are of concern. -/
theorem StatementKind.Sound.of_leaf {kind : StatementKind} (h : kind.MayStand isDefault)
    (htypes : AllSound clean kind.occurrences) (hleaf : kind.standings = []) :
    kind.Sound clean isDefault where
  mayStand := h
  types := htypes
  statements := by
    rw [hleaf]
    exact fun _ hmem => absurd hmem List.not_mem_nil

/-- The statements of a body are sound together. -/
theorem allSound_statements {statements : List Statement}
    (h : ∀ statement ∈ statements, statement.Sound clean false) :
    AllSound clean (statementOccurrences statements) := by
  induction statements with
  | nil => exact allSound_nil
  | cons statement statements ih =>
      rcases List.forall_mem_cons.mp h with ⟨hfirst, hrest⟩
      exact allSound_append.mpr ⟨hfirst.types, ih hrest⟩

theorem forall_mem_standingsOf {statements : List Statement}
    (h : ∀ statement ∈ statements, statement.Sound clean false) :
    ∀ standing ∈ standingsOf statements, standing.Sound := by
  induction statements with
  | nil => exact fun _ hmem => absurd hmem List.not_mem_nil
  | cons statement statements ih =>
      rcases List.forall_mem_cons.mp h with ⟨hfirst, hrest⟩
      exact List.forall_mem_append.mpr ⟨hfirst.statements, ih hrest⟩

/-- Of a statement with a body, only the statements in the body are of concern. -/
theorem StatementKind.Sound.of_body {kind : StatementKind} {body : List Statement}
    (h : kind.MayStand isDefault) (hbody : ∀ statement ∈ body, statement.Sound clean false)
    (htypes : kind.occurrences = statementOccurrences body)
    (hinside : kind.standings = standingsOf body) : kind.Sound clean isDefault where
  mayStand := h
  types := htypes ▸ allSound_statements hbody
  statements := hinside ▸ forall_mem_standingsOf hbody

end

/-! ## Goals -/

/-- What is expected of the result of a goal. -/
def Goal.Shape (clean : Prop) : (goal : Goal) → goal.Result → Prop
  | .type => Ty.Sound clean 4
  | .operand _ => Ty.Sound clean 1
  | .constraint _ => fun found => ∀ type ∈ found, type.Sound clean 3
  | .members => fun found => AllSound clean (memberOccurrences found)
  | .classMembers => fun found => AllSound clean (found.flatMap (·.kind.occurrences))
  | .block => fun found => ∀ statement ∈ found, statement.Sound clean false

/-- Whatever goal is reached here, its result has the shape that is expected. -/
class Place.Shaped (clean : Prop) (place : Place) : Prop where
  ensures (goal : Goal) {source : TokenStream} :
    (Parser.nested goal).Ensures clean place source (goal.Shape clean)

end DeclFile

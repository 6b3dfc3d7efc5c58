import DeclFile.Proofs.Nesting
import DeclFile.Proofs.Shape.Statement

/-! # The shape of parsed files

Whatever the text is, types bind as tightly as their places ask for and statements stand only
where they may. Later passes rely on both, though the types of the syntax allow more.
-/

namespace DeclFile

section

variable (text : String) (source : SourceId) (limits : Limits)

/-- Each statement of a parsed file has the shape that it should have. In a clean file those
that run code are behind `declare` or `export`. -/
theorem parse_statements_sound :
    ∀ statement ∈ (parse text source limits).module.statements,
      statement.Sound ((parse text source limits).diagnostics = []) false ∧
      ((parse text source limits).diagnostics = [] → statement.kind.isRuntime = false) := by
  generalize hclean : ((parse text source limits).diagnostics = []) = clean
  rw [parse_eq] at hclean ⊢
  cases hexcess : excessTokens? (textStream text source) limits with
  | some count =>
      rw [parseTokens_of_excess source hexcess]
      exact fun _ h => absurd h List.not_mem_nil
  | none =>
      rw [parseTokens_of_fitting source hexcess] at hclean ⊢
      have hends : (textStream text source).Ends := fun _ => textStream_ends text source
      obtain ⟨⟨peak, hevaluates⟩, -, -, -, found, hfound, -⟩ :=
        fileOutcome_spec ⟨False, source⟩ limits hends False.elim
      have hshaped : (Place.outset limits (textStream text source) source).Shaped clean :=
        Place.shaped clean _ rfl
      -- The reports of the statements are the last part of the diagnostics of the file.
      have hquiet : clean → (fileOutcome limits (textStream text source) source).reported = [] := by
        intro h
        rw [← hclean] at h
        exact (List.append_eq_nil_iff.mp (List.append_eq_nil_iff.mp h).2).2
      have hstatements := Parser.statements_ensures false .endOfText hends hevaluates hquiet found
        hfound
      rw [hfound]
      intro statement hstatement
      obtain ⟨hsound, hruntime⟩ := hstatements statement hstatement
      exact ⟨hsound, fun h => by simpa using hruntime h⟩

/-- All types in a parsed file have the forms that they should have. -/
theorem parse_types_sound :
    AllSound ((parse text source limits).diagnostics = [])
      (parse text source limits).module.occurrences :=
  allSound_statements fun statement h => (parse_statements_sound text source limits statement h).1

/-- A text that is read as a single type gives one that may stand anywhere. -/
theorem parseType_sound {type : Ty} (h : (parseType text).1 = some type) :
    type.Sound ((parseType text).2 = []) 4 := by
  have hends : (textStream text ⟨0⟩).Ends := fun _ => textStream_ends text ⟨0⟩
  have hmeets : Parser.wholeType.Meets ⟨False, ⟨0⟩⟩
      (.outset default (textStream text ⟨0⟩) ⟨0⟩) (textStream text ⟨0⟩) _ _ :=
    Parser.wholeType_meets (Nat.lt_succ_self _)
  obtain ⟨⟨peak, hevaluates⟩, -⟩ := hmeets rfl (Setting.admits_outset hends) False.elim
  have hshaped :
      (Place.outset default (textStream text ⟨0⟩) ⟨0⟩).Shaped ((parseType text).2 = []) :=
    Place.shaped _ _ rfl
  have hwhole : Parser.wholeType.Ensures ((parseType text).2 = [])
      (.outset default (textStream text ⟨0⟩) ⟨0⟩) (textStream text ⟨0⟩)
      (Ty.Sound ((parseType text).2 = []) 4) := Parser.wholeType_ensures
  refine hwhole hends hevaluates (fun hclean => ?_) type h
  exact (List.append_eq_nil_iff.mp hclean).2

/-! ## Types bind tightly enough -/

/-- However broken a text is, no type in what it is parsed to has a part that binds more loosely
than its place allows, and operands are only missing where something was reported. -/
theorem parse_types_normal :
    (∀ occurrence ∈ (parse text source limits).module.occurrences,
      occurrence.type.kind.Normal ((parse text source limits).diagnostics = [])) ∧
    ∀ type, (parseType text).1 = some type → ∀ occurrence ∈ type.occurrences .other,
      occurrence.type.kind.Normal ((parseType text).2 = []) := by
  constructor
  · intro occurrence hmem
    exact (parse_types_sound text source limits occurrence hmem).normal
  · intro type htype occurrence hmem
    exact ((parseType_sound text htype).all occurrence hmem).normal

end

/-- A type with a part at each level. -/
def levelled : String := "keyof A & B | C[] extends D ? E : F"

theorem parse_types_normal_levelled :
    (parseType levelled).2 = [] ∧ ∃ type, (parseType levelled).1 = some type ∧
      (type.occurrences .other).map (·.type.kind.looseness) = [4, 3, 2, 1, 0, 0, 0, 0, 0, 0, 0] ∧
      ∀ occurrence ∈ type.occurrences .other, occurrence.type.kind.Normal True := by
  have hclean : (parseType levelled).2 = [] := by decide +kernel
  have hlevels : (parseType levelled).1.map (fun type =>
      (type.occurrences .other).map (·.type.kind.looseness)) =
        some [4, 3, 2, 1, 0, 0, 0, 0, 0, 0, 0] := by decide +kernel
  obtain ⟨type, htype, hlevels⟩ := Option.map_eq_some_iff.mp hlevels
  have hnormal := (parse_types_normal levelled ⟨0⟩ default).2 type htype
  rw [hclean, eq_self] at hnormal
  exact ⟨hclean, type, htype, hlevels, hnormal⟩

/-! ## Statements and types stand where they may -/

theorem Statement.unwrapAmbient_of_ne {statement : Statement}
    (h : ∀ inner, statement.kind ≠ .ambient inner) : statement.unwrapAmbient = statement := by
  rcases statement with ⟨kind, span⟩
  cases kind with
  | ambient inner => exact absurd rfl (h inner)
  | _ => rfl

theorem StatementKind.ne_ambient_of_isDeclaration {kind : StatementKind}
    (h : kind.isDeclaration = true) (inner : Statement) : kind ≠ .ambient inner := by
  rintro rfl
  cases h

/-- What later passes may rely on in a module, where `clean` says that nothing was reported. -/
structure Module.KeepsShape (clean : Prop) (module : Module) : Prop where
  /-- Behind `declare` stands neither `declare` nor an import or export. -/
  ambient : ∀ standing ∈ module.standings, ∀ inner,
    standing.statement.kind = .ambient inner → inner.kind.isDeclaration = true
  /-- Behind `export` stands no export. -/
  exported : ∀ standing ∈ module.standings, ∀ inner,
    standing.statement.kind = .export (.declaration inner) ∨
      standing.statement.kind = .export (.defaultDeclaration inner) →
    ∀ other, inner.kind ≠ .export other
  /-- At most one `declare` is in front of a statement. -/
  unwrapAmbient : ∀ standing ∈ module.standings,
    standing.statement.unwrapAmbient = standing.statement ∨
      standing.statement.kind = .ambient standing.statement.unwrapAmbient
  isExport : ∀ standing ∈ module.standings,
    standing.statement.isExport = true ↔ ∃ found, standing.statement.kind = .export found
  /-- Only directly behind `export default` is a class without a name. -/
  named : ∀ standing ∈ module.standings, ∀ decl,
    standing.statement.kind = .class decl → decl.name = none → standing.isDefault = true
  declarators : ∀ standing ∈ module.standings, ∀ decl, standing.statement.kind = .var decl →
    decl.declarators ≠ [] ∧
      ∀ declarator ∈ decl.declarators, declarator.init ≠ none → decl.kind = .const
  /-- The type of names leaves no other choice. -/
  segments : ∀ name : EntityName, name.segments ≠ []
  unlabelled : ∀ occurrence ∈ module.occurrences, ∀ elements,
    occurrence.type.kind = .tuple elements →
    ∀ element ∈ elements, element.label = none → element.optional = false ∧ element.rest = false
  optional : ∀ occurrence ∈ module.occurrences, ∀ inner,
    occurrence.type.kind = .optional inner → occurrence.role = .element
  predicate : ∀ occurrence ∈ module.occurrences, ∀ asserts subject type,
    occurrence.type.kind = .predicate asserts subject type →
    occurrence.role = .result ∧ (type = none → asserts = true)
  /-- What runs code at the top is behind `declare` or `export`. -/
  runtime : clean → ∀ statement ∈ module.statements, statement.kind.isRuntime = false
  /-- An element with a label is marked in front of its type only. -/
  labelled : clean → ∀ occurrence ∈ module.occurrences, ∀ elements,
    occurrence.type.kind = .tuple elements →
    ∀ element ∈ elements, element.label ≠ none → ∀ inner, element.type.kind ≠ .optional inner

section

variable {standing : Standing}

theorem Standing.Sound.unwrapAmbient (h : standing.Sound) :
    standing.statement.unwrapAmbient = standing.statement ∨
      standing.statement.kind = .ambient standing.statement.unwrapAmbient := by
  rcases standing with ⟨isDefault, kind, span⟩
  cases kind with
  | ambient inner =>
      have hinner : inner.unwrapAmbient = inner :=
        Statement.unwrapAmbient_of_ne (StatementKind.ne_ambient_of_isDeclaration h)
      exact .inr (by rw [Statement.unwrapAmbient, hinner])
  | _ => exact .inl rfl

theorem Standing.Sound.isExport_iff (h : standing.Sound) :
    standing.statement.isExport = true ↔ ∃ found, standing.statement.kind = .export found := by
  rcases standing with ⟨isDefault, kind, span⟩
  cases kind with
  | ambient inner =>
      -- Behind `declare` there is no export to be found.
      rcases inner with ⟨kind, innerSpan⟩
      have hinner : kind.isDeclaration = true := h
      cases kind with
      | «export» | ambient => cases hinner
      | _ => simp [Statement.isExport]
  | _ => simp [Statement.isExport]

end

/-- Whatever the text is, a parsed file keeps its shape. -/
theorem parse_keepsShape (text : String) (source : SourceId) (limits : Limits) :
    (parse text source limits).module.KeepsShape
      ((parse text source limits).diagnostics = []) := by
  have hstatements := parse_statements_sound text source limits
  have htypes := parse_types_sound text source limits
  have hstandings : ∀ standing ∈ (parse text source limits).module.standings, standing.Sound :=
    forall_mem_standingsOf fun statement h => (hstatements statement h).1
  have hforms {kind : StatementKind} : ∀ standing ∈ (parse text source limits).module.standings,
      standing.statement.kind = kind → kind.MayStand standing.isDefault := by
    rintro standing hmem rfl
    exact hstandings standing hmem
  have hplaces {kind : TyKind} : ∀ occurrence ∈ (parse text source limits).module.occurrences,
      occurrence.type.kind = kind →
      kind.MayStandAs ((parse text source limits).diagnostics = []) occurrence.role := by
    rintro occurrence hmem rfl
    exact (htypes occurrence hmem).mayStand
  constructor
  case ambient =>
    intro standing hmem inner hkind
    exact hforms standing hmem hkind
  case exported =>
    rintro standing hmem inner (hkind | hkind)
    · exact hforms standing hmem hkind
    · exact hforms standing hmem hkind
  case unwrapAmbient => exact fun standing hmem => (hstandings standing hmem).unwrapAmbient
  case isExport => exact fun standing hmem => (hstandings standing hmem).isExport_iff
  case named =>
    intro standing hmem decl hkind
    exact hforms standing hmem hkind
  case declarators =>
    intro standing hmem decl hkind
    exact hforms standing hmem hkind
  case segments => exact fun name => List.cons_ne_nil _ _
  case unlabelled =>
    intro occurrence hmem elements hkind element helement
    exact (hplaces occurrence hmem hkind element helement).1
  case optional =>
    intro occurrence hmem inner hkind
    exact hplaces occurrence hmem hkind
  case predicate =>
    intro occurrence hmem asserts subject type hkind
    exact hplaces occurrence hmem hkind
  case runtime => exact fun hclean statement hmem => (hstatements statement hmem).2 hclean
  case labelled =>
    intro hclean occurrence hmem elements hkind element helement
    exact (hplaces occurrence hmem hkind element helement).2 hclean

/-- A class without a name, and a tuple with an element of each kind. -/
def anonymousAndMarked : String :=
  "export default class \x7b is(): asserts this \x7d declare const a: [b?: C, D?];"

theorem parse_keepsShape_anonymousAndMarked :
    (parse anonymousAndMarked ⟨0⟩ default).diagnostics = [] ∧
    (parse anonymousAndMarked ⟨0⟩ default).module.standings.map (·.isDefault) =
      [false, true, false, false] ∧
    (parse anonymousAndMarked ⟨0⟩ default).module.occurrences.map (·.role) =
      [.result, .other, .element, .element, .other] ∧
    (parse anonymousAndMarked ⟨0⟩ default).module.KeepsShape True := by
  have hclean : (parse anonymousAndMarked ⟨0⟩ default).diagnostics = [] := by decide +kernel
  have hkeeps := parse_keepsShape anonymousAndMarked ⟨0⟩ default
  rw [hclean, eq_self] at hkeeps
  exact ⟨hclean, by decide +kernel, by decide +kernel, hkeeps⟩

end DeclFile

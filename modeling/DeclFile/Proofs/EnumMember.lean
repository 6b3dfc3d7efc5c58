import DeclFile.Proofs.EnumInitializer
import DeclFile.Proofs.Nesting

/-! # Members of enumerations

Enumerations stand in blocks, behind `declare` and behind `export`. Wherever one stands in a parsed
file, the initializer of each of its members is the literal behind its name, or was reported.
-/

namespace DeclFile

/-! ## Statements -/

/-- All members of the enumerations among some statements are recorded. -/
def RecordsMembers (transcript : Transcript) (standings : List Standing) : Prop :=
  ∀ standing ∈ standings, ∀ decl, standing.statement.kind = .enum decl →
    ∀ member ∈ decl.members, member.IsRecorded transcript

theorem recordsMembers_nil (transcript : Transcript) : RecordsMembers transcript [] :=
  fun _ h => absurd h List.not_mem_nil

/-- A statement of this form, wherever it stands, records the members of its enumerations. -/
def StatementKind.Records (transcript : Transcript) (kind : StatementKind) : Prop :=
  ∀ isDefault span, RecordsMembers transcript (Statement.standings isDefault ⟨kind, span⟩)

/-- The statement records the members of the enumerations in it, wherever it stands. -/
def Statement.Records (transcript : Transcript) (statement : Statement) : Prop :=
  ∀ isDefault, RecordsMembers transcript (statement.standings isDefault)

namespace StatementKind.Records

variable {transcript : Transcript} {kind : StatementKind}

theorem of_standings (hkind : ∀ decl, kind ≠ .enum decl)
    (h : RecordsMembers transcript kind.standings) : kind.Records transcript := by
  intro isDefault span standing hstanding
  rw [Statement.standings] at hstanding
  rcases List.mem_cons.mp hstanding with rfl | hinside
  · exact fun decl heq => absurd heq (hkind decl)
  · exact h standing hinside

theorem of_leaf (hkind : ∀ decl, kind ≠ .enum decl) (h : kind.standings = []) :
    kind.Records transcript :=
  of_standings hkind (h ▸ recordsMembers_nil transcript)

theorem enum {decl : EnumDecl} (h : ∀ member ∈ decl.members, member.IsRecorded transcript) :
    (StatementKind.enum decl).Records transcript := by
  intro isDefault span standing hstanding other heq
  obtain rfl := List.mem_singleton.mp hstanding
  cases heq
  exact h

end StatementKind.Records

theorem recordsMembers_standingsOf {transcript : Transcript} {statements : List Statement}
    (h : ∀ statement ∈ statements, statement.Records transcript) :
    RecordsMembers transcript (standingsOf statements) := by
  induction statements with
  | nil => exact recordsMembers_nil transcript
  | cons statement statements ih =>
      intro standing hstanding
      rw [standingsOf] at hstanding
      rcases List.mem_append.mp hstanding with hfirst | hrest
      · exact h statement List.mem_cons_self false standing hfirst
      · exact ih (fun other hother => h other (List.mem_cons_of_mem _ hother)) standing hrest

/-- The place is in the file, and the statements of the blocks that are reached here record the
members of their enumerations. -/
class Place.Records (transcript : Transcript) (place : Place) : Prop where
  file : place.file = transcript.file
  block : ∀ source, (Parser.nested .block).Shows transcript place source
    fun found : List Statement => ∀ statement ∈ found, statement.Records transcript

namespace Parser

variable {transcript : Transcript} {place : Place} {source : TokenStream}

theorem importStatement_shows :
    importStatement.Shows transcript place source (Statement.Records transcript) := by
  refine .spanned <| Shows.any.mono fun decl _ span isDefault => ?_
  have hkind : (StatementKind.import decl).Records transcript := .of_leaf nofun rfl
  exact hkind isDefault span

section

variable [hplace : place.Records transcript]

theorem block_shows : block.Shows transcript place source fun found =>
    ∀ statement ∈ found, statement.Records transcript := by
  refine .skip fun opened rest => ?_
  cases opened with
  | some _ => exact hplace.block rest
  | none => exact .pure (by simp)

theorem namespaceDecl_shows :
    namespaceDecl.Shows transcript place source (StatementKind.Records transcript) :=
  .skip fun _ _ => block_shows.bind fun _ _ hbody =>
    .pure (.of_standings nofun (recordsMembers_standingsOf hbody))

theorem ambientModule_shows :
    ambientModule.Shows transcript place source (StatementKind.Records transcript) := by
  refine .skip fun name rest => .skip fun next rest => ?_
  split
  · exact block_shows.bind fun _ _ hbody =>
      .pure (.of_standings nofun (recordsMembers_standingsOf hbody))
  · exact .skip fun _ _ => .pure (.of_leaf nofun rfl)

omit hplace in
theorem functionStatement_shows (ambient async anonymous : Bool) :
    (functionStatement ambient async anonymous).Shows transcript place source
      (StatementKind.Records transcript) := by
  refine .skip fun _ _ => ?_
  dsimp only
  split
  · exact .skip fun _ _ => .skip fun _ _ => .pure (.of_leaf nofun rfl)
  · exact .skip fun _ _ => .pure (.of_leaf nofun rfl)

omit hplace in
theorem classStatement_shows (ambient isAbstract anonymous : Bool) :
    (classStatement ambient isAbstract anonymous).Shows transcript place source
      (StatementKind.Records transcript) := by
  refine .skip fun _ _ => ?_
  dsimp only
  split
  · exact .skip fun _ _ => .skip fun _ _ => .pure (.of_leaf nofun rfl)
  · exact .skip fun _ _ => .pure (.of_leaf nofun rfl)

omit hplace in
theorem variableStatement_shows (ambient : Bool) (kind : VarKind) :
    (variableStatement ambient kind).Shows transcript place source
      (StatementKind.Records transcript) :=
  .skip fun _ _ => .skip fun _ _ => .pure (.of_leaf nofun rfl)

theorem declarationKind_shows (ambient anonymous : Bool) :
    (declarationKind ambient anonymous).Shows transcript place source
      (StatementKind.Records transcript) := by
  have henum (isConst : Bool) (rest : TokenStream) : (StatementKind.enum <$> enumDecl isConst).Shows
      transcript place rest (StatementKind.Records transcript) :=
    .map ((enumDecl_shows hplace.file isConst).mono fun _ => .enum)
  refine .skip fun next rest => .skip fun after rest => ?_
  dsimp only
  split
  · exact variableStatement_shows ambient .var
  · exact variableStatement_shows ambient .let
  · split
    · exact .skip fun _ rest => henum true rest
    · exact variableStatement_shows ambient .const
  · exact functionStatement_shows ambient false anonymous
  · split
    · exact functionStatement_shows ambient true anonymous
    · exact .refuse
  · exact classStatement_shows ambient false anonymous
  · split
    · exact classStatement_shows ambient true anonymous
    · exact .refuse
  · exact .skip fun _ _ => .pure (.of_leaf nofun rfl)
  · split
    · exact .skip fun _ _ => .pure (.of_leaf nofun rfl)
    · exact .refuse
  · exact henum false _
  · exact .skip fun _ _ => namespaceDecl_shows
  · refine .skip fun _ _ => ?_
    split
    · exact ambientModule_shows
    · exact namespaceDecl_shows
  · split
    · exact .skip fun _ _ => block_shows.bind fun _ _ hbody =>
        .pure (.of_standings nofun (recordsMembers_standingsOf hbody))
    · exact .refuse
  · exact .refuse

theorem declaration_shows (ambient anonymous : Bool) :
    (declaration ambient anonymous).Shows transcript place source (Statement.Records transcript) :=
  .spanned <| (declarationKind_shows ambient anonymous).mono fun _ hkind span isDefault =>
    hkind isDefault span

theorem ambientDeclaration_shows :
    ambientDeclaration.Shows transcript place source (Statement.Records transcript) := by
  refine .spanned <| .skip fun _ _ => (declaration_shows true false).mono
    fun inner hinner span => ?_
  have hkind : (StatementKind.ambient inner).Records transcript :=
    .of_standings nofun (hinner false)
  exact fun isDefault => hkind isDefault span

/-! ## Exports and statements -/

theorem defaultExport_shows : defaultExport.Shows transcript place source fun found =>
    (StatementKind.export found).Records transcript := by
  refine .skip fun next rest => .skip fun after rest => ?_
  split
  · exact (declaration_shows true true).bind fun inner _ hinner =>
      .pure (.of_standings nofun (hinner true))
  split
  · exact .skip fun _ _ => .skip fun _ _ => .pure (.of_leaf nofun rfl)
  · exact .skip fun _ _ => .skip fun _ _ => .skip fun _ _ => .fail

omit hplace in
theorem exportAll_shows (typeOnly : Bool) : (exportAll typeOnly).Shows transcript place source
    fun found => (StatementKind.export found).Records transcript :=
  .skip fun _ _ => .skip fun _ _ => Shows.either fun _ _ => .skip fun _ _ => .skip fun _ _ =>
    .skip fun _ _ => .pure (.of_leaf nofun rfl)

omit hplace in
theorem namedExports_shows (typeOnly : Bool) : (namedExports typeOnly).Shows transcript place source
    fun found => (StatementKind.export found).Records transcript :=
  .skip fun _ _ => .skip fun _ _ => Shows.either fun _ _ => .skip fun _ _ =>
    .pure (.of_leaf nofun rfl)

theorem exported_shows : exported.Shows transcript place source fun found =>
    (StatementKind.export found).Records transcript := by
  have hinner {parser : Parser Statement} {rest : TokenStream}
      (h : parser.Shows transcript place rest (Statement.Records transcript)) :
      (Export.declaration <$> parser).Shows transcript place rest fun found =>
        (StatementKind.export found).Records transcript :=
    .map (h.mono fun _ hinner => .of_standings nofun (hinner false))
  refine .skip fun next rest => .skip fun after rest => ?_
  split
  · exact .skip fun _ _ => .skip fun _ _ => .skip fun _ _ => .pure (.of_leaf nofun rfl)
  · exact .skip fun _ _ => .skip fun _ _ => .skip fun _ _ => .skip fun _ _ =>
      .pure (.of_leaf nofun rfl)
  · exact .skip fun _ _ => defaultExport_shows
  · exact exportAll_shows false
  · exact namedExports_shows false
  · split
    · exact .skip fun _ _ => namedExports_shows true
    split
    · exact .skip fun _ _ => exportAll_shows true
    · exact hinner (declaration_shows true false)
  · exact hinner importStatement_shows
  · exact hinner ambientDeclaration_shows
  · exact hinner (declaration_shows true false)

theorem statement_shows (ambient : Bool) :
    (statement ambient).Shows transcript place source (Statement.Records transcript) := by
  refine .skip fun next rest => .skip fun after rest => ?_
  split
  · exact ambientDeclaration_shows
  · exact .spanned <| .skip fun _ _ => exported_shows.mono fun _ hkind span isDefault =>
      hkind isDefault span
  · split
    · exact declaration_shows ambient false
    · exact importStatement_shows
  · exact declaration_shows ambient false

theorem statements_shows (ambient : Bool) (close : Kind) :
    (statements ambient close).Shows transcript place source fun found =>
      ∀ statement ∈ found, statement.Records transcript := by
  refine .collect fun source => .skip fun next rest => ?_
  split
  · exact .pure (by simp)
  split
  · exact .skip fun _ _ => .pure (by simp)
  · refine .settle_bind (statement_shows ambient) (fun found _ hfound => .pure ?_)
      fun progress _ => .skip fun _ _ => .pure (by simp)
    rintro _ ⟨⟩
    exact hfound

end

end Parser

/-- Blocks record the members of their enumerations, by induction on the levels that are left. -/
theorem Place.records {limit : Nat} (transcript : Transcript) (place : Place)
    (hgrammar : place.grammar = DeclFile.grammar limit) (hfile : place.file = transcript.file) :
    place.Records transcript := by
  induction hlevels : place.limit - place.depth using Nat.strong_induction_on
    generalizing place with
  | _ levels ih =>
      refine ⟨hfile, fun source => .nested (fun hdepth => ?_) ?_⟩
      · have hdeeper : place.limit - (place.depth + 1) < levels := by omega
        have hinside : (place.inside source.pending.length).Records transcript :=
          ih _ hdeeper _ hgrammar hfile rfl
        rw [hgrammar]
        exact Parser.Shows.bind (Parser.statements_shows true _) fun _ _ hfound =>
          .skip fun _ _ => .pure hfound
      · rw [hgrammar]
        exact Parser.Shows.skip fun _ _ => .skip fun _ _ => .pure (by simp)

/-! ## Files -/

/-- Wherever an enumeration stands in a parsed file, what stands behind the name of a member is
recorded as its initializer if it is a literal in front of a comma or closing brace. Else the
member has no initializer, and one that is there is reported. -/
theorem parse_enumMember_recorded (text : String) (source : SourceId) (limits : Limits) :
    ∀ standing ∈ (parse text source limits).module.standings, ∀ decl,
      standing.statement.kind = .enum decl → ∀ member ∈ decl.members,
        member.IsRecorded
          ⟨source, (textStream text source).pending, (parse text source limits).diagnostics,
            textStream_pending_inOrder text source⟩ := by
  rw [parse_eq]
  cases hexcess : excessTokens? (textStream text source) limits with
  | some count =>
      rw [parseTokens_of_excess source hexcess]
      exact recordsMembers_nil _
  | none =>
      rw [parseTokens_of_fitting source hexcess]
      have hends : (textStream text source).Ends := fun _ => textStream_ends text source
      obtain ⟨⟨peak, hevaluates⟩, -, -, -, found, hfound, -⟩ :=
        fileOutcome_spec ⟨False, source⟩ limits hends False.elim
      -- The reports of the statements are the last part of the diagnostics of the file.
      generalize htranscript : Transcript.mk source (textStream text source).pending
        ((lex text source).errors.map LexicalError.toDiagnostic ++
          ((directiveOutcomes (textStream text source)).flatMap Prod.snd ++
            (fileOutcome limits (textStream text source) source).reported))
        (textStream_pending_inOrder text source) = transcript
      have hplace : (Place.outset limits (textStream text source) source).Records transcript :=
        Place.records transcript _ rfl (htranscript ▸ rfl)
      have hshows : (Parser.statements false .endOfText).Shows transcript
          (.outset limits (textStream text source) source) (textStream text source)
          fun found => ∀ statement ∈ found, statement.Records transcript :=
        Parser.statements_shows false .endOfText
      have hstatements := hshows hends (htranscript ▸ List.suffix_rfl) hevaluates
        fun diagnostic hreported =>
          htranscript ▸ List.mem_append_right _ (List.mem_append_right _ hreported)
      rw [hfound] at hstatements ⊢
      exact recordsMembers_standingsOf hstatements.1

/-- The enumeration that a statement is. -/
def StatementKind.enum? : StatementKind → Option EnumDecl
  | .enum decl => some decl
  | _ => none

/-- The enumerations of a module, wherever they stand. -/
def Module.enums (module : Module) : List EnumDecl :=
  module.standings.filterMap (·.statement.kind.enum?)

theorem Module.exists_standing_of_mem_enums {module : Module} {decl : EnumDecl}
    (h : decl ∈ module.enums) :
    ∃ standing ∈ module.standings, standing.statement.kind = .enum decl := by
  obtain ⟨standing, hstanding, hdecl⟩ := List.mem_filterMap.mp h
  refine ⟨standing, hstanding, ?_⟩
  unfold StatementKind.enum? at hdecl
  split at hdecl
  next heq =>
    cases hdecl
    exact heq
  next => cases hdecl

/-- Members with an initializer of each kind: a template, a negative number, a bigint, a sum, a
string that is followed by more, and none. -/
def mixedMembers : String :=
  "declare namespace N \x7b enum E \x7b " ++
    "A = \x60a\x60, B = -1, C = 2n, D = 1 + 2, F = \"f\".g, H \x7d \x7d"

theorem parse_enumMember_recorded_mixedMembers :
    ∃ standing ∈ (parse mixedMembers ⟨0⟩ default).module.standings, ∃ decl,
      standing.statement.kind = .enum decl ∧
      decl.members.map (·.init) = [some (.string "a"), some (.number "-1"), some (.bigint "2"),
        none, none, none] ∧
      ∀ member ∈ decl.members, member.IsRecorded
        ⟨⟨0⟩, (textStream mixedMembers ⟨0⟩).pending, (parse mixedMembers ⟨0⟩ default).diagnostics,
          textStream_pending_inOrder mixedMembers ⟨0⟩⟩ := by
  have henums : (parse mixedMembers ⟨0⟩ default).module.enums.map (·.members.map (·.init)) =
      [[some (.string "a"), some (.number "-1"), some (.bigint "2"), none, none, none]] := by
    decide +kernel
  obtain ⟨decl, hdecl, hinits⟩ := List.map_eq_singleton_iff.mp henums
  obtain ⟨standing, hstanding, hkind⟩ :=
    Module.exists_standing_of_mem_enums (hdecl ▸ List.mem_singleton_self decl)
  exact ⟨standing, hstanding, decl, hkind, hinits,
    parse_enumMember_recorded mixedMembers ⟨0⟩ default standing hstanding decl hkind⟩

/-- A member with a boolean for its initializer. -/
def booleanMember : String := "enum E \x7b A = true \x7d"

/-- Booleans are recorded like strings and numbers. -/
theorem boolean_recorded : ¬ ∀ (text : String) (source : SourceId) (limits : Limits),
    ∀ standing ∈ (parse text source limits).module.standings, ∀ decl,
      standing.statement.kind = .enum decl → ∀ member ∈ decl.members, ∀ literal ∈ member.init,
        (∃ value, literal = .string value) ∨ ∃ digits, literal = .number digits := by
  intro hall
  have henums : (parse booleanMember ⟨0⟩ default).module.enums.map (·.members.map (·.init)) =
      [[some (.boolean true)]] := by decide +kernel
  obtain ⟨decl, hdecl, hinits⟩ := List.map_eq_singleton_iff.mp henums
  obtain ⟨member, hmember, hinit⟩ := List.map_eq_singleton_iff.mp hinits
  obtain ⟨standing, hstanding, hkind⟩ :=
    Module.exists_standing_of_mem_enums (hdecl ▸ List.mem_singleton_self decl)
  rcases hall booleanMember ⟨0⟩ default standing hstanding decl hkind member
    (hmember ▸ List.mem_singleton_self member) (.boolean true) hinit with ⟨_, h⟩ | ⟨_, h⟩
  all_goals cases h

end DeclFile

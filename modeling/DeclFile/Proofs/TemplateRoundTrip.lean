import DeclFile.Proofs.Quiet.Template
import DeclFile.Proofs.TemplateLexing

/-! # Written template literals are read back

A template literal is written on one line, with the types in it nested as deep as the levels of
nesting allow. Its text comes to its tokens, and these are read as its parts: the text in front
of a substitution is in one piece, the text behind it in the next, and an empty one is dropped.
-/

namespace DeclFile

open DeclFile.Parser

section

variable [Layout] {file : SourceId} {limit : Nat}

/-- A tree that takes its suffixes one level further in is read. -/
theorem TemplateTree.isRead_of_takesSuffixes (tree : TemplateTree) {levels : Nat}
    (hlevels : tree.levels ≤ levels)
    (h : ∀ inner, tree.levels ≤ inner + 1 →
      tree.phrase.TakesSuffixes ((grammar limit).reach file inner)) :
    tree.phrase.IsRead ((grammar limit).reach file levels) := by
  obtain ⟨inner, rfl⟩ := Nat.exists_eq_succ_of_ne_zero
    (Nat.ne_of_gt (tree.levels_pos.trans_le hlevels))
  obtain ⟨first, rest, hsymbols, hfirst⟩ := tree.exists_first
  intro after hafter
  exact Gives.nested
    (conditionalType_of_takesSuffixes (h inner hlevels) hsymbols hfirst hafter)

mutual

/-- With a level for each type and object type around it, a type is read with its suffixes. -/
theorem TemplateTree.takesSuffixes [Layout.OneLine] (tree : TemplateTree) (levels : Nat)
    (hlevels : tree.levels ≤ levels + 1) :
    tree.phrase.TakesSuffixes ((grammar limit).reach file levels) := by
  match tree with
  | .name word ordinary =>
      let name : DottedName := ⟨word.text, [], fun _ => ordinary⟩
      refine takesSuffixes_primary fun after hafter => Gives.peek.bind fun token htoken => ?_
      simp only [htoken.kind, Identifier.symbol, primitive?]
      exact Gives.namedType (Gives.typeRef_name name hafter)
  | .array element => exact takesSuffixes_array (element.takesSuffixes levels hlevels)
  | .object fields =>
      rw [TemplateTree.levels] at hlevels
      refine takesSuffixes_primary fun after hafter => ?_
      obtain ⟨inner, rfl⟩ : ∃ inner, levels = inner + 1 :=
        Nat.exists_eq_succ_of_ne_zero (by omega)
      have hfields := fields.collects inner (by omega) after []
      have hmembers : (Parser.nested .members).Gives ((grammar limit).reach file (inner + 1))
          (fields.symbols ++ .mark .closeBrace :: after)
          (.mark .closeBrace :: after : List Symbol)
          fun found : List Member => found.map Member.blank = fields.members :=
        Gives.nested (Collects.gives hfields)
      have hwrite : (TemplateTree.object fields).phrase.symbols ++ after =
          .mark .openBrace :: (fields.symbols ++ .mark .closeBrace :: after) := by
        simp [TemplateTree.phrase, TemplateTree.symbols]
      rw [hwrite]
      refine Gives.peek.bind fun token htoken => ?_
      simp only [htoken.kind, Symbol.kind_mark, primitive?]
      exact (Gives.braceType fields hmembers).mono fun kind hkind => by rw [hkind]; rfl
  | .template parts =>
      refine takesSuffixes_primary fun after hafter => ?_
      have hparts := parts.templateType levels (Nat.le_of_succ_le_succ hlevels) "" (fun _ => rfl)
        after
      obtain ⟨first, rest, hsymbols, hkind⟩ := parts.exists_piece .templateWhole .templateHead ""
      have hwrite : (TemplateTree.template parts).phrase.symbols ++ after =
          first :: (rest ++ after) := by
        rw [TemplateTree.phrase, TemplateTree.symbols, hsymbols, List.cons_append]
      rw [hsymbols, List.cons_append] at hparts
      rw [hwrite]
      refine Gives.peek.bind fun token htoken => ?_
      rcases hkind with hkind | hkind
      all_goals
        simp only [htoken.kind, hkind, primitive?]
        exact hparts.mono fun kind hkind => by rw [hkind]; rfl

/-- The properties of an object type are collected up to the brace behind them. -/
theorem FieldTrees.collects [Layout.OneLine] (fields : FieldTrees) (levels : Nat)
    (hlevels : fields.levels ≤ levels) (after : List Symbol) (collected : List Member) :
    Collects ((grammar limit).reach file levels)
      (memberTurn (fun kind => kind == .mark .semicolon || kind == .mark .comma) Parser.member)
      collected (fields.symbols ++ .mark .closeBrace :: after)
      (.mark .closeBrace :: after : List Symbol)
      fun found => found.map Member.blank =
        collected.reverse.map Member.blank ++ fields.members := by
  match fields with
  | .nil =>
      refine .last (Gives.peekKind.known ?_)
      rw [if_pos (by simp [FieldTrees.symbols])]
      exact .pure ⟨rfl, by simp [FieldTrees.members]⟩
  | .cons key declared more =>
      simp only [FieldTrees.levels] at hlevels
      obtain ⟨hfirst, hmore⟩ := Nat.max_le.mp hlevels
      have hdeclared := declared.isRead_of_takesSuffixes hfirst declared.takesSuffixes
      simp only [FieldTrees.symbols, List.cons_append, List.append_assoc]
      refine .again (P := fun found? => ∃ found, found? = some found ∧ found.blank = _)
        (Gives.memberTurn_property key hdeclared) ?_ ?_
      · simp only [List.length_append, List.length_cons]
        omega
      · rintro _ ⟨found, rfl, hfound⟩
        refine (more.collects levels hmore after _).mono ?_
        intro results hresults
        simp [hresults, hfound, FieldTrees.members, TemplateTree.phrase]

/-- The parts of a template behind a type that has not been read: the text in front of them is
the first one, unless it is empty. -/
theorem PartTrees.collects [Layout.OneLine] {behindText : Bool} (parts : PartTrees behindText)
    (levels : Nat) (hlevels : parts.levels ≤ levels) (before : String)
    (hbefore : behindText = false → before = "") {phrase : Phrase}
    (hphrase : phrase.IsRead ((grammar limit).reach file levels)) (after : List Symbol)
    (collected : List (List TemplatePart)) :
    Collects ((grammar limit).reach file levels) templateTurn collected
      (phrase.symbols ++ (parts.symbols .templateTail .templateMiddle before ++ after)) after
      fun found => blankTemplate found.flatten = blankTemplate collected.reverse.flatten ++
        .type phrase.type :: (textPart before ++ parts.parts) := by
  match parts with
  | .nil =>
      refine .last ((Gives.templateTurn hphrase false before).mono fun taken htaken => ?_)
      obtain ⟨hagain, hresult⟩ := htaken
      obtain ⟨found, hfound, hblank⟩ := Option.map_eq_some_iff.mp hresult
      refine ⟨hagain, ?_⟩
      simp [hfound, hblank, blankTemplate_append, PartTrees.parts]
  | .text inside nonempty more =>
      have hempty := hbefore rfl
      subst hempty
      refine (more.collects levels hlevels inside nofun hphrase after collected).mono ?_
      intro found hfound
      rw [hfound, textPart_of_ne nonempty]
      rfl
  | .type type more =>
      simp only [PartTrees.levels] at hlevels
      obtain ⟨hfirst, hmore⟩ := Nat.max_le.mp hlevels
      have htype := type.isRead_of_takesSuffixes hfirst type.takesSuffixes
      simp only [PartTrees.symbols, List.cons_append, List.append_assoc]
      refine .again (P := fun found? => found?.map blankTemplate = _)
        (Gives.templateTurn hphrase true before) ?_ fun found? hfound => ?_
      · simp only [List.length_append, List.length_cons]
        omega
      · obtain ⟨found, rfl, hblank⟩ := Option.map_eq_some_iff.mp hfound
        refine (more.collects levels hmore "" (fun _ => rfl) htype after _).mono ?_
        intro results hresults
        simp [hresults, blankTemplate_append, hblank, PartTrees.parts, TemplateTree.phrase,
          textPart]

theorem PartTrees.templateType [Layout.OneLine] {behindText : Bool}
    (parts : PartTrees behindText) (levels : Nat) (hlevels : parts.levels ≤ levels)
    (before : String) (hbefore : behindText = false → before = "") (after : List Symbol) :
    Parser.templateType.Gives ((grammar limit).reach file levels)
      (parts.symbols .templateWhole .templateHead before ++ after) after
      fun kind => kind.blank = .template (textPart before ++ parts.parts) := by
  match parts with
  | .nil =>
      rw [PartTrees.parts, List.append_nil]
      exact Gives.templateType_whole before
  | .text inside nonempty more =>
      have hempty := hbefore rfl
      subst hempty
      refine (more.templateType levels hlevels inside nofun after).mono ?_
      intro found hfound
      rw [hfound, textPart_of_ne nonempty]
      rfl
  | .type type more =>
      simp only [PartTrees.levels] at hlevels
      obtain ⟨hfirst, hmore⟩ := Nat.max_le.mp hlevels
      have htype := type.isRead_of_takesSuffixes hfirst type.takesSuffixes
      have hparts := more.collects levels hmore "" (fun _ => rfl) htype after []
      simp only [PartTrees.symbols, List.cons_append, List.append_assoc]
      exact Gives.templateType_head before hparts

end

end

/-- A written type is read back up to spans, with nothing reported, if it is nested no deeper than
the limit. -/
theorem parseType_source (tree : TemplateTree)
    (hlevels : tree.levels ≤ (default : Limits).maxDepth) :
    ∃ type, parseType tree.source = (some type, []) ∧ type.blank = tree.type := by
  obtain ⟨herrors, hspells⟩ := tree.lex_source ⟨0⟩
  let _ := Layout.line (textStream tree.source ⟨0⟩).finished
  have hread : tree.phrase.IsRead ((grammar (default : Limits).maxDepth).reach ⟨0⟩ _) :=
    tree.isRead_of_takesSuffixes hlevels tree.takesSuffixes
  have htype := hread [] rfl
  rw [List.append_nil] at htype
  obtain ⟨type, lastRead, rest, hrun, hblank, -⟩ := htype.wholeType hspells
  rw [textStream] at hrun
  refine ⟨type, ?_, hblank⟩
  rw [parseType, hrun, herrors]
  rfl

/-- A template literal is read back with exactly its parts. -/
theorem parseType_template (parts : PartTrees false)
    (hlevels : (TemplateTree.template parts).levels ≤ (default : Limits).maxDepth) :
    ∃ type, parseType (TemplateTree.template parts).source = (some type, []) ∧
      type.blank = ⟨.template parts.parts, default⟩ :=
  parseType_source (.template parts) hlevels

/-- A word of one letter. -/
def Identifier.letter (c : Char) (starts : isIdentifierStart c = true)
    (distinct : Keyword.ofSpelling? (String.ofList [c]) = none) : Identifier :=
  ⟨c, [], starts, by simp, distinct⟩

/-- The parts of a template literal over two lines, with an object type and another template
literal in it. -/
def nestedParts : PartTrees false :=
  let a := Identifier.letter 'a' (by decide) (by decide)
  let b := Identifier.letter 'b' (by decide) (by decide)
  let name (word : Identifier) (ordinary : word.text ≠ "intrinsic") : TemplateTree :=
    .name word ordinary
  let inner : TemplateTree := .template (.type (name b (by decide)) (.text "-" (by decide) .nil))
  let object : TemplateTree := .object (.cons a (.array inner) (.cons b (.object .nil) .nil))
  .text "$\x7b\n\\" (by decide) (.type object (.type (name a (by decide)) .nil))

theorem parseType_template_nested :
    (TemplateTree.template nestedParts).levels ≤ (default : Limits).maxDepth ∧
    (TemplateTree.template nestedParts).source =
      "\x60\\$\x7b\n\\\\" ++ "$\x7b \x7b a: \x60$\x7b b \x7d-\x60[]; b: \x7b \x7d; \x7d \x7d" ++
        "$\x7b a \x7d\x60" ∧
    ∃ type, parseType (TemplateTree.template nestedParts).source = (some type, []) ∧
      type.blank = ⟨.template nestedParts.parts, default⟩ :=
  ⟨by decide, by decide, parseType_template nestedParts (by decide)⟩

end DeclFile

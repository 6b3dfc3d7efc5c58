import DeclFile.Proofs.Quiet.MemberList
import DeclFile.Proofs.TemplateTree
import DeclFile.Proofs.TypeRoundTrip

/-! # Reading template literals without a word

The types in a template literal are read one after another, each with the piece behind it. A piece
with an empty text is no part of its own. The members of an object type are read one level deeper
than the type, and the types in them one level deeper still.
-/

namespace DeclFile

def TemplateTree.phrase (tree : TemplateTree) : Phrase := ⟨tree.symbols, tree.type⟩

/-! ## What types begin with -/

/-- The kinds of tokens that begin a tree. -/
def Kind.beginsTemplateTree : Kind → Bool
  | .identifier | .mark .openBrace | .templateWhole | .templateHead => true
  | _ => false

theorem Kind.ne_of_beginsTemplateTree {kind other : Kind} (h : kind.beginsTemplateTree = true)
    (hother : other.beginsTemplateTree = false) : kind ≠ other := by
  rintro rfl
  rw [h] at hother
  contradiction

/-- The first piece of a template. -/
theorem PartTrees.exists_piece {behindText : Bool} (parts : PartTrees behindText)
    (last part : Kind) (before : String) :
    ∃ first rest, parts.symbols last part before = first :: rest ∧
      (first.kind = last ∨ first.kind = part) := by
  match parts with
  | .nil => exact ⟨_, _, rfl, .inl rfl⟩
  | .text inside _ more => exact more.exists_piece last part (before ++ inside)
  | .type _ _ => exact ⟨_, _, rfl, .inr rfl⟩

theorem TemplateTree.exists_first (tree : TemplateTree) :
    ∃ first rest, tree.symbols = first :: rest ∧ first.kind.beginsTemplateTree = true := by
  match tree with
  | .name word _ => exact ⟨_, _, rfl, rfl⟩
  | .array element =>
      obtain ⟨first, rest, hsymbols, hfirst⟩ := element.exists_first
      exact ⟨first, _, by rw [TemplateTree.symbols, hsymbols, List.cons_append], hfirst⟩
  | .object fields => exact ⟨_, _, rfl, rfl⟩
  | .template parts =>
      obtain ⟨first, rest, hsymbols, hkind⟩ := parts.exists_piece .templateWhole .templateHead ""
      refine ⟨first, rest, hsymbols, ?_⟩
      rcases hkind with hkind | hkind <;> rw [hkind] <;> rfl

theorem TemplateTree.levels_pos (tree : TemplateTree) : 0 < tree.levels := by
  match tree with
  | .name _ _ => exact Nat.one_pos
  | .array element => exact element.levels_pos
  | .object _ | .template _ => exact Nat.succ_pos _

/-! ## Parts up to spans -/

theorem Parser.blankTemplate_textPart (text : String) :
    blankTemplate (textPart text) = textPart text := by
  unfold textPart
  split <;> rfl

theorem Parser.textPart_of_ne {text : String} (h : text ≠ "") : textPart text = [.text text] := by
  rw [textPart, if_neg (by simpa using h)]

/-! ## Whole types -/

section

variable [Layout]

/-- The phrase is read where a type is, up to what ends a type. -/
def Phrase.IsRead (reach : Reach TokenStream) (phrase : Phrase) : Prop :=
  ∀ after, Stratum.full.EndsAt after →
    Parser.type.Gives reach (phrase.symbols ++ after) after fun type => type.blank = phrase.type

end

namespace Parser

variable [Layout] {reach : Reach TokenStream} {before after : List Symbol} {phrase : Phrase}

/-- A type with suffixes that is no operand of anything is a whole type. -/
theorem conditionalType_of_takesSuffixes {first : Symbol} {rest : List Symbol}
    (h : phrase.TakesSuffixes reach) (hsymbols : phrase.symbols = first :: rest)
    (hfirst : first.kind.beginsTemplateTree = true) (hafter : Stratum.full.EndsAt after) :
    conditionalType.Gives reach (phrase.symbols ++ after) after
      fun type => type.blank = phrase.type := by
  have hkind : kindAt (phrase.symbols ++ after) 0 = first.kind := by
    rw [hsymbols]
    rfl
  have hne {kind : Kind} (hkind' : kind.beginsTemplateTree = false) :
      kindAt (phrase.symbols ++ after) 0 ≠ kind :=
    hkind ▸ Kind.ne_of_beginsTemplateTree hfirst hkind'
  have hsuffixed : suffixedType.Gives reach (phrase.symbols ++ after) after
      fun type => type.blank = phrase.type :=
    h _ _ _ (hafter.tighter (by decide)) fun _ htype => .suffixTurn_done htype (hafter.line rfl)
  have hoperator : (kindAt (phrase.symbols ++ after) 0).beginsOperator = false := by
    rw [hkind]
    revert hfirst
    unfold Kind.beginsTemplateTree
    split <;> simp_all [Kind.beginsOperator]
  refine Gives.conditionalType_single ?_ (hafter.line rfl)
  refine Gives.operands_single (Gives.operands_single
    (Gives.operatorType_of_suffixed hsuffixed hoperator) ?_ ?_) ?_ ?_
  · exact hne rfl
  · exact hafter.ne rfl
  · exact hne rfl
  · exact hafter.ne rfl

/-! ## Object types -/

/-- What begins with a property or is empty is no mapped type. -/
theorem mappedType_complains (fields : FieldTrees) :
    mappedType.Complains reach
      (.mark .openBrace :: (fields.symbols ++ .mark .closeBrace :: after)) := by
  have hne (kind : Kind) (hword : kind ≠ .identifier) (hclose : kind ≠ .mark .closeBrace) :
      kindAt (fields.symbols ++ .mark .closeBrace :: after) 0 ≠ kind := by
    cases fields with
    | nil => exact hclose.symm
    | cons key declared more => exact hword.symm
  refine (Gives.expect rfl).bind_complains fun _ _ => ?_
  have hnone : (mappedModifier (Symbol.word .readonly).kind).Gives reach
      (ModifierSign.absent.write (.word .readonly) ++
        (fields.symbols ++ .mark .closeBrace :: after)) _ (· = .none) :=
    Gives.mappedModifier .absent (hne _ nofun nofun) (hne _ nofun nofun) (hne _ nofun nofun)
      (.inl rfl)
  have hbracket : (Parser.expect (.mark .openBracket)).Complains reach
      (fields.symbols ++ .mark .closeBrace :: after) := .expect (hne _ nofun nofun)
  exact hnone.bind_complains fun _ _ => hbracket.bind

namespace Gives

/-- Braces with properties in them are read if the properties are. -/
theorem braceType (fields : FieldTrees)
    (hmembers : (Parser.nested .members).Gives reach
      (fields.symbols ++ .mark .closeBrace :: after) (.mark .closeBrace :: after : List Symbol)
      fun found : List Member => found.map Member.blank = fields.members) :
    Parser.braceType.Gives reach
      (.mark .openBrace :: (fields.symbols ++ .mark .closeBrace :: after)) after
      fun kind => kind.blank = .object fields.members := by
  refine (attempt_complains (mappedType_complains fields)).known (advance.bind fun _ _ => ?_)
  refine hmembers.bind fun found hfound => ?_
  have hclose : (Parser.expectOrReport (.mark .closeBrace)).Gives reach (.mark .closeBrace :: after)
      after fun _ => True := expectOrReport rfl
  exact hclose.bind fun _ _ => .pure (by rw [TyKind.blank, blankMembers_eq_map, hfound])

/-- A property is read with the semicolon behind it. -/
theorem memberTurn_property [Layout.OneLine] (key : Identifier) {declared : Phrase}
    (hdeclared : declared.IsRead reach) :
    (memberTurn (fun kind => kind == .mark .semicolon || kind == .mark .comma) Parser.member).Gives
      reach (key.symbol :: .mark .colon :: (declared.symbols ++ .mark .semicolon :: after)) after
      fun taken => taken.again = true ∧ ∃ found, taken.result? = some found ∧
        found.blank = ⟨.property (.ident ⟨key.text, default⟩) false false (some declared.type),
          default⟩ := by
  have hnamed := namedMember_property false (.word (NameWord.ofText key.text)) false declared
    (hdeclared (.mark .semicolon :: after) (.of_kindAt rfl rfl))
  have hmember := member_named false (.word (NameWord.ofText key.text)) rfl nofun hnamed
  refine memberTurn_some peekKind ⟨nofun, nofun, rfl⟩ (hmember.weaken fun _ => Heads.starts) ?_
  refine peek.bind fun token htoken => ?_
  rw [if_pos (by simp [htoken.kind])]
  exact advance.bind fun _ _ => .pure rfl

end Gives

/-! ## Template literals -/

/-- What is read of a template at one turn: a type and the piece behind it. -/
def templateTurn : Parser (Turn (List TemplatePart)) := do
  let type ← type
  let next ← peek
  match next.kind with
  | .templateMiddle =>
      let _ ← advance
      return ⟨some (.type type :: textPart next.text), true⟩
  | .templateTail =>
      let _ ← advance
      return ⟨some (.type type :: textPart next.text), false⟩
  | kind =>
      reportHere (.unclosedSubstitution kind)
      return ⟨some [.type type], false⟩

/-- The piece behind a type tells whether the template goes on. -/
theorem Gives.templateTurn (hphrase : phrase.IsRead reach) (goesOn : Bool) (text : String) :
    Parser.templateTurn.Gives reach (phrase.symbols ++
        ⟨if goesOn then .templateMiddle else .templateTail, text⟩ :: after) after
      fun taken => taken.again = goesOn ∧
        taken.result?.map blankTemplate = some (.type phrase.type :: textPart text) := by
  have hends : Stratum.full.EndsAt
      (⟨if goesOn then .templateMiddle else .templateTail, text⟩ :: after) := by
    cases goesOn <;> exact .of_kindAt rfl rfl
  refine (hphrase _ hends).bind fun type htype => peek.bind fun token htoken => ?_
  rw [htoken.kind, htoken.text]
  cases goesOn
  all_goals
    exact advance.bind fun _ _ => .pure ⟨rfl, by simp [htype, blankTemplate_textPart]⟩

/-- A template without substitutions is its only piece. -/
theorem Gives.templateType_whole (text : String) :
    templateType.Gives reach (⟨.templateWhole, text⟩ :: after) after
      fun kind => kind.blank = .template (textPart text) := by
  refine advance.bind fun token htoken => ?_
  rw [if_neg (by simp [htoken.kind])]
  exact pure_bind [] (.pure (by simp [htoken.text, blankTemplate_textPart]))

/-- A template is its first piece and what is collected behind it. -/
theorem Gives.templateType_head (text : String) {parts : List TemplatePart}
    (h : Collects reach Parser.templateTurn [] before after
      fun found => blankTemplate found.flatten = parts) :
    templateType.Gives reach (⟨.templateHead, text⟩ :: before) after
      fun kind => kind.blank = .template (textPart text ++ parts) := by
  refine advance.bind fun token htoken => ?_
  rw [if_pos (by simp [htoken.kind])]
  refine bind (P := fun rest => blankTemplate rest = parts) (map h.gives) fun rest hrest => .pure ?_
  simp [htoken.text, blankTemplate_append, blankTemplate_textPart, hrest]

end Parser
end DeclFile

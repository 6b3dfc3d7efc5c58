import DeclFile.Proofs.Quiet.Function

/-! # Types with a hole

A place inside a type where another type can stand is a type tree with a hole. What fills it
need not be a type tree: of the whole only the brackets and the first symbols have to be
known, and they mostly come from the tree around the hole.
-/

namespace DeclFile

/-- Stretches of symbols with a mark between them. -/
def separate (mark : Mark) : List (List Symbol) → List Symbol
  | [] => []
  | first :: more => first ++ markEach mark more

/-! ## Forms of phrases -/

namespace Phrase

def parenthesized (inner : Phrase) : Phrase :=
  ⟨.mark .openParen :: (inner.symbols ++ [.mark .closeParen]), ⟨.parenthesized inner.type, default⟩⟩

def tuple (elements : List Phrase) : Phrase :=
  ⟨.mark .openBracket :: (commas (elements.map symbols) ++ [.mark .closeBracket]),
    ⟨.tuple ((elements.map type).map TupleElement.unlabelled), default⟩⟩

/-- A name with arguments. -/
def applied (name : DottedName) (args : List Phrase) : Phrase :=
  ⟨name.write ++ .mark .openAngle :: (commas (args.map symbols) ++ [.mark .closeAngle]),
    ⟨.reference ⟨name.entity, some (args.map type), default⟩, default⟩⟩

def keyOf (operand : Phrase) : Phrase :=
  ⟨.word .keyof :: operand.symbols, ⟨.keyOf operand.type, default⟩⟩

def readonly (operand : Phrase) : Phrase :=
  ⟨.word .readonly :: operand.symbols, ⟨.readonly operand.type, default⟩⟩

/-- Operands with a mark between them. -/
def operands (mark : Mark) (wrap : List Ty → TyKind) (phrases : List Phrase) : Phrase :=
  ⟨separate mark (phrases.map symbols), ⟨wrap (phrases.map type), default⟩⟩

def conditional (check bound whenTrue whenFalse : Phrase) : Phrase :=
  ⟨check.symbols ++ .word .extends :: (bound.symbols ++ .mark .question ::
      (whenTrue.symbols ++ .mark .colon :: whenFalse.symbols)),
    ⟨.conditional check.type bound.type whenTrue.type whenFalse.type, default⟩⟩

def function (params : List ParamPhrase) (result : Phrase) : Phrase :=
  ⟨.mark .openParen :: (commas (params.map ParamPhrase.symbols) ++
      .mark .closeParen :: .mark .arrow :: result.symbols),
    ⟨.function ⟨[], params.map ParamPhrase.param, result.type⟩, default⟩⟩

/-- A phrase with trees before and after it. -/
def among {stratum : Stratum} (phrase : Phrase) (before after : List (TypeTree stratum)) :
    List Phrase :=
  before.map TypeTree.phrase ++ phrase :: after.map TypeTree.phrase

theorem mem_among_self {stratum : Stratum} {phrase : Phrase} {before after : List (TypeTree stratum)} :
    phrase ∈ phrase.among before after :=
  List.mem_append_right _ List.mem_cons_self

theorem mem_among_tree {stratum : Stratum} {phrase : Phrase} {before after : List (TypeTree stratum)}
    {tree : TypeTree stratum} (h : tree ∈ before ∨ tree ∈ after) :
    tree.phrase ∈ phrase.among before after := by
  rcases h with hbefore | hafter
  · exact List.mem_append_left _ (List.mem_map_of_mem hbefore)
  · exact List.mem_append_right _ (List.mem_cons_of_mem _ (List.mem_map_of_mem hafter))

theorem forall_mem_among {stratum : Stratum} {phrase : Phrase}
    {before after : List (TypeTree stratum)} {P : Phrase → Prop} (hphrase : P phrase)
    (htrees : ∀ tree : TypeTree stratum, tree ∈ before ∨ tree ∈ after → P tree.phrase) :
    ∀ found ∈ phrase.among before after, P found := by
  intro found hfound
  rcases List.mem_append.mp hfound with hbefore | hafter
  · obtain ⟨tree, htree, rfl⟩ := List.mem_map.mp hbefore
    exact htrees tree (.inl htree)
  · rcases List.mem_cons.mp hafter with rfl | hafter
    · exact hphrase
    · obtain ⟨tree, htree, rfl⟩ := List.mem_map.mp hafter
      exact htrees tree (.inr htree)

end Phrase

/-! ## Contexts -/

/-- A type with a hole where any type can stand. -/
inductive TypeContext : Stratum → Type
  | hole : TypeContext .full
  | parenthesized (inner : TypeContext .full) : TypeContext .primary
  | tuple (before : List (TypeTree .full)) (element : TypeContext .full)
      (after : List (TypeTree .full)) : TypeContext .primary
  | applied (name : DottedName) (before : List (TypeTree .full)) (arg : TypeContext .full)
      (after : List (TypeTree .full)) : TypeContext .primary
  | ofPrimary (inner : TypeContext .primary) : TypeContext .suffixed
  | array (element : TypeContext .suffixed) : TypeContext .suffixed
  | inObject (target : TypeContext .suffixed) (index : TypeTree .full) : TypeContext .suffixed
  | inIndex (target : TypeTree .suffixed) (index : TypeContext .full) : TypeContext .suffixed
  | ofSuffixed (inner : TypeContext .suffixed) : TypeContext .operator
  | keyOf (operand : TypeContext .operator) : TypeContext .operator
  | readonly (operand : TypeContext .operator) : TypeContext .operator
  | ofOperator (inner : TypeContext .operator) : TypeContext .intersection
  | intersection (before : List (TypeTree .operator)) (operand : TypeContext .operator)
      (after : List (TypeTree .operator)) (several : before ≠ [] ∨ after ≠ []) :
      TypeContext .intersection
  | ofIntersection (inner : TypeContext .intersection) : TypeContext .union
  | union (before : List (TypeTree .intersection)) (operand : TypeContext .intersection)
      (after : List (TypeTree .intersection)) (several : before ≠ [] ∨ after ≠ []) :
      TypeContext .union
  | ofUnion (inner : TypeContext .union) : TypeContext .full
  | inCheck (checked : TypeContext .union) (bound : TypeTree .union)
      (whenTrue whenFalse : TypeTree .full) : TypeContext .full
  | inExtends (checked : TypeTree .union) (bound : TypeContext .union)
      (whenTrue whenFalse : TypeTree .full) : TypeContext .full
  | inTrue (checked bound : TypeTree .union) (whenTrue : TypeContext .full)
      (whenFalse : TypeTree .full) : TypeContext .full
  | inFalse (checked bound : TypeTree .union) (whenTrue : TypeTree .full)
      (whenFalse : TypeContext .full) : TypeContext .full
  /-- A function with the hole in the type of a parameter. -/
  | inParam (before : List ParamTree) (rest : Bool) (name : BindingWord) (optional : Bool)
      (declared : TypeContext .full) (after : List ParamTree) (result : TypeTree .full) :
      TypeContext .full
  | inResult (params : List ParamTree) (result : TypeContext .full) : TypeContext .full

namespace TypeContext

variable {stratum : Stratum} {phrase : Phrase}

/-- The context with the phrase in its hole. -/
@[simp] def fill {stratum : Stratum} (context : TypeContext stratum) (phrase : Phrase) : Phrase :=
  match context with
  | .hole => phrase
  | .parenthesized inner => (inner.fill phrase).parenthesized
  | .tuple before element after => .tuple ((element.fill phrase).among before after)
  | .applied name before arg after => .applied name ((arg.fill phrase).among before after)
  | .ofPrimary inner | .ofSuffixed inner | .ofOperator inner | .ofIntersection inner
  | .ofUnion inner => inner.fill phrase
  | .array element => (element.fill phrase).array
  | .inObject target index => (target.fill phrase).indexed index.phrase
  | .inIndex target index => target.phrase.indexed (index.fill phrase)
  | .keyOf operand => (operand.fill phrase).keyOf
  | .readonly operand => (operand.fill phrase).readonly
  | .intersection before operand after _ =>
      .operands .ampersand .intersection ((operand.fill phrase).among before after)
  | .union before operand after _ =>
      .operands .pipe .union ((operand.fill phrase).among before after)
  | .inCheck checked bound whenTrue whenFalse =>
      (checked.fill phrase).conditional bound.phrase whenTrue.phrase whenFalse.phrase
  | .inExtends checked bound whenTrue whenFalse =>
      checked.phrase.conditional (bound.fill phrase) whenTrue.phrase whenFalse.phrase
  | .inTrue checked bound whenTrue whenFalse =>
      checked.phrase.conditional bound.phrase (whenTrue.fill phrase) whenFalse.phrase
  | .inFalse checked bound whenTrue whenFalse =>
      checked.phrase.conditional bound.phrase whenTrue.phrase (whenFalse.fill phrase)
  | .inParam before rest name optional declared after result =>
      .function (before.map ParamTree.phrase ++
        ⟨rest, name, optional, declared.fill phrase⟩ :: after.map ParamTree.phrase) result.phrase
  | .inResult params result => .function (params.map ParamTree.phrase) (result.fill phrase)

/-- Whether nothing stands around the hole. -/
def isHole {stratum : Stratum} (context : TypeContext stratum) : Bool :=
  match context with
  | .hole => true
  | _ => false

/-- Below the loosest stratum something stands around the hole. -/
theorem isHole_of_tight (context : TypeContext stratum) (h : stratum ≠ .full) :
    context.isHole = false := by
  cases context with
  | hole => contradiction
  | _ => rfl

end TypeContext

/-! ## Brackets -/

theorem Balanced.separate {mark : Mark} {stretches : List (List Symbol)}
    (hmark : Balanced [.mark mark]) (h : ∀ stretch ∈ stretches, Balanced stretch) :
    Balanced (separate mark stretches) := by
  cases stretches with
  | nil => exact .nil
  | cons first more =>
      obtain ⟨hfirst, hmore⟩ := List.forall_mem_cons.mp h
      exact hfirst.append (.markEach hmark hmore)

theorem ParamPhrase.balanced_symbols {phrase : ParamPhrase}
    (h : Balanced phrase.declared.symbols) : Balanced phrase.symbols :=
  (Balanced.onlyIf (.mark rfl rfl .nil) phrase.rest).append (.binding _
    ((Balanced.onlyIf (.mark rfl rfl .nil) phrase.optional).append (.mark rfl rfl h)))

theorem Phrase.balanced_among {stratum : Stratum} {phrase : Phrase} (h : Balanced phrase.symbols)
    (before after : List (TypeTree stratum)) :
    ∀ stretch ∈ (phrase.among before after).map Phrase.symbols, Balanced stretch :=
  List.forall_mem_map.mpr (Phrase.forall_mem_among h fun tree _ => tree.balanced_write)

theorem Phrase.balanced_conditional {check bound whenTrue whenFalse : Phrase}
    (hcheck : Balanced check.symbols) (hbound : Balanced bound.symbols)
    (htrue : Balanced whenTrue.symbols) (hfalse : Balanced whenFalse.symbols) :
    Balanced (check.conditional bound whenTrue whenFalse).symbols :=
  hcheck.append (.word _ (hbound.append (.mark rfl rfl (htrue.append (.mark rfl rfl hfalse)))))

theorem Phrase.balanced_function {params : List ParamPhrase} {result : Phrase}
    (hparams : ∀ param ∈ params, Balanced param.declared.symbols)
    (hresult : Balanced result.symbols) : Balanced (Phrase.function params result).symbols := by
  refine .group rfl (.commas (List.forall_mem_map.mpr fun param hparam => ?_)) rfl
    (.mark rfl rfl hresult)
  exact ParamPhrase.balanced_symbols (hparams param hparam)

theorem ParamTree.forall_mem_phrases {P : ParamPhrase → Prop} {params : List ParamTree}
    (h : ∀ param : ParamTree, P param.phrase) : ∀ phrase ∈ params.map ParamTree.phrase, P phrase :=
  List.forall_mem_map.mpr fun param _ => h param

namespace TypeContext

variable {stratum : Stratum} {phrase : Phrase}

/-- A context is balanced if what fills it is. -/
theorem balanced_fill (context : TypeContext stratum) (h : Balanced phrase.symbols) :
    Balanced (context.fill phrase).symbols := by
  induction context with
  | hole => exact h
  | parenthesized _ ih => exact .group rfl ih rfl .nil
  | tuple before _ after ih =>
      exact .group rfl (.commas (Phrase.balanced_among ih before after)) rfl .nil
  | applied name before _ after ih =>
      exact name.balanced_write.append (.mark rfl rfl
        ((Balanced.commas (Phrase.balanced_among ih before after)).append (.mark rfl rfl .nil)))
  | ofPrimary _ ih | ofSuffixed _ ih | ofOperator _ ih | ofIntersection _ ih | ofUnion _ ih => exact ih
  | array _ ih => exact ih.append (.group rfl .nil rfl .nil)
  | inObject _ index ih => exact ih.append (.group rfl index.balanced_write rfl .nil)
  | inIndex target _ ih => exact target.balanced_write.append (.group rfl ih rfl .nil)
  | keyOf _ ih | readonly _ ih => exact .word _ ih
  | intersection before _ after _ ih | union before _ after _ ih =>
      exact .separate (.mark rfl rfl .nil) (Phrase.balanced_among ih before after)
  | inCheck _ bound whenTrue whenFalse ih =>
      exact Phrase.balanced_conditional ih bound.balanced_write whenTrue.balanced_write
        whenFalse.balanced_write
  | inExtends checked _ whenTrue whenFalse ih =>
      exact Phrase.balanced_conditional checked.balanced_write ih whenTrue.balanced_write
        whenFalse.balanced_write
  | inTrue checked bound _ whenFalse ih =>
      exact Phrase.balanced_conditional checked.balanced_write bound.balanced_write ih
        whenFalse.balanced_write
  | inFalse checked bound whenTrue _ ih =>
      exact Phrase.balanced_conditional checked.balanced_write bound.balanced_write
        whenTrue.balanced_write ih
  | inParam before rest name optional _ after result ih =>
      refine Phrase.balanced_function (List.forall_mem_append.mpr ⟨?_, ?_⟩) result.balanced_write
      · exact ParamTree.forall_mem_phrases fun param => param.annotation.balanced_write
      · refine List.forall_mem_cons.mpr ⟨ih, ?_⟩
        exact ParamTree.forall_mem_phrases fun param => param.annotation.balanced_write
  | inResult params _ ih =>
      refine Phrase.balanced_function ?_ ih
      exact ParamTree.forall_mem_phrases fun param => param.annotation.balanced_write

/-! ## First symbols -/

theorem opening_separate {mark : Mark} {before after : List (TypeTree stratum)} {inner : Phrase}
    (hmark : (Kind.mark mark).followsName = false) (hinner : Opening inner.symbols) :
    Opening (separate mark ((inner.among before after).map Phrase.symbols)) := by
  have hmore (stretches : List (List Symbol)) : Continues (markEach mark stretches) := by
    cases stretches with
    | nil => exact .nil
    | cons first more => exact .cons hmark
  cases before with
  | nil => exact hinner.append (hmore _)
  | cons first before => exact first.opening_write.append (hmore _)

/-- A context begins like a type, whatever fills it, if something stands around the hole. -/
theorem opening_fill (context : TypeContext stratum) (hcontext : context.isHole = false)
    (h : Balanced phrase.symbols) : Opening (context.fill phrase).symbols := by
  induction context with
  | hole => contradiction
  | parenthesized | inParam | inResult => exact .paren rfl
  | tuple before element after =>
      exact .group (.inl rfl)
        (.commas (Phrase.balanced_among (element.balanced_fill h) before after)) rfl .nil
  | applied name => exact name.opening_write.append (.cons rfl)
  | ofPrimary inner ih | ofSuffixed inner ih | ofOperator inner ih | ofIntersection inner ih
  | ofUnion inner ih => exact ih (inner.isHole_of_tight nofun)
  | array element ih => exact (ih (element.isHole_of_tight nofun)).append (.cons rfl)
  | inObject target _ ih => exact (ih (target.isHole_of_tight nofun)).append (.cons rfl)
  | inIndex target => exact target.opening_write.append (.cons rfl)
  | keyOf operand ih =>
      exact .single rfl rfl nofun (ih (operand.isHole_of_tight nofun)).continues
  | readonly operand ih => exact .readonly rfl (ih (operand.isHole_of_tight nofun))
  | intersection _ operand _ _ ih | union _ operand _ _ ih =>
      exact opening_separate rfl (ih (operand.isHole_of_tight nofun))
  | inCheck checked _ _ _ ih => exact (ih (checked.isHole_of_tight nofun)).append (.cons rfl)
  | inExtends checked | inTrue checked | inFalse checked =>
      exact checked.opening_write.append (.cons rfl)

/-- A context that is tighter than operators does not begin with one. -/
theorem first_of_tight (context : TypeContext stratum) (phrase : Phrase)
    (htight : stratum = .primary ∨ stratum = .suffixed) : ∃ first rest,
      (context.fill phrase).symbols = first :: rest ∧ first.kind.beginsOperator = false := by
  induction context with
  | parenthesized | tuple | applied => exact ⟨_, _, rfl, rfl⟩
  | ofPrimary _ ih => exact ih (.inl rfl)
  | array _ ih =>
      obtain ⟨first, rest, hsymbols, hfirst⟩ := ih htight
      exact ⟨first, _, by rw [fill, Phrase.array, hsymbols, List.cons_append], hfirst⟩
  | inObject _ _ ih =>
      obtain ⟨first, rest, hsymbols, hfirst⟩ := ih htight
      exact ⟨first, _, by rw [fill, Phrase.indexed, hsymbols, List.cons_append], hfirst⟩
  | inIndex target index =>
      obtain ⟨first, rest, hwrite, hfirst⟩ := target.first_of_tight htight
      exact ⟨first, _, by rw [fill, Phrase.indexed, TypeTree.phrase, hwrite, List.cons_append], hfirst⟩
  | _ => simp at htight

theorem beginsTree_fill [Layout] (context : TypeContext stratum) (hstratum : stratum ≠ .full)
    (h : Balanced phrase.symbols) (after : List Symbol) :
    (kindAt ((context.fill phrase).symbols ++ after) 0).beginsTree = true := by
  obtain ⟨first, rest, hsymbols, hfirst⟩ :=
    (context.opening_fill (context.isHole_of_tight hstratum) h).first
  rwa [hsymbols]

theorem isTypeLike_fill [Layout] (context : TypeContext .full) (hlike : IsTypeLike phrase.symbols)
    (h : Balanced phrase.symbols) : IsTypeLike (context.fill phrase).symbols := by
  by_cases hcontext : context.isHole = true
  · cases context with
    | hole => exact hlike
    | _ => contradiction
  · exact (context.opening_fill (by simpa using hcontext) h).isTypeLike

end TypeContext

end DeclFile

import DeclFile.Parser.Type
import DeclFile.Proofs.TypeTree

/-! # The shape of written types

What can be said of a written type from its brackets and its first symbols. This decides
what becomes of attempts to read it as something else, such as the parameters of a function.
-/

namespace DeclFile

/-! ## Brackets -/

/-- Every bracket that opens is closed, where the kinds of brackets are not told apart. -/
inductive Balanced : List Symbol → Prop
  | nil : Balanced []
  | single {symbol : Symbol} {rest : List Symbol} (hopens : Parser.opensGroup symbol.kind = false)
      (hcloses : Parser.closesGroup symbol.kind = false) (hend : symbol.kind ≠ .endOfText)
      (hrest : Balanced rest) : Balanced (symbol :: rest)
  | group {opening closing : Symbol} {inside rest : List Symbol}
      (hopening : Parser.opensGroup opening.kind = true) (hinside : Balanced inside)
      (hclosing : Parser.closesGroup closing.kind = true) (hrest : Balanced rest) :
      Balanced (opening :: (inside ++ closing :: rest))

namespace Balanced

variable {first second inside rest : List Symbol}

theorem append (hfirst : Balanced first) (hsecond : Balanced second) :
    Balanced (first ++ second) := by
  induction hfirst with
  | nil => exact hsecond
  | single hopens hcloses hend _ ih => exact .single hopens hcloses hend ih
  | group hopening hinside hclosing _ _ ih =>
      rw [List.cons_append, List.append_assoc]
      exact .group hopening hinside hclosing ih

theorem word (keyword : Keyword) (hrest : Balanced rest) :
    Balanced (.word keyword :: rest) :=
  .single rfl rfl nofun hrest

theorem mark {sign : Mark} (hopens : Parser.opensGroup (.mark sign) = false)
    (hcloses : Parser.closesGroup (.mark sign) = false) (hrest : Balanced rest) :
    Balanced (.mark sign :: rest) :=
  .single hopens hcloses nofun hrest

theorem identifier (name : String) (hrest : Balanced rest) :
    Balanced (⟨.identifier, name⟩ :: rest) :=
  .single rfl rfl nofun hrest

theorem binding (word : BindingWord) (hrest : Balanced rest) :
    Balanced (word.symbol :: rest) := by
  obtain ⟨kind, text, hbinds⟩ := word
  refine .single ?_ ?_ ?_ hrest
  all_goals
    change Kind at kind
    revert hbinds
    cases kind <;> simp [BindingWord.symbol, Kind.isBindingName, Kind.isName, Kind.isKeyword,
      Parser.opensGroup, Parser.closesGroup]

theorem onlyIf {symbol : Symbol} (h : Balanced [symbol]) (wanted : Bool) :
    Balanced (symbol.onlyIf wanted) := by
  cases wanted
  · exact .nil
  · exact h

theorem markEach {mark : Mark} {stretches : List (List Symbol)}
    (hmark : Balanced [.mark mark]) (h : ∀ stretch ∈ stretches, Balanced stretch) :
    Balanced (markEach mark stretches) := by
  induction stretches with
  | nil => exact .nil
  | cons first more ih =>
      obtain ⟨hfirst, hmore⟩ := List.forall_mem_cons.mp h
      exact (hmark.append hfirst).append (ih hmore)

theorem commas {stretches : List (List Symbol)} (h : ∀ stretch ∈ stretches, Balanced stretch) :
    Balanced (commas stretches) := by
  cases stretches with
  | nil => exact .nil
  | cons first more =>
      obtain ⟨hfirst, hmore⟩ := List.forall_mem_cons.mp h
      exact hfirst.append (markEach (.mark rfl rfl .nil) hmore)

end Balanced

theorem DottedName.balanced_write (name : DottedName) : Balanced name.write := by
  refine .identifier _ ?_
  induction name.rest with
  | nil => exact .nil
  | cons segment rest ih => exact .mark rfl rfl (.identifier _ ih)

theorem ModifierSign.balanced_write {symbol : Symbol} (h : Balanced [symbol])
    (sign : ModifierSign) : Balanced (sign.write symbol) := by
  cases sign with
  | absent => exact .nil
  | bare => exact h
  | plus | minus => exact .mark rfl rfl h

theorem Balanced.mappedBody {constraint clause value : List Symbol} (readonly : ModifierSign)
    (key : BindingWord) (hconstraint : Balanced constraint) (hclause : Balanced clause)
    (optional : ModifierSign) (hvalue : Balanced value) :
    Balanced (mappedBody readonly key constraint clause optional value) := by
  have hreadonly := readonly.balanced_write (.word .readonly .nil)
  have hkey : Balanced (key.symbol :: .word .in :: (constraint ++ clause)) :=
    .binding _ (.word _ (hconstraint.append hclause))
  have hrest : Balanced (optional.write (.mark .question) ++ .mark .colon :: value) :=
    (optional.balanced_write (.mark rfl rfl .nil)).append (.mark rfl rfl hvalue)
  have hbrackets : Balanced (.mark .openBracket :: ((key.symbol :: .word .in ::
      (constraint ++ clause)) ++ .mark .closeBracket ::
      (optional.write (.mark .question) ++ .mark .colon :: value))) := .group rfl hkey rfl hrest
  simpa [DeclFile.mappedBody] using hreadonly.append hbrackets

mutual

/-- Written types are balanced. -/
theorem TypeTree.balanced_write {stratum : Stratum} (tree : TypeTree stratum) :
    Balanced tree.write := by
  match tree with
  | .keyword .. | .this | .boolean _ => exact .word _ .nil
  | .string _ | .bigint _ => exact .single rfl rfl nofun .nil
  | .number isNegative digits =>
      have hnumber : Balanced [⟨.numberLiteral, digits⟩] := .single rfl rfl nofun .nil
      exact (Balanced.onlyIf (.mark rfl rfl .nil) isNegative).append hnumber
  | .name name => exact name.balanced_write
  | .applied name first more =>
      have hargs : Balanced (commas (first.write :: more.writes)) :=
        .commas (List.forall_mem_cons.mpr ⟨first.balanced_write, more.balanced_writes⟩)
      exact name.balanced_write.append
        (.mark rfl rfl (hargs.append (.mark rfl rfl .nil)))
  | .parenthesized inner => exact .group rfl inner.balanced_write rfl .nil
  | .tuple elements => exact .group rfl (.commas elements.balanced_writes) rfl .nil
  | .mapped readonly key constraint none optional value =>
      exact .group rfl (.mappedBody _ _ constraint.balanced_write .nil _ value.balanced_write) rfl .nil
  | .mapped readonly key constraint (some name) optional value =>
      exact .group rfl (.mappedBody _ _ constraint.balanced_write (.word _ name.balanced_write) _
        value.balanced_write) rfl .nil
  | .ofPrimary inner | .ofSuffixed inner | .ofOperator inner | .ofIntersection inner
  | .ofUnion inner => exact inner.balanced_write
  | .array element => exact element.balanced_write.append (.group rfl .nil rfl .nil)
  | .indexed object index =>
      exact object.balanced_write.append (.group rfl index.balanced_write rfl .nil)
  | .keyOf operand | .readonly operand => exact .word _ operand.balanced_write
  | .uniqueSymbol => exact .word _ (.word _ .nil)
  | .intersection first second more =>
      exact first.balanced_write.append (.markEach (.mark rfl rfl .nil)
        (List.forall_mem_cons.mpr ⟨second.balanced_write, more.balanced_writes⟩))
  | .union first second more =>
      exact first.balanced_write.append (.markEach (.mark rfl rfl .nil)
        (List.forall_mem_cons.mpr ⟨second.balanced_write, more.balanced_writes⟩))
  | .conditional check bound whenTrue whenFalse =>
      exact check.balanced_write.append (.word _ (bound.balanced_write.append
        (.mark rfl rfl (whenTrue.balanced_write.append
          (.mark rfl rfl whenFalse.balanced_write)))))
  | .function params result =>
      exact .group rfl (.commas (balanced_paramWrites params)) rfl
        (.mark rfl rfl result.balanced_write)

theorem TypeTrees.balanced_writes {stratum : Stratum} (trees : TypeTrees stratum) :
    ∀ stretch ∈ trees.writes, Balanced stretch := by
  match trees with
  | .nil => simp [TypeTrees.writes]
  | .cons first more =>
      exact List.forall_mem_cons.mpr ⟨first.balanced_write, more.balanced_writes⟩

theorem ParamTree.balanced_write (param : ParamTree) : Balanced param.write := by
  match param with
  | ⟨rest, name, optional, annotation⟩ =>
      exact (Balanced.onlyIf (.mark rfl rfl .nil) rest).append (.binding _
        ((Balanced.onlyIf (.mark rfl rfl .nil) optional).append
          (.mark rfl rfl annotation.balanced_write)))

theorem balanced_paramWrites (params : List ParamTree) :
    ∀ stretch ∈ paramWrites params, Balanced stretch := by
  match params with
  | [] => simp [paramWrites]
  | first :: more =>
      exact List.forall_mem_cons.mpr ⟨first.balanced_write, balanced_paramWrites more⟩

end

theorem balanced_nameClause (nameType : Option (TypeTree .full)) :
    Balanced (nameClause nameType) := by
  cases nameType with
  | none => exact .nil
  | some name => exact .word _ name.balanced_write

/-! ## First symbols -/

/-- The kinds of tokens that begin a written type. -/
def Kind.beginsTree : Kind → Bool
  | .identifier | .stringLiteral | .numberLiteral | .bigintLiteral => true
  | .mark .minus | .mark .openParen | .mark .openBracket | .mark .openBrace => true
  | .word keyword =>
      [.this, .true, .false, .keyof, .unique, .readonly].contains keyword ||
        (Parser.primitive? (.word keyword)).isSome
  | _ => false

/-- The kinds of tokens that can stand after the name of a parameter or of an element of a
tuple, or after the subject of a predicate. -/
def Kind.followsName : Kind → Bool
  | .mark .question | .mark .colon | .mark .equals | .mark .comma | .mark .closeParen
  | .word .is => true
  | _ => false

/-- The symbols do not go on like a name that is no type. -/
def Continues (symbols : List Symbol) : Prop :=
  ∀ symbol ∈ symbols.head?, symbol.kind.followsName = false

theorem Continues.nil : Continues [] := nofun

theorem Continues.cons {symbol : Symbol} {rest : List Symbol}
    (h : symbol.kind.followsName = false) : Continues (symbol :: rest) := by
  rintro _ ⟨⟩
  exact h

theorem Continues.append {first second : List Symbol} (hfirst : Continues first)
    (hsecond : Continues second) : Continues (first ++ second) := by
  cases first with
  | nil => exact hsecond
  | cons symbol rest => exact .cons (hfirst symbol rfl)

/-- Neither do they with what closes a bracket after them. -/
theorem Continues.kindAt_ne [Layout] {symbols after : List Symbol} {closing : Symbol} {kind : Kind}
    (h : Continues symbols) (hclosing : closing.kind ≠ kind) (hkind : kind.followsName = true) :
    kindAt (symbols ++ closing :: after) 0 ≠ kind := by
  cases symbols with
  | nil => exact hclosing
  | cons symbol rest =>
      rintro rfl
      have hsymbol := h symbol rfl
      simp [hsymbol] at hkind

/-- How a written type begins: with a parenthesis, with a bracketed group, with a single
symbol or with `readonly` and another type. -/
inductive Opening : List Symbol → Prop
  | paren {first : Symbol} {rest : List Symbol} (hfirst : first.kind = .mark .openParen) :
      Opening (first :: rest)
  | group {opening closing : Symbol} {inside rest : List Symbol}
      (hopening : opening.kind = .mark .openBracket ∨ opening.kind = .mark .openBrace)
      (hinside : Balanced inside) (hclosing : Parser.closesGroup closing.kind = true)
      (hrest : Continues rest) : Opening (opening :: (inside ++ closing :: rest))
  | single {first : Symbol} {rest : List Symbol} (hfirst : first.kind.beginsTree = true)
      (hopens : Parser.opensGroup first.kind = false) (hreadonly : first.kind ≠ .word .readonly)
      (hrest : Continues rest) : Opening (first :: rest)
  | readonly {first : Symbol} {rest : List Symbol} (hfirst : first.kind = .word .readonly)
      (hrest : Opening rest) : Opening (first :: rest)

namespace Opening

variable {symbols more : List Symbol}

theorem append (h : Opening symbols) (hmore : Continues more) : Opening (symbols ++ more) := by
  induction h with
  | paren hfirst => exact .paren hfirst
  | group hopening hinside hclosing hrest =>
      rw [List.cons_append, List.append_assoc]
      exact .group hopening hinside hclosing (hrest.append hmore)
  | single hfirst hopens hreadonly hrest => exact .single hfirst hopens hreadonly (hrest.append hmore)
  | readonly hfirst _ ih => exact .readonly hfirst ih

theorem first (h : Opening symbols) :
    ∃ first rest, symbols = first :: rest ∧ first.kind.beginsTree = true := by
  cases h with
  | paren hfirst => exact ⟨_, _, rfl, by rw [hfirst]; rfl⟩
  | group hopening =>
      rcases hopening with hopening | hopening
      all_goals exact ⟨_, _, rfl, by rw [hopening]; rfl⟩
  | single hfirst => exact ⟨_, _, rfl, hfirst⟩
  | readonly hfirst => exact ⟨_, _, rfl, by rw [hfirst]; rfl⟩

/-- No type begins with what stands after a name. -/
theorem continues (h : Opening symbols) : Continues symbols := by
  obtain ⟨first, rest, rfl, hfirst⟩ := h.first
  refine .cons ?_
  unfold Kind.followsName
  split <;> simp_all [Kind.beginsTree, Parser.primitive?]

/-- After a first symbol that is a name stands nothing that makes it no type. -/
theorem continues_of_name {first : Symbol} {rest : List Symbol} (h : Opening (first :: rest))
    (hname : first.kind.isName = true) : Continues rest := by
  cases h with
  | paren hfirst => simp [hfirst, Kind.isName, Kind.isKeyword] at hname
  | group hopening =>
      rcases hopening with hopening | hopening <;> simp [hopening, Kind.isName, Kind.isKeyword] at hname
  | single _ _ _ hrest => exact hrest
  | readonly _ hrest => exact hrest.continues

/-- Neither does it further on, unless the type is over. -/
theorem second [Layout] (h : Opening symbols) (after : List Symbol)
    (hname : (kindAt (symbols ++ after) 0).isName = true) :
    (kindAt (symbols ++ after) 1).followsName = false ∨
      kindAt (symbols ++ after) 1 = kindAt after 0 := by
  obtain ⟨first, rest, rfl, -⟩ := h.first
  cases rest with
  | nil => exact .inr rfl
  | cons symbol rest => exact .inl (h.continues_of_name hname symbol rfl)

end Opening

/-- A keyword that is spelled like a primitive type is read as that. -/
theorem primitive?_of_spelling {keyword : Keyword} {primitive : Primitive}
    (h : keyword.spelling = primitive.spelling) :
    Parser.primitive? (.word keyword) = some primitive := by
  have hkeyword : Keyword.ofSpelling? primitive.spelling = some keyword :=
    h ▸ Keyword.ofSpelling?_spelling keyword
  have hall : (Keyword.ofSpelling? primitive.spelling).all
      (fun found => Parser.primitive? (.word found) == some primitive) = true := by
    cases primitive <;> decide
  simpa [hkeyword] using hall

theorem DottedName.opening_write (name : DottedName) : Opening name.write := by
  refine .single rfl rfl nofun ?_
  cases name.rest with
  | nil => exact .nil
  | cons segment rest => exact .cons rfl

/-- Written types begin in one of the ways there are. -/
theorem TypeTree.opening_write {stratum : Stratum} (tree : TypeTree stratum) :
    Opening tree.write := by
  match tree with
  | .keyword word _ hspelled =>
      have hprimitive := primitive?_of_spelling hspelled
      refine .single ?_ rfl ?_ .nil
      · simp [Kind.beginsTree, hprimitive]
      · rintro ⟨⟩
        simp [Parser.primitive?] at hprimitive
  | .boolean value => cases value <;> exact .single rfl rfl nofun .nil
  | .this | .string _ | .bigint _ => exact .single rfl rfl nofun .nil
  | .number false digits => exact .single rfl rfl nofun .nil
  | .number true digits => exact .single rfl rfl nofun (.cons rfl)
  | .name dotted => exact dotted.opening_write
  | .applied dotted _ _ => exact dotted.opening_write.append (.cons rfl)
  | .parenthesized _ => exact .paren rfl
  | .tuple elements => exact .group (.inl rfl) (.commas elements.balanced_writes) rfl .nil
  | .mapped _ _ constraint nameType _ value =>
      exact .group (.inr rfl) (.mappedBody _ _ constraint.balanced_write
        (balanced_nameClause nameType) _ value.balanced_write) rfl .nil
  | .ofPrimary inner | .ofSuffixed inner | .ofOperator inner | .ofIntersection inner
  | .ofUnion inner => exact inner.opening_write
  | .array element => exact element.opening_write.append (.cons rfl)
  | .indexed object _ => exact object.opening_write.append (.cons rfl)
  | .keyOf operand =>
      exact .single rfl rfl nofun operand.opening_write.continues
  | .readonly operand => exact .readonly rfl operand.opening_write
  | .uniqueSymbol => exact .single rfl rfl nofun (.cons rfl)
  | .intersection first _ _ => exact first.opening_write.append (.cons rfl)
  | .union first _ _ => exact first.opening_write.append (.cons rfl)
  | .conditional check _ _ _ => exact check.opening_write.append (.cons rfl)
  | .function _ _ => exact .paren rfl

/-- Whether a type operator begins with a token of this kind. -/
def Kind.beginsOperator : Kind → Bool
  | .word .keyof | .word .unique | .word .readonly | .word .infer => true
  | _ => false

/-- A type that is tighter than operators does not begin with one. -/
theorem TypeTree.first_of_tight {stratum : Stratum} (tree : TypeTree stratum)
    (htight : stratum = .primary ∨ stratum = .suffixed) :
    ∃ first rest, tree.write = first :: rest ∧ first.kind.beginsOperator = false := by
  match tree with
  | .keyword word _ hspelled =>
      have hprimitive := primitive?_of_spelling hspelled
      refine ⟨_, _, rfl, ?_⟩
      cases word <;> simp_all [Kind.beginsOperator, Parser.primitive?]
  | .boolean value => cases value <;> exact ⟨_, _, rfl, rfl⟩
  | .number isNegative _ => cases isNegative <;> exact ⟨_, _, rfl, rfl⟩
  | .this | .string _ | .bigint _ | .name _ | .applied _ _ _ | .parenthesized _ | .tuple _
  | .mapped _ _ _ _ _ _ => exact ⟨_, _, rfl, rfl⟩
  | .ofPrimary inner => exact inner.first_of_tight (.inl rfl)
  | .array element =>
      obtain ⟨first, rest, hwrite, hfirst⟩ := element.first_of_tight (.inr rfl)
      exact ⟨first, _, by rw [write, hwrite, List.cons_append], hfirst⟩
  | .indexed object _ =>
      obtain ⟨first, rest, hwrite, hfirst⟩ := object.first_of_tight (.inr rfl)
      exact ⟨first, _, by rw [write, hwrite, List.cons_append], hfirst⟩

end DeclFile

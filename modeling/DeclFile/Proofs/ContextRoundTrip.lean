import DeclFile.Proofs.TypeContext
import DeclFile.Proofs.TypeRoundTrip

/-! # Reading what fills a context

A phrase that is read wherever a type is, with as many levels of nesting as it has symbols, is
read in every context as well. The types around the hole are read as trees are.
-/

namespace DeclFile

/-- The phrase is read where a type or the result of a function stands, with as many levels of
nesting as it has symbols. -/
structure Phrase.IsReadable [Layout] (file : SourceId) (limit : Nat) (phrase : Phrase) : Prop where
  balanced : Balanced phrase.symbols
  like : IsTypeLike phrase.symbols
  type : ∀ levels after, phrase.symbols.length ≤ levels → Stratum.full.EndsAt after →
    kindAt after 0 ≠ .mark .question →
    Parser.type.Gives ((grammar limit).reach file levels) (phrase.symbols ++ after) after
      fun type => type.blank = phrase.type
  result : ∀ levels after, phrase.symbols.length ≤ levels → Stratum.full.EndsAt after →
    kindAt after 0 ≠ .mark .question →
    Parser.resultType.Gives ((grammar limit).reach file levels) (phrase.symbols ++ after) after
      fun type => type.blank = phrase.type

/-- Filled contexts with so many symbols at most are read where types, results of functions and
operands of operators are reached. -/
structure ReadsContexts [Layout] (reach : Reach TokenStream) (most : Nat) (phrase : Phrase) :
    Prop where
  type : ∀ context : TypeContext .full, (context.fill phrase).symbols.length ≤ most →
    (context.fill phrase).Reads reach
  result : ∀ (context : TypeContext .full) (after : List Symbol),
    (context.fill phrase).symbols.length ≤ most → Stratum.full.EndsAt after →
    kindAt after 0 ≠ .mark .question →
    Parser.resultType.Gives reach ((context.fill phrase).symbols ++ after) after
      fun type => type.blank = (context.fill phrase).type
  operand : ∀ (context : TypeContext .operator) (inBound : Bool) (after : List Symbol),
    (context.fill phrase).symbols.length ≤ most → Stratum.operator.EndsAt after →
    (Parser.nested (.operand inBound)).Gives reach ((context.fill phrase).symbols ++ after) after
      fun type : Ty => type.blank = (context.fill phrase).type

theorem length_le_separate {mark : Mark} {stretch : List Symbol} {stretches : List (List Symbol)}
    (h : stretch ∈ stretches) : stretch.length ≤ (separate mark stretches).length := by
  cases stretches with
  | nil => exact absurd h List.not_mem_nil
  | cons first more =>
      rw [separate, List.length_append]
      rcases List.mem_cons.mp h with rfl | hmore
      · omega
      · have hlength : stretch.length ≤ (markEach mark more).length := length_le_markEach hmore
        omega

namespace Parser

variable [Layout] {file : SourceId} {limit levels most : Nat} {reach : Reach TokenStream}
  {phrase : Phrase} {after : List Symbol}

namespace Gives

/-- A filled context among trees is read as they are. -/
theorem reads_among (hreads : ReadsTypes reach most) (hcontexts : ReadsContexts reach most phrase)
    {context : TypeContext .full} {before after : List (TypeTree .full)}
    (hlength : (commas (((context.fill phrase).among before after).map Phrase.symbols)).length ≤
      most) :
    ∀ found ∈ (context.fill phrase).among before after, found.Reads reach := by
  have hshort {found : Phrase} (hfound : found ∈ (context.fill phrase).among before after) :
      found.symbols.length ≤ most :=
    (length_le_commas (List.mem_map_of_mem hfound)).trans hlength
  refine Phrase.forall_mem_among ?_ fun tree htree => ?_
  · exact hcontexts.type context (hshort Phrase.mem_among_self)
  · exact hreads.phrase tree (hshort (Phrase.mem_among_tree htree))

theorem primaryKind_fill [Layout.OneLine] (hreads : ReadsTypes reach most)
    (hcontexts : ReadsContexts reach most phrase) (context : TypeContext .primary)
    (hlength : (context.fill phrase).symbols.length ≤ most + 1)
    (hafter : Stratum.primary.EndsAt after) :
    Parser.primaryKind.Gives reach ((context.fill phrase).symbols ++ after) after
      fun kind => (⟨kind.blank, default⟩ : Ty) = (context.fill phrase).type := by
  cases context with
  | parenthesized inner =>
      simp only [TypeContext.fill, Phrase.parenthesized, List.length_append, List.length_cons]
        at hlength
      have hinner : (inner.fill phrase).Reads reach := hcontexts.type inner (by omega)
      rw [TypeContext.fill, Phrase.parenthesized, List.cons_append, List.append_assoc]
      refine peek.bind fun token htoken => ?_
      simp only [htoken.kind, Symbol.kind_mark, primitive?]
      exact parenType_type hinner (hafter.ne rfl)
  | tuple before element after =>
      simp only [TypeContext.fill, Phrase.tuple, List.length_append, List.length_cons] at hlength
      rw [TypeContext.fill, Phrase.tuple, List.cons_append, List.append_assoc]
      refine peek.bind fun token htoken => ?_
      simp only [htoken.kind, Symbol.kind_mark, primitive?]
      exact tupleType _ (reads_among hreads hcontexts (by omega))
  | applied name before arg after =>
      simp only [TypeContext.fill, Phrase.applied, List.length_append, List.length_cons] at hlength
      rw [TypeContext.fill, Phrase.applied, List.append_assoc, List.cons_append, List.append_assoc]
      refine peek.bind fun token htoken => ?_
      simp only [htoken.kind, primitive?]
      exact namedType (typeRef_applied name _ (reads_among hreads hcontexts (by omega)))

end Gives

/-- A filled context takes the suffixes behind it. -/
theorem takesSuffixes_fill [Layout.OneLine] (hreads : ReadsTypes reach most)
    (hcontexts : ReadsContexts reach most phrase) (context : TypeContext .suffixed)
    (hlength : (context.fill phrase).symbols.length ≤ most + 1) :
    (context.fill phrase).TakesSuffixes reach := by
  match context with
  | .ofPrimary inner =>
      exact takesSuffixes_primary fun _ hafter =>
        Gives.primaryKind_fill hreads hcontexts inner hlength hafter
  | .array element =>
      simp only [TypeContext.fill, Phrase.array, List.length_append] at hlength
      exact takesSuffixes_array (takesSuffixes_fill hreads hcontexts element (by omega))
  | .inObject target index =>
      obtain ⟨first, rest, hfirst, -⟩ := target.first_of_tight phrase (.inr rfl)
      simp only [TypeContext.fill, Phrase.indexed, TypeTree.symbols_phrase, List.length_append,
        List.length_cons, hfirst] at hlength
      refine takesSuffixes_indexed (takesSuffixes_fill hreads hcontexts target ?_)
        (hreads.phrase index (by omega))
      rw [hfirst, List.length_cons]
      omega
  | .inIndex target index =>
      obtain ⟨first, rest, hfirst, -⟩ := target.opening_write.first
      simp only [TypeContext.fill, Phrase.indexed, TypeTree.symbols_phrase, List.length_append,
        List.length_cons, hfirst] at hlength
      refine takesSuffixes_indexed (takesSuffixes_tree hreads target ?_)
        (hcontexts.type index (by omega))
      rw [hfirst, List.length_cons]
      omega

namespace Gives

theorem operatorType_fill [Layout.OneLine] (hreads : ReadsTypes reach most)
    (hcontexts : ReadsContexts reach most phrase) (inBound : Bool)
    (context : TypeContext .operator) (hbalanced : Balanced phrase.symbols)
    (hlength : (context.fill phrase).symbols.length ≤ most + 1)
    (hafter : Stratum.operator.EndsAt after) :
    (Parser.operatorType inBound).Gives reach ((context.fill phrase).symbols ++ after) after
      fun type => type.blank = (context.fill phrase).type := by
  cases context with
  | ofSuffixed inner =>
      refine operatorType_of_suffixed ?_ ?_
      · refine takesSuffixes_fill hreads hcontexts inner hlength _ _ _
          (hafter.tighter (by decide)) fun type htype => ?_
        exact .suffixTurn_done htype (hafter.line rfl)
      · obtain ⟨first, rest, hsymbols, hfirst⟩ := inner.first_of_tight phrase (.inr rfl)
        rw [TypeContext.fill, hsymbols]
        exact hfirst
  | keyOf operand =>
      simp only [TypeContext.fill, Phrase.keyOf, List.length_cons] at hlength
      refine peekKind.known ((kindAhead 1).known ?_)
      rw [if_pos (by rfl)]
      refine typeOf (advance.bind fun _ _ => ?_)
      refine (hcontexts.operand operand inBound after (by omega) hafter).bind fun type htype => .pure ?_
      rw [TyKind.blank, htype]
      rfl
  | readonly operand =>
      simp only [TypeContext.fill, Phrase.readonly, List.length_cons] at hlength
      have hbegins : beginsType (kindAt ((operand.fill phrase).symbols ++ after) 0) = true :=
        beginsType_of_beginsTree (operand.beginsTree_fill nofun hbalanced after)
      refine peekKind.known ((kindAhead 1).known ?_)
      rw [if_neg (by simp [Phrase.readonly]), if_neg (by simp [Phrase.readonly]),
        if_pos (by simp [Phrase.readonly, hbegins])]
      refine typeOf (advance.bind fun _ _ => ?_)
      refine (hcontexts.operand operand inBound after (by omega) hafter).bind fun type htype => .pure ?_
      rw [TyKind.blank, htype]
      rfl

/-! ## Unions and intersections -/

/-- Operands of which one is a filled context are read as a list. -/
theorem operands_among {stratum : Stratum} {mark : Mark} {wrap : List Ty → TyKind}
    {operand : Parser Ty} {inner : Phrase} {before trees : List (TypeTree stratum)}
    (hseveral : before ≠ [] ∨ trees ≠ [])
    (hwrap : ∀ types, (wrap types).blank = wrap (types.map Ty.blank))
    (hopening : Opening inner.symbols) (hmark : Kind.beginsTree (.mark mark) = false)
    (hfree : stratum.blocked.contains (.mark mark) = false) (hends : stratum.EndsAt after)
    (hafter : kindAt after 0 ≠ .mark mark)
    (hinner : ∀ rest, stratum.EndsAt rest →
      operand.Gives reach (inner.symbols ++ rest) rest fun type => type.blank = inner.type)
    (htrees : ∀ tree, tree ∈ before ∨ tree ∈ trees → ∀ rest, stratum.EndsAt rest →
      operand.Gives reach (tree.write ++ rest) rest fun type => type.blank = tree.type) :
    (Parser.operands mark wrap operand).Gives reach
      ((Phrase.operands mark wrap (inner.among before trees)).symbols ++ after) after
      fun type => type.blank = (Phrase.operands mark wrap (inner.among before trees)).type := by
  have hbegins : ∀ found ∈ inner.among before trees, ∀ rest,
      kindAt (found.symbols ++ rest) 0 ≠ .mark mark := by
    refine Phrase.forall_mem_among (fun rest => ?_) fun tree _ rest => ?_
    · obtain ⟨first, more, hsymbols, hfirst⟩ := hopening.first
      rw [hsymbols]
      exact Kind.ne_of_beginsTree hfirst hmark
    · exact Kind.ne_of_beginsTree (tree.beginsTree rest) hmark
  have hoperand : ∀ found ∈ inner.among before trees, ∀ rest,
      rest = after ∨ kindAt rest 0 = .mark mark →
      operand.Gives reach (found.symbols ++ rest) rest fun type => type.blank = found.type := by
    have hrests {rest : List Symbol} (hrest : rest = after ∨ kindAt rest 0 = .mark mark) :
        stratum.EndsAt rest := by
      rcases hrest with rfl | hrest
      · exact hends
      · exact .of_kindAt hrest hfree
    refine Phrase.forall_mem_among (fun rest hrest => hinner rest (hrests hrest)) ?_
    exact fun tree htree rest hrest => htrees tree htree rest (hrests hrest)
  obtain ⟨first, others, hlist, hothers⟩ :
      ∃ first others, inner.among before trees = first :: others ∧ others ≠ [] := by
    cases before with
    | nil => exact ⟨_, _, rfl, by simpa using hseveral⟩
    | cons tree before => exact ⟨_, _, rfl, by simp⟩
  rw [hlist] at hoperand hbegins ⊢
  exact operands_list first others hothers hwrap (hbegins first List.mem_cons_self) hafter hoperand

theorem intersectionType_fill [Layout.OneLine] (hreads : ReadsTypes reach most)
    (hcontexts : ReadsContexts reach most phrase) (inBound : Bool)
    (context : TypeContext .intersection) (hbalanced : Balanced phrase.symbols)
    (hlength : (context.fill phrase).symbols.length ≤ most + 1)
    (hafter : Stratum.intersection.EndsAt after) :
    (Parser.operands .ampersand .intersection (Parser.operatorType inBound)).Gives reach
      ((context.fill phrase).symbols ++ after) after
      fun type => type.blank = (context.fill phrase).type := by
  have htight : Stratum.operator.EndsAt after := hafter.tighter (by decide)
  cases context with
  | ofOperator inner =>
      refine operands_single ?_ ?_ (hafter.ne rfl)
      · exact operatorType_fill hreads hcontexts inBound inner hbalanced hlength htight
      · exact Kind.ne_of_beginsTree (inner.beginsTree_fill nofun hbalanced after) rfl
  | intersection before inner trees hseveral =>
      have hshort {found : Phrase} (hfound : found ∈ (inner.fill phrase).among before trees) :
          found.symbols.length ≤ most + 1 :=
        (length_le_separate (List.mem_map_of_mem hfound)).trans hlength
      refine operands_among hseveral (fun types => ?_)
        (inner.opening_fill (inner.isHole_of_tight nofun) hbalanced) rfl rfl htight
        (hafter.ne rfl) (fun rest hrest => ?_) fun tree htree rest hrest => ?_
      · rw [TyKind.blank, blankTypes_eq_map]
      · exact operatorType_fill hreads hcontexts inBound inner hbalanced
          (hshort Phrase.mem_among_self) hrest
      · exact operatorType hreads inBound tree (hshort (Phrase.mem_among_tree htree)) hrest

theorem unionType_fill [Layout.OneLine] (hreads : ReadsTypes reach most)
    (hcontexts : ReadsContexts reach most phrase) (inBound : Bool)
    (context : TypeContext .union) (hbalanced : Balanced phrase.symbols)
    (hlength : (context.fill phrase).symbols.length ≤ most + 1)
    (hafter : Stratum.union.EndsAt after) :
    (Parser.unionType inBound).Gives reach ((context.fill phrase).symbols ++ after) after
      fun type => type.blank = (context.fill phrase).type := by
  have htight : Stratum.intersection.EndsAt after := hafter.tighter (by decide)
  cases context with
  | ofIntersection inner =>
      refine operands_single ?_ ?_ (hafter.ne rfl)
      · exact intersectionType_fill hreads hcontexts inBound inner hbalanced hlength htight
      · exact Kind.ne_of_beginsTree (inner.beginsTree_fill nofun hbalanced after) rfl
  | union before inner trees hseveral =>
      have hshort {found : Phrase} (hfound : found ∈ (inner.fill phrase).among before trees) :
          found.symbols.length ≤ most + 1 :=
        (length_le_separate (List.mem_map_of_mem hfound)).trans hlength
      refine operands_among hseveral (fun types => ?_)
        (inner.opening_fill (inner.isHole_of_tight nofun) hbalanced) rfl rfl htight
        (hafter.ne rfl) (fun rest hrest => ?_) fun tree htree rest hrest => ?_
      · rw [TyKind.blank, blankTypes_eq_map]
      · exact intersectionType_fill hreads hcontexts inBound inner hbalanced
          (hshort Phrase.mem_among_self) hrest
      · exact intersectionType hreads inBound tree (hshort (Phrase.mem_among_tree htree)) hrest

/-! ## Conditional types and functions -/

/-- A conditional type is read as a phrase if its parts are. -/
theorem conditionalType_phrase [Layout.OneLine] {check bound whenTrue whenFalse : Phrase}
    (hcheck : ∀ rest, rest = .word .extends :: (bound.symbols ++ .mark .question ::
        (whenTrue.symbols ++ .mark .colon :: (whenFalse.symbols ++ after))) →
      (Parser.unionType false).Gives reach (check.symbols ++ rest) rest
        fun type => type.blank = check.type)
    (hbound : ∀ rest, Stratum.union.EndsAt rest →
      (Parser.unionType true).Gives reach (bound.symbols ++ rest) rest
        fun type => type.blank = bound.type)
    (htrue : ∀ rest, kindAt rest 0 = .mark .colon →
      Parser.type.Gives reach (whenTrue.symbols ++ rest) rest
        fun type => type.blank = whenTrue.type)
    (hfalse : Parser.type.Gives reach (whenFalse.symbols ++ after) after
      fun type => type.blank = whenFalse.type) :
    Parser.conditionalType.Gives reach
      ((check.conditional bound whenTrue whenFalse).symbols ++ after) after
      fun type => type.blank = (check.conditional bound whenTrue whenFalse).type := by
  have hall := conditionalType_all (hcheck _ rfl)
    (fun rest hrest => hbound rest (.of_kindAt hrest rfl)) htrue hfalse
  simpa [Phrase.conditional] using hall

/-- A function is read as a phrase if its parts are. -/
theorem conditionalType_function (params : List ParamPhrase) {result : Phrase}
    (hafter : Stratum.full.EndsAt after)
    (hparams : ∀ param ∈ params, param.declared.Reads reach)
    (hresult : Parser.resultType.Gives reach (result.symbols ++ after) after
      fun type => type.blank = result.type) :
    Parser.conditionalType.Gives reach ((Phrase.function params result).symbols ++ after) after
      fun type => type.blank = (Phrase.function params result).type := by
  have hunion := unionType_function false params hparams hresult (hafter.tighter (by decide))
  refine conditionalType_single ?_ (hafter.line rfl)
  simpa [Phrase.function] using hunion

/-- A context is read when it is filled, if something stands around the hole. -/
theorem conditionalType_fill [Layout.OneLine] (hreads : ReadsTypes reach most)
    (hcontexts : ReadsContexts reach most phrase) (context : TypeContext .full)
    (hcontext : context.isHole = false) (hbalanced : Balanced phrase.symbols)
    (hlength : (context.fill phrase).symbols.length ≤ most + 1)
    (hafter : Stratum.full.EndsAt after) (hquestion : kindAt after 0 ≠ .mark .question) :
    Parser.conditionalType.Gives reach ((context.fill phrase).symbols ++ after) after
      fun type => type.blank = (context.fill phrase).type := by
  have hcolon {rest : List Symbol} (hrest : kindAt rest 0 = .mark .colon) :
      Stratum.full.EndsAt rest ∧ kindAt rest 0 ≠ .mark .question :=
    ⟨.of_kindAt hrest rfl, by simp [hrest]⟩
  cases context with
  | hole => contradiction
  | ofUnion inner =>
      refine conditionalType_single ?_ (hafter.line rfl)
      exact unionType_fill hreads hcontexts false inner hbalanced hlength (hafter.tighter (by decide))
  | inCheck checked bound whenTrue whenFalse =>
      simp only [TypeContext.fill, Phrase.conditional, TypeTree.symbols_phrase, List.length_append,
        List.length_cons] at hlength
      refine conditionalType_phrase (fun rest hrest => ?_) (fun rest hrest => ?_)
        (fun rest hrest => ?_) ?_
      · exact unionType_fill hreads hcontexts false checked hbalanced (by omega)
          (hrest ▸ .of_kindAt rfl rfl)
      · exact unionType hreads true bound (by omega) hrest
      · exact hreads.type whenTrue rest (by omega) (hcolon hrest).1
      · exact hreads.type whenFalse after (by omega) hafter
  | inExtends checked bound whenTrue whenFalse =>
      simp only [TypeContext.fill, Phrase.conditional, TypeTree.symbols_phrase, List.length_append,
        List.length_cons] at hlength
      refine conditionalType_phrase (fun rest hrest => ?_) (fun rest hrest => ?_)
        (fun rest hrest => ?_) ?_
      · exact unionType hreads false checked (by omega) (hrest ▸ .of_kindAt rfl rfl)
      · exact unionType_fill hreads hcontexts true bound hbalanced (by omega) hrest
      · exact hreads.type whenTrue rest (by omega) (hcolon hrest).1
      · exact hreads.type whenFalse after (by omega) hafter
  | inTrue checked bound whenTrue whenFalse =>
      simp only [TypeContext.fill, Phrase.conditional, TypeTree.symbols_phrase, List.length_append,
        List.length_cons] at hlength
      refine conditionalType_phrase (fun rest hrest => ?_) (fun rest hrest => ?_)
        (fun rest hrest => ?_) ?_
      · exact unionType hreads false checked (by omega) (hrest ▸ .of_kindAt rfl rfl)
      · exact unionType hreads true bound (by omega) hrest
      · exact (hcontexts.type whenTrue (by omega)).gives rest (hcolon hrest).1 (hcolon hrest).2
      · exact hreads.type whenFalse after (by omega) hafter
  | inFalse checked bound whenTrue whenFalse =>
      simp only [TypeContext.fill, Phrase.conditional, TypeTree.symbols_phrase, List.length_append,
        List.length_cons] at hlength
      refine conditionalType_phrase (fun rest hrest => ?_) (fun rest hrest => ?_)
        (fun rest hrest => ?_) ?_
      · exact unionType hreads false checked (by omega) (hrest ▸ .of_kindAt rfl rfl)
      · exact unionType hreads true bound (by omega) hrest
      · exact hreads.type whenTrue rest (by omega) (hcolon hrest).1
      · exact (hcontexts.type whenFalse (by omega)).gives after hafter hquestion
  | inParam before rest name optional declared params result =>
      simp only [TypeContext.fill, Phrase.function, List.length_append, List.length_cons,
        TypeTree.symbols_phrase] at hlength
      have hlist : (commas ((before.map ParamTree.phrase ++
          ⟨rest, name, optional, declared.fill phrase⟩ :: params.map ParamTree.phrase).map
            ParamPhrase.symbols)).length ≤ most := by omega
      have hparam : (declared.fill phrase).symbols.length ≤ most :=
        ((ParamPhrase.length_declared ⟨rest, name, optional, declared.fill phrase⟩).trans
          (length_le_commas (List.mem_map_of_mem
            (List.mem_append_right _ List.mem_cons_self)))).trans hlist
      refine conditionalType_function _ hafter
        (List.forall_mem_append.mpr ⟨?_, List.forall_mem_cons.mpr ⟨?_, ?_⟩⟩) ?_
      · exact hreads.declared hlist fun tree htree =>
          List.mem_append_left _ (List.mem_map_of_mem htree)
      · exact hcontexts.type declared hparam
      · exact hreads.declared hlist fun tree htree =>
          List.mem_append_right _ (List.mem_cons_of_mem _ (List.mem_map_of_mem htree))
      · exact resultType result.opening_write hafter (hreads.type result after (by omega) hafter)
  | inResult params result =>
      simp only [TypeContext.fill, Phrase.function, List.length_append, List.length_cons] at hlength
      refine conditionalType_function _ hafter ?_ ?_
      · exact hreads.declared (by omega) fun tree htree => List.mem_map_of_mem htree
      · exact hcontexts.result result after (by omega) hafter hquestion

end Gives

/-! ## Levels of nesting -/

/-- With as many levels as symbols, filled contexts are read. As for trees, the induction is on
the levels; the phrase itself is read by assumption. -/
theorem readsContexts [Layout.OneLine] (hphrase : phrase.IsReadable file limit) (levels : Nat) :
    ReadsContexts ((grammar limit).reach file levels) levels phrase := by
  -- Reading a type is enough: what begins like one is no predicate.
  have hall {levels : Nat} (htype : ∀ (context : TypeContext .full) (after : List Symbol),
      context.isHole = false → (context.fill phrase).symbols.length ≤ levels →
      Stratum.full.EndsAt after → kindAt after 0 ≠ .mark .question →
      Parser.type.Gives ((grammar limit).reach file levels) ((context.fill phrase).symbols ++ after)
        after fun type => type.blank = (context.fill phrase).type)
      (hoperand : ∀ (context : TypeContext .operator) (inBound : Bool) (after : List Symbol),
        (context.fill phrase).symbols.length ≤ levels → Stratum.operator.EndsAt after →
        (Parser.nested (.operand inBound)).Gives ((grammar limit).reach file levels)
          ((context.fill phrase).symbols ++ after) after
          fun type : Ty => type.blank = (context.fill phrase).type) :
      ReadsContexts ((grammar limit).reach file levels) levels phrase := by
    refine ⟨fun context hlength => ⟨?_, ?_⟩, fun context after hlength hafter hquestion => ?_, hoperand⟩
    · exact context.isTypeLike_fill hphrase.like hphrase.balanced
    · intro after hafter hquestion
      by_cases hcontext : context.isHole = true
      · cases context with
        | hole => exact hphrase.type levels after hlength hafter hquestion
        | _ => contradiction
      · exact htype context after (by simpa using hcontext) hlength hafter hquestion
    · by_cases hcontext : context.isHole = true
      · cases context with
        | hole => exact hphrase.result levels after hlength hafter hquestion
        | _ => contradiction
      · rw [Bool.not_eq_true] at hcontext
        exact Gives.resultType (context.opening_fill hcontext hphrase.balanced) hafter
          (htype context after hcontext hlength hafter hquestion)
  induction levels with
  | zero =>
      refine hall (fun context after hcontext hlength => ?_) fun context _ _ hlength => ?_
      · obtain ⟨first, rest, hsymbols, -⟩ := (context.opening_fill hcontext hphrase.balanced).first
        rw [hsymbols] at hlength
        contradiction
      · obtain ⟨first, rest, hsymbols, -⟩ :=
          (context.opening_fill (context.isHole_of_tight nofun) hphrase.balanced).first
        rw [hsymbols] at hlength
        contradiction
  | succ levels ih =>
      have hreads := readsTypes file limit levels
      refine hall (fun context after hcontext hlength hafter hquestion => ?_)
        fun context inBound after hlength hafter => ?_
      · exact Gives.nested (Gives.conditionalType_fill hreads ih context hcontext hphrase.balanced
          hlength hafter hquestion)
      · exact Gives.nested (Gives.operatorType_fill hreads ih inBound context hphrase.balanced
          hlength hafter)

end Parser

/-- What is read where a type stands, is read in every context. -/
theorem Phrase.IsReadable.fill [Layout] [Layout.OneLine] {file : SourceId} {limit : Nat}
    {phrase : Phrase} (h : phrase.IsReadable file limit) (context : TypeContext .full) :
    (context.fill phrase).IsReadable file limit where
  balanced := context.balanced_fill h.balanced
  like := context.isTypeLike_fill h.like h.balanced
  type levels after hlength := ((Parser.readsContexts h levels).type context hlength).gives after
  result levels after hlength := (Parser.readsContexts h levels).result context after hlength

end DeclFile

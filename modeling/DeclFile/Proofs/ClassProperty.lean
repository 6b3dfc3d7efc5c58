import DeclFile.Proofs.Independence
import DeclFile.Proofs.Quiet.ClassMember
import DeclFile.Proofs.Quiet.File
import DeclFile.Proofs.TypeRoundTrip

/-! # Modifiers leave the name of a property alone

In a declared class any modifiers may stand in front of a property, in any order, and its name may be
the word for another one. They are told apart whatever type the property has.
-/

namespace DeclFile

/-- A property with modifiers, none of them twice, has these and the name and type that are written, if
the type is read without a word up to the semicolon. -/
theorem parseTokens_property (name : BindingWord) (modifiers : List Modifier) (key : KeyTree)
    (isOptional : Bool) (type : Ty) (tokens typed ended : TokenStream) (lastRead : Option Span)
    (source : SourceId) (limits : Limits) (levels : Nat) (hnodup : modifiers.Nodup)
    (hwritten : Spread typed (classHead name modifiers key isOptional) tokens)
    (hlevels : limits.maxDepth = levels + 1)
    (htype : (grammar limits.maxDepth).run source levels Parser.type typed =
      ⟨some type, [], lastRead, ended⟩)
    (hended : ended.Fills (placeFreely [.mark .semicolon, .mark .closeBrace]))
    (hdirectives : tokens.directives = []) (hsize : tokens.size ≤ limits.maxTokens) :
    ∃ found : Modifiers, (∀ modifier, found.contains modifier = true ↔ modifier ∈ modifiers) ∧
      (parseTokens tokens source limits).module.statements.map Statement.blank =
        [⟨.ambient ⟨.class ⟨some name.ident, false, [], none, [],
          [⟨.property key.name isOptional (some type.blank), found, default⟩]⟩, default⟩, default⟩] ∧
      (parseTokens tokens source limits).diagnostics = [] := by
  refine ⟨modifiers.foldl Modifiers.insert .empty, fun modifier => ?_, ?_⟩
  · rw [Modifiers.contains_foldl_insert, or_iff_left]
    simp [Modifiers.contains, Modifiers.empty]
  -- Reading only moves on, so both marks behind the type are still ahead where it begins.
  have hless : ended.finished.pending.length + 2 ≤ typed.pending.length := by
    obtain ⟨count, hcount⟩ := (grammar limits.maxDepth).run_rest source levels Parser.type typed
    have hskip : ended = typed.skip count := by rw [← hcount, htype]
    have hle := typed.length_pending_skip_le count
    have hlength : ended.pending.length = 2 := hended.length_eq
    rw [← hskip, hlength] at hle
    simpa [TokenStream.finished] using hle
  have hread : Parser.type.Gives ((grammar limits.maxDepth).reach source levels) (Spread typed [])
      (Spread ended.finished (placeFreely [.mark .semicolon, .mark .closeBrace])) (· = type) := by
    intro stream hstream
    rw [Spread.nil_iff.mp hstream]
    exact ⟨type, lastRead, ended, htype, .of_fills hended, rfl⟩
  have hmembers : (Parser.nested .classMembers).Gives
      ((grammar limits.maxDepth).reach source limits.maxDepth)
      (Spread typed (placeLine none (propertyHead modifiers key isOptional)))
      (Spread ended.finished (placeFreely [.mark .closeBrace]))
      fun found : List ClassMember => ∃ other, other = type ∧ found.map ClassMember.blank =
        [⟨.property key.name isOptional (some other.blank), modifiers.foldl Modifiers.insert .empty,
          default⟩] := by
    have hrun := Parser.Gives.classMembers modifiers hnodup key isOptional hless hread
    rw [hlevels] at hrun ⊢
    exact .nested hrun
  have hstatement : (Parser.statement false).Gives
      ((grammar limits.maxDepth).reach source limits.maxDepth)
      (Spread typed (classHead name modifiers key isOptional)) (Spread ended.finished [])
      fun statement => statement.blank = ⟨.ambient ⟨.class ⟨some name.ident, false, [], none, [],
        [⟨.property key.name isOptional (some type.blank), modifiers.foldl Modifiers.insert .empty,
          default⟩]⟩, default⟩, default⟩ := by
    refine .of_freely fun body hbody => ?_
    let _ := Layout.lines body
    refine (Parser.Gives.statement_class name (hmembers.weaken fun stream hstream => ?_)).mono ?_
    · rwa [Heads.nil_iff.mp hstream]
    · rintro statement ⟨members, ⟨other, hother, hmembers⟩, hblank⟩
      rw [hblank, hmembers, hother]
  exact parseTokens_placed source hdirectives hsize hwritten rfl
    ⟨Kind.noConfusion, Kind.noConfusion⟩ hstatement

theorem Spread.of_take {stream : TokenStream} {places : List Placed} (count : Nat)
    (h : List.Forall₂ Token.StandsAs (stream.pending.take count) places) :
    Spread (stream.skip count) places stream :=
  ⟨_, h, congrArg (fun pending => { stream with pending }) (List.take_append_drop _ _).symm⟩

/-- The word `abstract`, as a name. -/
def abstractKey : KeyTree := .word (.ofKeyword .abstract)

/-- The type `A[]`. -/
def arrayOfA : TypeTree .full :=
  .ofUnion (.ofIntersection (.ofOperator (.ofSuffixed
    (.array (.ofPrimary (.name ⟨"A", [], fun _ => by decide⟩))))))

/-- Three modifiers and a name that could be a fourth one, as they are lexed. -/
def modifiedTokens : TokenStream :=
  .ofTokens (lex "declare class C { readonly static declare abstract?: A[]; }" ⟨0⟩).tokens

theorem parseTokens_property_abstract : ∃ type : Ty, type.blank = arrayOfA.type ∧
    ∃ found : Modifiers, (∀ modifier, found.contains modifier = true ↔
        modifier ∈ [.readonly, .static, .declare]) ∧
      (parseTokens modifiedTokens ⟨0⟩ ⟨10, 100⟩).module.statements.map Statement.blank =
        [⟨.ambient ⟨.class ⟨some ⟨"C", default⟩, false, [], none, [],
          [⟨.property abstractKey.name true (some type.blank), found, default⟩]⟩, default⟩, default⟩] ∧
      (parseTokens modifiedTokens ⟨0⟩ ⟨10, 100⟩).diagnostics = [] := by
  have htokens : List.Forall₂ Token.StandsAs (modifiedTokens.pending.take 10)
        (classHead (.ofText "C") [.readonly, .static, .declare] abstractKey true) ∧
      List.Forall₂ Token.Shows ((modifiedTokens.skip 10).pending.take 3) arrayOfA.write ∧
      ((modifiedTokens.skip 10).skip 3).Fills (placeFreely [.mark .semicolon, .mark .closeBrace]) ∧
      modifiedTokens.directives = [] ∧ modifiedTokens.size ≤ 100 := by
    decide +kernel
  obtain ⟨hhead, htyped, hended, hdirectives, hsize⟩ := htokens
  let _ := Layout.line ((modifiedTokens.skip 10).skip 3)
  have hleads : Heads arrayOfA.write (modifiedTokens.skip 10) :=
    ⟨_, htyped.imp fun _ _ hshows => ⟨hshows.kind, hshows.text, fun _ => hshows.sameLine⟩,
      congrArg (fun pending => { modifiedTokens with pending }) (List.take_append_drop _ _).symm⟩
  have htype := (Parser.readsTypes ⟨0⟩ 10 9).type arrayOfA [] (by decide)
    ((Spread.of_fills hended).endsAt_behind (.inl rfl))
  rw [List.append_nil] at htype
  obtain ⟨type, lastRead, rest, hrun, hrest, hblank⟩ := htype _ hleads
  rw [Heads.nil_iff.mp hrest] at hrun
  exact ⟨type, hblank, parseTokens_property (.ofText "C") [.readonly, .static, .declare]
    abstractKey true type modifiedTokens _ _ lastRead ⟨0⟩ ⟨10, 100⟩ 9 (by decide) (.of_take 10 hhead)
    rfl hrun hended hdirectives hsize⟩

end DeclFile

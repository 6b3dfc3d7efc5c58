import DeclFile.Proofs.Quiet.File
import DeclFile.Proofs.Quiet.MemberList
import DeclFile.Proofs.Seam
import DeclFile.Proofs.TypeRoundTrip

/-! # Members of interfaces are read as they are written

An interface is read back up to spans, with nothing reported, whatever its members are called and
whatever ends each of them: a semicolon, a comma, or nothing but a line break.
-/

namespace DeclFile

theorem length_placeLine (line : Option Bool) (symbols : List Symbol) :
    (placeLine line symbols).length = symbols.length := by
  cases symbols <;> simp [placeLine]

theorem length_le_placeMembers {member : EndedMember} {members : List EndedMember}
    (h : member ∈ members) (line : Option Bool) :
    member.tree.write.length ≤ (placeMembers line members).length := by
  induction members generalizing line with
  | nil => exact absurd h List.not_mem_nil
  | cons first more ih =>
      simp only [placeMembers, List.length_append, length_placeLine]
      rcases List.mem_cons.mp h with rfl | hmore
      · omega
      · have hlength := ih hmore first.ending.breaks
        omega

/-- An interface whose members are on one line each, and end in one of the ways there are, is read
back up to spans, with nothing reported, if there are as many levels of nesting as tokens. -/
theorem parseTokens_interface (name : BindingWord) (members : List EndedMember) (tokens : TokenStream)
    (source : SourceId) (limits : Limits) (hwritten : tokens.Fills (interfacePlaces name members))
    (hdirectives : tokens.directives = []) (hsize : tokens.size ≤ limits.maxTokens)
    (hdepth : tokens.pending.length ≤ limits.maxDepth) :
    (parseTokens tokens source limits).module.statements.map Statement.blank =
        [⟨.interface ⟨name.ident, [], [], members.map fun member => member.tree.member⟩, default⟩] ∧
      (parseTokens tokens source limits).diagnostics = [] := by
  have hplaces : tokens.pending.length = (placeMembers none members).length + 4 := by
    have hlength := hwritten.length_eq
    simp only [interfacePlaces, placeFreely, List.length_append, List.length_map, List.length_cons,
      List.length_nil] at hlength
    omega
  -- One level is for the body; the others suffice, for no type is longer than the members are.
  obtain ⟨levels, hlevels⟩ : ∃ levels, limits.maxDepth = levels + 1 := ⟨limits.maxDepth - 1, by omega⟩
  have hmembers (behind : TokenStream) : (Parser.nested .members).Gives
      ((grammar limits.maxDepth).reach source limits.maxDepth)
      (Spread behind (placeMembers none members ++ placeFreely [.mark .closeBrace]))
      (Spread behind (placeFreely [.mark .closeBrace]))
      fun found : List Member => found.map Member.blank = members.map fun member => member.tree.member := by
    rw [hlevels]
    refine .nested <| Parser.Gives.members (Parser.readsTypes _ _ levels) members
      fun member hmember => ?_
    have hlength := length_le_placeMembers hmember none
    omega
  have hstatement : (Parser.statement false).Gives
      ((grammar limits.maxDepth).reach source limits.maxDepth)
      (Spread tokens.finished (interfacePlaces name members)) (Spread tokens.finished [])
      fun statement => statement.blank = ⟨.interface ⟨name.ident, [], [],
        members.map fun member => member.tree.member⟩, default⟩ := by
    refine .of_freely fun body hbody => ?_
    let _ := Layout.lines body
    refine .statement_interface (.interfaceDecl name ((hmembers tokens.finished).weaken fun stream hstream => ?_))
    rwa [Heads.nil_iff.mp hstream]
  exact parseTokens_placed source hdirectives hsize (.of_fills hwritten) rfl
    ⟨Kind.noConfusion, Kind.noConfusion⟩ hstatement

theorem a_ne_intrinsic : "A" ≠ "intrinsic" := by decide

theorem spelling_string : Keyword.spelling .string = Primitive.spelling .string := rfl

/-- Members whose first tokens could belong to the types in front of them. -/
def unbroken : List EndedMember :=
  let whole (tree : TypeTree .suffixed) : TypeTree .full :=
    .ofUnion (.ofIntersection (.ofOperator (.ofSuffixed tree)))
  let a : TypeTree .suffixed := .ofPrimary (.name ⟨"A", [], fun _ => a_ne_intrinsic⟩)
  let word (keyword : Keyword) : KeyTree := .word (.ofKeyword keyword)
  let param : ParamTree := ⟨false, .ofText "x", true, whole a⟩
  [⟨.property true (word .get) false (whole (.array a)), .lineBreak⟩,
    ⟨.index false (.ofText "k") (whole (.ofPrimary (.keyword .string .string spelling_string))) (whole a),
      .lineBreak⟩,
    ⟨.method (word .is) true ⟨[param], whole a⟩ fun _ => Eq.refl true, .lineBreak⟩,
    ⟨.property false (word .extends) false (.function [param] (whole a)), .lineBreak⟩,
    ⟨.call ⟨[], whole a⟩, .comma⟩,
    ⟨.property false (.computed (.name (.ofText "A") [.ofKeyword .set])) true (whole a), .semicolon⟩,
    ⟨.method (word .new) true ⟨[], whole a⟩ fun _ => Eq.refl true, .lineBreak⟩,
    ⟨.setter (word .readonly) param, .lineBreak⟩,
    ⟨.construct ⟨[param], whole a⟩, .lineBreak⟩]

/-- The tokens of an interface with them, as they are lexed. -/
def unbrokenTokens : TokenStream :=
  .ofTokens (lex "interface I {
    readonly get: A[]
    [k: string]: A
    is?(x?: A): A
    extends: (x?: A) => A
    (): A, [A.set]?: A; new?(): A
    set readonly(x?: A)
    new (x?: A): A
  }" ⟨0⟩).tokens

set_option maxRecDepth 4000 in
theorem parseTokens_interface_unbroken :
    unbrokenTokens.Fills (interfacePlaces (.ofText "I") unbroken) ∧
      (parseTokens unbrokenTokens ⟨0⟩ ⟨100, 100⟩).module.statements.map Statement.blank =
        [⟨.interface ⟨⟨"I", default⟩, [], [], unbroken.map fun member => member.tree.member⟩, default⟩] ∧
      (parseTokens unbrokenTokens ⟨0⟩ ⟨100, 100⟩).diagnostics = [] := by
  have htokens : unbrokenTokens.Fills (interfacePlaces (.ofText "I") unbroken) ∧
      unbrokenTokens.directives = [] ∧ unbrokenTokens.size ≤ 100 ∧
      unbrokenTokens.pending.length ≤ 100 := by
    -- The characters are taken from the literal at once: walking through its bytes is far slower.
    have hlex : unbrokenTokens = .ofTokens (lexFrom ⟨0⟩ 0 .initial _).tokens :=
      congrArg (fun lexed : Lexed => TokenStream.ofTokens lexed.tokens) (lex_ofList _ ⟨0⟩)
    rw [hlex]
    decide +kernel
  obtain ⟨hwritten, hdirectives, hsize, hdepth⟩ := htokens
  exact ⟨hwritten, parseTokens_interface (.ofText "I") unbroken unbrokenTokens ⟨0⟩ ⟨100, 100⟩
    hwritten hdirectives hsize hdepth⟩

end DeclFile

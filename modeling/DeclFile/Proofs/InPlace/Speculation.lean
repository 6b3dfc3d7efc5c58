import DeclFile.Proofs.Evaluation
import DeclFile.Proofs.InPlace.Agreement

/-! # Attempts leave no trace

Goals are reached in place as they are run, and so reading in place comes to what running comes to,
although its snapshots hold neither the levels nor the bound. Whatever parser is run in place, both
are afterwards what they were before, and what was reported before stays. So going back to a
snapshot brings back the whole reader.
-/

namespace DeclFile

variable {σ α : Type} {limit : Nat} [TokenSource σ]

theorem Parser.runWith_optional (parser : Parser α) (reach : Reach σ) (source : σ) :
    parser.optional.runWith reach source = (parser.runWith reach source).withResult?
      (some (parser.runWith reach source).result?) := by
  change (parser.settle.runWith reach source).andThen _ = _
  cases hresult : (parser.runWith reach source).result? <;>
    simp [runWith, Outcome.andThen, Outcome.settled, hresult, Outcome.followedBy,
      Outcome.withResult?, Outcome.ofResult, Pure.pure]

namespace Action

variable {reach : Reach σ} {depth : Nat} {inBound : Bool}

namespace Agrees

theorem caught {action : Action σ limit α} {parser : Parser α}
    (h : Agrees reach depth inBound action parser) :
    Agrees reach depth inBound (Action.caught action) parser.optional := by
  intro reader hfile hdepth hinBound
  rw [Parser.runWith_optional]
  exact (h reader hfile hdepth hinBound).caught

theorem underBound {action : Action σ limit α} {parser : Parser α} (inner : Bool)
    (h : Agrees reach depth inner action parser) :
    Agrees reach depth inBound (Action.underBound inner action) parser :=
  fun reader hfile hdepth _ => (h { reader with inBound := inner } hfile hdepth rfl).underBound

end Agrees

/-! ## Goals in place -/

section

variable [reach.Consuming] {call : (goal : Goal) → Action σ limit goal.Result}
  (hcall : ∀ inBound (goal : Goal), goal.Keeps inBound →
    Agrees reach depth inBound (call goal) (.nested goal))

include hcall

theorem bound_agrees :
    Agrees reach depth inBound (underBound true ((Parser.unionType true).perform call))
      (Parser.unionType true) :=
  (Agrees.perform (hcall true) (Parser.unionType_keeps true)).underBound true

theorem conditionalRest_agrees :
    Agrees reach depth inBound (conditionalRest call) Parser.conditionalRest :=
  .bind (Agrees.perform (hcall inBound) Parser.Keeps.advance) fun _ =>
  .bind (bound_agrees hcall) fun _ =>
  .bind (Agrees.perform (hcall inBound) Parser.Keeps.expect) fun _ =>
  .bind (hcall inBound .type trivial) fun _ =>
  .bind (Agrees.perform (hcall inBound) Parser.Keeps.expect) fun _ =>
  .bind (hcall inBound .type trivial) fun _ => .pure _

theorem conditionalType_agrees :
    Agrees reach depth false (conditionalType call) Parser.conditionalType := by
  refine .bind (.withSpan ?_ none fun _ => .first (Parser.unionType_consumes false))
    fun ((check, rest?), span) => ?_
  · refine .bind (.perform (hcall false) (Parser.unionType_keeps false)) fun check => ?_
    refine .bind (.perform (hcall false) Parser.Keeps.peek) fun next => ?_
    split
    · exact .bind (conditionalRest_agrees hcall).caught fun _ => .pure _
    · exact .pure _
  · cases rest? <;> exact .pure _

end

end Action

/-! ## The constraint of an inferred type -/

omit [TokenSource σ] in
theorem Outcome.andThen_assoc {α β γ : Type} (first : Outcome σ α) (next : α → σ → Outcome σ β)
    (last : β → σ → Outcome σ γ) :
    (first.andThen next).andThen last = first.andThen fun result rest =>
      (next result rest).andThen last := by
  unfold andThen
  cases first.result? with
  | none => rfl
  | some result =>
      cases hsecond : (next result first.rest).result? <;>
        simp [followedBy, withResult?, hsecond, Option.or_assoc]

/-- Whether the constraint of an inferred type is kept, by what reading it came to. -/
def keepsConstraint (inBound : Bool) (outcome : Outcome σ Ty) : Bool :=
  outcome.result?.isSome && outcome.reported.isEmpty &&
    (inBound || (TokenSource.ahead outcome.rest 0).kind ≠ .mark .question)

namespace Parser

variable (inBound : Bool) (reach : Reach σ) (source : σ)

theorem runWith_peekKind_bind {β : Type} (next : Kind → Parser β) :
    (peekKind >>= next).runWith reach source =
      (next (TokenSource.ahead source 0).kind).runWith reach source :=
  Outcome.ofResult_followedBy (TokenSource.ahead source 0).kind source _

/-- The type that may be the constraint of an inferred one, after its keyword. -/
def constraintType : Parser Ty := do
  let _ ← advance
  unionType true

theorem runWith_inferConstraint :
    (inferConstraint inBound).runWith reach source =
      if keepsConstraint inBound (constraintType.runWith reach source) then
        (constraintType.runWith reach source).withResult?
          (some (constraintType.runWith reach source).result?)
      else .ofResult none source := by
  -- The type and what is checked behind it, one after the other, instead of nested binds.
  let check (type : Ty) : Parser Ty := peekKind >>= fun next =>
    if !inBound && next = .mark .question then fail else pure type
  have hinner : (inferConstraint inBound).runWith reach source =
      ((constraintType.runWith reach source).andThen fun type rest =>
        (check type).runWith reach rest).attempted source :=
    congrArg (Outcome.attempted · source) (Outcome.andThen_assoc _ _ _).symm
  rw [hinner]
  generalize constraintType.runWith reach source = outcome
  obtain ⟨_ | type, reported, lastRead, rest⟩ := outcome
  · rfl
  · have hcheck : (check type).runWith reach rest =
        if inBound || (TokenSource.ahead rest 0).kind ≠ .mark .question then .ofResult type rest
        else .failure rest := by
      rw [runWith_peekKind_bind]
      cases inBound <;> by_cases hkind : (TokenSource.ahead rest 0).kind = .mark .question <;>
        simp [hkind, runWith]
    simp only [Outcome.andThen, hcheck, keepsConstraint]
    split <;> cases reported <;>
      simp_all [Outcome.followedBy, Outcome.attempted, Outcome.ofResult, Outcome.failure,
        Outcome.withResult?]

end Parser

namespace Action

variable {reach : Reach σ} [reach.Consuming]
  {call : (goal : Goal) → Action σ limit goal.Result} {reader : Reader σ limit}

theorem inferConstraint_comesTo {refused : Action σ limit (Option Ty)}
    (hfile : reader.file = reach.file) (h : reader.depth < limit)
    (hcall : ∀ inBound (goal : Goal), goal.Keeps inBound →
      Agrees reach (reader.depth + 1) inBound (call goal) (.nested goal)) :
    (inferConstraint call refused).ComesTo reader
      ((Parser.inferConstraint reader.inBound).runWith reach reader.source) := by
  have hread : Agrees reach (reader.depth + 1) reader.inBound
      (do let _ ← advance; underBound true ((Parser.unionType true).perform call))
      Parser.constraintType :=
    .bind (Agrees.perform (hcall _) Parser.Keeps.advance) fun _ => bound_agrees hcall
  obtain ⟨after, heq, hbecomes⟩ := ComesTo.leaving (hread (reader.deeper h) hfile rfl rfl)
  rw [Reader.source_deeper] at heq hbecomes
  have happly := inferConstraint_apply refused h heq hbecomes.frames
  rw [hbecomes.isQuiet_eq, hbecomes.source, hbecomes.inBound] at happly
  rw [Parser.runWith_inferConstraint]
  generalize Parser.constraintType.runWith reach reader.source = outcome at happly hbecomes
  change _ = if keepsConstraint reader.inBound outcome then _ else _ at happly
  split at happly
  next hkeep =>
    rw [if_pos hkeep]
    exact ⟨after, happly, hbecomes.withResult? _⟩
  next hgive =>
    rw [if_neg hgive]
    exact ⟨reader, happly, .ofResult none reader⟩

omit [reach.Consuming] in
/-- Where nothing nests, the way in which goals are reached does not matter. -/
theorem expectOrReport_agrees {depth : Nat} {inBound : Bool} (kind : Kind) :
    Agrees reach depth inBound ((Parser.expectOrReport kind).perform call)
      (Parser.expectOrReport kind) := by
  refine .bind (.bind (.settle (.bind (.bind (.look 0) fun _ => .pure _) fun found => ?_)) ?_)
    fun _ => .pure _
  · dsimp only
    split
    · exact .advance
    · exact .bind (.look 0) fun _ => .bind (.report _) fun _ => .fail
  · rintro (_ | _) <;> exact .pure _

/-- Where a level is left, goals are reached in place as they are run. -/
theorem procedure_comesTo (hfile : reader.file = reach.file) (h : reader.depth < limit)
    (hcall : ∀ inBound (goal : Goal), goal.Keeps inBound →
      Agrees reach (reader.depth + 1) inBound (call goal) (.nested goal)) (goal : Goal)
    (hgoal : goal.Keeps reader.inBound) :
    (procedure call goal).ComesTo reader ((Parser.rule goal).runWith reach reader.source) := by
  have hlevel {α : Type} {refused inner : Action σ limit α} {parser : Parser α}
      (hinner : Agrees reach (reader.depth + 1) reader.inBound inner parser) :
      (oneLevelDown refused inner).ComesTo reader (parser.runWith reach reader.source) := by
    obtain ⟨after, heq, hbecomes⟩ := ComesTo.leaving (hinner (reader.deeper h) hfile rfl rfl)
    refine ⟨after, ?_, hbecomes⟩
    simp only [oneLevelDown, bind_apply, andThen, enter, h, dite_true, ite_true, heq,
      Reader.source_deeper]
  have hperform {α : Type} {parser : Parser α} (hkeeps : parser.Keeps reader.inBound) :
      Agrees reach (reader.depth + 1) reader.inBound (parser.perform call) parser :=
    .perform (hcall _) hkeeps
  cases goal with
  | type => exact hlevel ((conditionalType_agrees hcall).underBound false)
  | operand inBound =>
      obtain rfl := hgoal
      refine hlevel fun after hafter hdepth hinBound => ?_
      change ((Parser.operatorType after.inBound).perform call).ComesTo after _
      rw [hinBound]
      exact hperform (Parser.operatorType_keeps _) after hafter hdepth hinBound
  | constraint inBound =>
      obtain rfl := hgoal
      exact inferConstraint_comesTo hfile h hcall
  | members => exact hlevel (hperform Parser.members_keeps)
  | classMembers => exact hlevel (hperform Parser.classMembers_keeps)
  | block =>
      -- Only the statements are read one level deeper; the brace is read after it was left.
      have hfound := ComesTo.leaving <|
        hperform (Parser.statements_keeps true (.mark .closeBrace)) (reader.deeper h) hfile rfl rfl
      have hrest (found : List Statement) : Agrees reach reader.depth reader.inBound
          (do (Parser.expectOrReport (.mark .closeBrace)).perform call; return found)
          (do Parser.expectOrReport (.mark .closeBrace); return found) :=
        .bind (expectOrReport_agrees _) fun _ => .pure found
      let whole : Action σ limit (List Statement) := fun _ =>
        leaving ((Parser.statements true (.mark .closeBrace)).perform call) (reader.deeper h)
      have hwhole : whole.ComesTo reader
          ((Parser.statements true (.mark .closeBrace)).runWith reach reader.source) := hfound
      obtain ⟨after, heq, hbecomes⟩ := hwhole.bind fun found after _ hafter =>
        hafter.source ▸ hrest found after (hafter.file.trans hfile) hafter.depth hafter.inBound
      refine ⟨after, ?_, hbecomes⟩
      simp only [procedure, bind_apply, andThen, enter, h, dite_true, ite_true]
      exact heq

/-- Where no level is left, a goal is refused. -/
theorem procedure_of_le (h : limit ≤ reader.depth) (goal : Goal) :
    procedure call goal reader = ((Parser.refusal limit goal).perform call) reader := by
  cases goal <;>
    simp [procedure, procedure.refused, oneLevelDown, inferConstraint, bind_apply, andThen, enter,
      Nat.not_lt.mpr h]

/-- Goals are reached in place as they are run, with the levels that are left. -/
theorem reach_agrees (file : SourceId) (levels : Nat) {depth : Nat} (h : limit - depth = levels)
    (inBound : Bool) (goal : Goal) (hgoal : goal.Keeps inBound) :
    Agrees ((grammar limit).reach file levels) depth inBound
      (Action.reach levels goal : Action σ limit goal.Result) (.nested goal) := by
  induction levels generalizing depth inBound goal with
  | zero =>
      rintro reader hfile rfl rfl
      have hfailure (goal : Goal) (_ : goal.Keeps reader.inBound) :
          Agrees ⟨file, fun _ source => .failure source⟩ reader.depth reader.inBound
            (fail : Action σ limit goal.Result) (.nested goal) :=
        fun reader _ _ _ => .fail reader
      have hcomes := Agrees.perform hfailure (Parser.refusal_keeps limit goal) reader hfile rfl rfl
      rw [ComesTo, ← procedure_of_le (by omega) goal] at hcomes
      exact hcomes
  | succ levels ih =>
      rintro reader hfile rfl rfl
      have hinner : reader.file = ((grammar limit).reach (σ := σ) file levels).file := by
        rw [Grammar.file_reach]
        exact hfile
      exact procedure_comesTo hinner (by omega)
        (fun inBound goal => ih (by omega) inBound goal) goal hgoal

end Action

/-! ## Parsers in place -/

theorem Parser.inPlace_comesTo {parser : Parser α} (reader : Reader σ limit)
    (hparser : parser.Keeps reader.inBound) :
    parser.inPlace.ComesTo reader (parser.runWith
      ((grammar limit).reach reader.file (limit - reader.depth)) reader.source) :=
  Action.Agrees.perform (Action.reach_agrees reader.file _ rfl reader.inBound) hparser reader
    (Grammar.file_reach _ _ _).symm rfl rfl

/-- Reading tokens in place is reading them. -/
theorem parseInPlace_eq (tokens : σ) (source : SourceId) (limits : Limits) :
    parseInPlace tokens source limits = some (parseTokens tokens source limits) := by
  unfold parseInPlace parseTokens
  cases excessTokens? tokens limits with
  | some count => rfl
  | none =>
      obtain ⟨after, heq, hbecomes⟩ := Parser.inPlace_comesTo
        { (Reader.outset tokens source : Reader σ limits.maxDepth) with
          diagnostics := ((TokenSource.directives tokens).map Reference.ofDirective).flatMap Prod.snd }
        (Parser.statements_keeps false .endOfText)
      obtain ⟨-, hsource, hdiagnostics, -⟩ := hbecomes
      simp only [Reader.outset, Nat.sub_zero] at heq hsource hdiagnostics
      simp only [Reader.outset, heq, Option.bind_eq_bind, Option.bind_some, Grammar.run, hsource,
        hdiagnostics]
      rfl

/-- On a reader, trying the parser has the effects of a success without a diagnostic, and
without such a success none at all. -/
def Parser.TriesInPlace (parser : Parser α) (reader : Reader σ limit) : Prop :=
  (∃ found after, parser.inPlace reader = some (some found, after) ∧
    after.diagnostics = reader.diagnostics ∧
    parser.attempt.inPlace reader = some (some (some found), after)) ∨
  parser.attempt.inPlace reader = some (some none, reader) ∧
    ∀ found after, parser.inPlace reader = some (some found, after) →
      after.diagnostics ≠ reader.diagnostics

theorem Parser.tries_inPlace (parser : Parser α) (reader : Reader σ limit) :
    parser.TriesInPlace reader := by
  obtain ⟨result?, after, heq, hframes⟩ := parser.inPlace_framed reader
  have happly := Action.attempt_apply heq hframes
  change parser.attempt.inPlace reader = _ at happly
  split at happly
  next hquiet =>
    obtain ⟨hresult, hlength⟩ := Bool.and_eq_true_iff.mp hquiet
    obtain ⟨found, rfl⟩ := Option.isSome_iff_exists.mp hresult
    exact .inl ⟨found, after, heq, hframes.length_eq_iff.mp (beq_iff_eq.mp hlength), happly⟩
  next hloud =>
    refine .inr ⟨happly, fun found other hother hsame => hloud ?_⟩
    obtain ⟨rfl, rfl⟩ := Prod.mk.inj (Option.some.inj (heq.symm.trans hother))
    simp [hsame]

/-- The constraint of an inferred type is read without a diagnostic, or nothing is. -/
theorem constraint_inPlace (inBound : Bool) (reader : Reader σ limit)
    (h : reader.depth < limit) :
    (∃ type after, (Parser.nested (.constraint inBound)).inPlace reader =
        some (some (some type), after) ∧ after.diagnostics = reader.diagnostics) ∨
      (Parser.nested (.constraint inBound)).inPlace reader = some (some none, reader) := by
  obtain ⟨levels, hlevels⟩ := Nat.exists_eq_succ_of_ne_zero (Nat.sub_ne_zero_of_lt h)
  -- Whether it stands in a bound is asked of the reader, whatever the goal says.
  have hsame : (Parser.nested (.constraint inBound)).inPlace reader =
      (Parser.nested (.constraint reader.inBound)).inPlace reader := by
    change Action.reach (limit - reader.depth) (.constraint inBound) reader =
      Action.reach (limit - reader.depth) (.constraint reader.inBound) reader
    rw [hlevels]
    rfl
  rw [hsame]
  have hcomes := Parser.inPlace_comesTo reader Parser.Keeps.constraint
  rw [hlevels] at hcomes
  change Action.ComesTo _ reader ((Parser.inferConstraint reader.inBound).runWith
    ((grammar limit).reach reader.file levels) reader.source) at hcomes
  rw [Parser.runWith_inferConstraint] at hcomes
  split at hcomes
  next hkeep =>
    obtain ⟨after, heq, hbecomes⟩ := hcomes
    simp only [keepsConstraint, Bool.and_eq_true] at hkeep
    obtain ⟨type, htype⟩ := Option.isSome_iff_exists.mp hkeep.1.1
    refine .inl ⟨type, after, by simpa [Outcome.withResult?, htype] using heq, ?_⟩
    simpa [Outcome.withResult?, List.isEmpty_iff.mp hkeep.1.2] using hbecomes.diagnostics
  next =>
    obtain ⟨after, heq, hbecomes⟩ := hcomes
    exact .inr (hbecomes.eq_of_ofResult ▸ heq)

/-- An attempt that is given up leaves no trace. Every parser leaves the levels and the bound of
every reader as they were and its diagnostics in front, without ever leaving a level that was
not entered, so that going back brings back the whole reader. Reading in place is reading. -/
theorem speculation_leaves_no_trace (tokens : σ) (source : SourceId) (limits : Limits) :
    parseInPlace tokens source limits = some (parseTokens tokens source limits) ∧
    ∀ reader : Reader σ limits.maxDepth,
      (∀ {α : Type} (parser : Parser α),
        (∃ result? after, parser.inPlace reader = some (result?, after) ∧ reader.Frames after) ∧
        parser.TriesInPlace reader) ∧
      ∀ inBound, limits.maxDepth ≤ reader.depth ∨
        (∃ type after, (Parser.nested (.constraint inBound)).inPlace reader =
          some (some (some type), after) ∧ after.diagnostics = reader.diagnostics) ∨
        (Parser.nested (.constraint inBound)).inPlace reader = some (some none, reader) := by
  refine ⟨parseInPlace_eq tokens source limits, fun reader => ⟨fun parser => ?_, fun inBound => ?_⟩⟩
  · exact ⟨parser.inPlace_framed reader, parser.tries_inPlace reader⟩
  · exact (Nat.lt_or_ge reader.depth limits.maxDepth).symm.imp_right
      (constraint_inPlace inBound reader)

end DeclFile

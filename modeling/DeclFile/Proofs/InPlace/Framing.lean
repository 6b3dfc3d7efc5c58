import DeclFile.Proofs.InPlace.Reader

/-! # What reading in place leaves alone

Whatever is read in place, the file, the levels and the bound are afterwards what they were before,
and what was reported before stays. A snapshot holds neither the levels nor the bound, and yet going
back to it brings back the whole reader. There is one rule for each way of building actions, and
from them it follows for every parser, however goals are reached.
-/

namespace DeclFile

variable {σ α β : Type} {limit : Nat}

/-- The file, the levels and the bound are the same afterwards, and no earlier diagnostic is
lost. -/
structure Reader.Frames (before after : Reader σ limit) : Prop where
  file : after.file = before.file
  depth : after.depth = before.depth
  inBound : after.inBound = before.inBound
  diagnostics : before.diagnostics <+: after.diagnostics

namespace Reader.Frames

variable {before middle after : Reader σ limit}

theorem refl (reader : Reader σ limit) : reader.Frames reader :=
  ⟨rfl, rfl, rfl, List.prefix_rfl⟩

theorem trans (h : before.Frames middle) (h' : middle.Frames after) : before.Frames after :=
  ⟨h'.file.trans h.file, h'.depth.trans h.depth, h'.inBound.trans h.inBound,
    h.diagnostics.trans h'.diagnostics⟩

/-- Going back to a snapshot undoes what was done since. -/
theorem restore_eq (h : before.Frames after) : after.restore before.snapshot = before := by
  obtain ⟨hfile, hdepth, hinBound, more, hmore⟩ := h
  have hbefore := hmore.symm
  clear hmore
  cases before
  cases after
  simp_all [Reader.restore, Reader.snapshot]

/-- Nothing was reported if and only if there are as many diagnostics as before. -/
theorem length_eq_iff (h : before.Frames after) :
    after.diagnostics.length = before.diagnostics.length ↔ after.diagnostics = before.diagnostics :=
  ⟨fun hlength => (h.diagnostics.eq_of_length hlength.symm).symm, congrArg List.length⟩

end Reader.Frames

/-- The action comes to an end with every reader, and leaves the file, the levels, the bound and
what was reported before as they were. -/
def Action.Framed (action : Action σ limit α) : Prop :=
  ∀ reader, ∃ result? after, action reader = some (result?, after) ∧ reader.Frames after

namespace Action

variable {reader : Reader σ limit}

theorem bind_apply (first : Action σ limit α) (next : α → Action σ limit β)
    (reader : Reader σ limit) : (first >>= next) reader = first.andThen next reader :=
  rfl

theorem pure_apply (result : α) (reader : Reader σ limit) :
    (pure result : Action σ limit α) reader = some (some result, reader) :=
  rfl

/-- Trying keeps what succeeded without a diagnostic and otherwise leaves the reader alone. -/
theorem attempt_apply {action : Action σ limit α} {result? : Option α} {after : Reader σ limit}
    (heq : action reader = some (result?, after)) (hframes : reader.Frames after) :
    attempt action reader =
      if result?.isSome && after.diagnostics.length == reader.diagnostics.length then
        some (some result?, after)
      else some (some none, reader) := by
  change _ = if result?.isSome && after.diagnostics.length == reader.snapshot.diagnostics then _
    else _
  simp only [attempt, caught, ask, quietSince, bind_apply, andThen, heq, Option.map_some]
  split
  · rfl
  · change some (some none, after.restore reader.snapshot) = _
    rw [hframes.restore_eq]

/-- Leaving a level gives back the one before, however what was done there ended. -/
theorem leaving_apply {action : Action σ limit α} {h : reader.depth < limit} {result? : Option α}
    {below : Reader σ limit} (heq : action (reader.deeper h) = some (result?, below))
    (hdepth : below.depth = reader.depth + 1) :
    leaving action (reader.deeper h) = some (result?, { below with
      depth := reader.depth, depth_le := reader.depth_le }) := by
  obtain ⟨file, source, diagnostics, last, consumed, depth, inBound, hle⟩ := below
  subst hdepth
  cases result? <;>
    simp [leaving, caught, bind_apply, pure_apply, andThen, heq, leave, ofResult?, fail]

/-- What stands in a bound or outside of one is done there, and afterwards that is as before. -/
theorem underBound_apply {action : Action σ limit α} {inBound : Bool} {result? : Option α}
    {after : Reader σ limit} (heq : action { reader with inBound } = some (result?, after)) :
    underBound inBound action reader =
      some (result?, { after with inBound := reader.inBound }) := by
  cases result? <;>
    simp [underBound, caught, ask, change, bind_apply, pure_apply, andThen, heq, ofResult?, fail]

/-- A constraint is kept or given up by how the type inside ended. The level was left before
going back, so that going back leads to the reader at the beginning. -/
theorem inferConstraint_apply [TokenSource σ] {call : (goal : Goal) → Action σ limit goal.Result}
    (refused : Action σ limit (Option Ty)) (h : reader.depth < limit) {type? : Option Ty}
    {after : Reader σ limit}
    (heq : leaving (do let _ ← advance; underBound true ((Parser.unionType true).perform call))
      (reader.deeper h) = some (type?, after)) (hframes : reader.Frames after) :
    inferConstraint call refused reader =
      if type?.isSome && after.diagnostics.length == reader.diagnostics.length &&
          (after.inBound || (TokenSource.ahead after.source 0).kind ≠ .mark .question) then
        some (some type?, after)
      else some (some none, reader) := by
  have hpeek : (Parser.peekKind.perform call) after =
      some (some (TokenSource.ahead after.source 0).kind, after) := rfl
  change _ = if _ && after.diagnostics.length == reader.snapshot.diagnostics && _ then _ else _
  simp only [inferConstraint, enter, h, dite_true, ite_true, bind_apply, andThen, ask, caught,
    heq, Option.map_some, quietSince, hpeek, Reader.snapshot_deeper]
  split
  · rfl
  · change some (some none, after.restore reader.snapshot) = _
    rw [hframes.restore_eq]

namespace Framed

variable {action first : Action σ limit α}

theorem pure (result : α) : (Pure.pure result : Action σ limit α).Framed :=
  fun reader => ⟨some result, reader, rfl, .refl reader⟩

theorem fail : (Action.fail : Action σ limit α).Framed :=
  fun reader => ⟨none, reader, rfl, .refl reader⟩

theorem ask (question : Reader σ limit → α) : (Action.ask question).Framed :=
  fun reader => ⟨_, reader, rfl, .refl reader⟩

theorem change {next : Reader σ limit → Reader σ limit}
    (h : ∀ reader : Reader σ limit, reader.Frames (next reader)) : (Action.change next).Framed :=
  fun reader => ⟨_, next reader, rfl, h reader⟩

theorem bind {next : α → Action σ limit β} (hfirst : first.Framed)
    (hnext : ∀ result, (next result).Framed) : (first >>= next).Framed := by
  intro reader
  obtain ⟨result?, middle, heq, hmiddle⟩ := hfirst reader
  cases result? with
  | none => exact ⟨none, middle, by simp [bind_apply, andThen, heq], hmiddle⟩
  | some result =>
      obtain ⟨result?, after, hafter, hframes⟩ := hnext result middle
      exact ⟨result?, after, by simp [bind_apply, andThen, heq, hafter], hmiddle.trans hframes⟩

/-- Where a level is entered, it must be left again. -/
theorem entered {refused : Action σ limit α}
    (h : ∀ (reader : Reader σ limit) (hdepth : reader.depth < limit),
      ∃ result? after, action (reader.deeper hdepth) = some (result?, after) ∧ reader.Frames after)
    (hrefused : refused.Framed) : (do if ← enter then action else refused).Framed := by
  intro reader
  by_cases hdepth : reader.depth < limit
  · simpa [bind_apply, andThen, enter, hdepth] using h reader hdepth
  · simpa [bind_apply, andThen, enter, hdepth] using hrefused reader

section

variable (h : action.Framed)

include h

theorem caught : (Action.caught action).Framed := by
  intro reader
  obtain ⟨result?, after, heq, hframes⟩ := h reader
  exact ⟨some result?, after, by simp [Action.caught, heq], hframes⟩

/-- What was done one level deeper is left, with the levels that there were. -/
theorem leaving (reader : Reader σ limit) (hdepth : reader.depth < limit) :
    ∃ result? after, Action.leaving action (reader.deeper hdepth) = some (result?, after) ∧
      reader.Frames after := by
  obtain ⟨result?, below, heq, hframes⟩ := h (reader.deeper hdepth)
  exact ⟨result?, _, leaving_apply heq hframes.depth, { hframes with depth := rfl }⟩

theorem oneLevelDown {refused : Action σ limit α} (hrefused : refused.Framed) :
    (Action.oneLevelDown refused action).Framed :=
  .entered h.leaving hrefused

theorem underBound (inBound : Bool) : (Action.underBound inBound action).Framed := by
  intro reader
  obtain ⟨result?, after, heq, hframes⟩ := h { reader with inBound }
  exact ⟨result?, _, underBound_apply heq, { hframes with inBound := rfl }⟩

theorem attempt : (Action.attempt action).Framed := by
  intro reader
  obtain ⟨result?, after, heq, hframes⟩ := h reader
  rw [attempt_apply heq hframes]
  split
  · exact ⟨_, after, rfl, hframes⟩
  · exact ⟨_, reader, rfl, .refl reader⟩

theorem settle : (Action.settle action).Framed := by
  refine .bind (.ask _) fun before => .bind h.caught fun result? => ?_
  cases result? with
  | none => exact .bind (.ask _) fun _ => .pure _
  | some result => exact .pure _

end

theorem report (diagnostic : Diagnostic) :
    (Action.report diagnostic : Action σ limit Unit).Framed :=
  .change fun _ => ⟨rfl, rfl, rfl, List.prefix_append _ _⟩

theorem repeatTurns {turn : β → Action σ limit (Step β α)} (h : ∀ state, (turn state).Framed)
    (turns : Nat) (state : β) : (Action.repeatTurns turn turns state).Framed := by
  induction turns generalizing state with
  | zero => exact .fail
  | succ turns ih =>
      refine .bind (h state) fun step => ?_
      cases step with
      | more next => exact ih next
      | done result => exact .pure result

variable [TokenSource σ]

theorem advance : (Action.advance : Action σ limit Token).Framed := by
  refine .bind (.ask _) fun token => .bind (.change fun _ => ⟨rfl, rfl, rfl, List.prefix_rfl⟩)
    fun _ => ?_
  dsimp only
  split
  · exact .bind (.change fun _ => ⟨rfl, rfl, rfl, List.prefix_rfl⟩) fun _ => .pure token
  · exact .pure token

theorem withSpan (h : action.Framed) (start? : Option Pos) :
    (Action.withSpan start? action).Framed :=
  .bind (.ask _) fun _ => .bind h fun _ => .bind (.ask _) fun _ => .pure _

theorem loop {turn : β → Action σ limit (Step β α)} (h : ∀ state, (turn state).Framed) (init : β) :
    (Action.loop init turn).Framed :=
  .bind (.ask _) fun unread => repeatTurns h (unread + 1) init

/-- So does every parser, where goals are reached like this. -/
theorem perform {call : (goal : Goal) → Action σ limit goal.Result}
    (hcall : ∀ goal, (call goal).Framed) (parser : Parser α) : (parser.perform call).Framed := by
  induction parser with
  | pure result => exact .pure result
  | bind _ _ ihfirst ihnext => exact .bind ihfirst ihnext
  | fail => exact .fail
  | look n => exact .ask _
  | advance => exact .advance
  | report diagnostic => exact .report diagnostic
  | withSpan start? _ ih => exact .withSpan ih start?
  | attempt _ ih => exact .attempt ih
  | settle _ ih => exact .settle ih
  | loop init _ ih => exact .loop ih init
  | nested goal => exact hcall goal

/-! ### Goals -/

section

variable {call : (goal : Goal) → Action σ limit goal.Result} (hcall : ∀ goal, (call goal).Framed)

include hcall

theorem conditionalRest : (Action.conditionalRest call).Framed :=
  .bind .advance fun _ => .bind (.underBound (.perform hcall _) true) fun _ =>
  .bind (.perform hcall _) fun _ => .bind (hcall .type) fun _ =>
  .bind (.perform hcall _) fun _ => .bind (hcall .type) fun _ => .pure _

theorem conditionalType : (Action.conditionalType call).Framed := by
  refine .bind (.withSpan ?_ none) fun ((check, rest?), span) => ?_
  · refine .bind (.perform hcall _) fun check => .bind (.perform hcall _) fun next => ?_
    split
    · exact .bind (Framed.conditionalRest hcall).caught fun _ => .pure _
    · exact .pure _
  · cases rest? <;> exact .pure _

theorem inferConstraint {refused : Action σ limit (Option Ty)} (hrefused : refused.Framed) :
    (Action.inferConstraint call refused).Framed := by
  intro reader
  by_cases hdepth : reader.depth < limit
  · have hinner : (do
        let _ ← Action.advance
        Action.underBound true ((Parser.unionType true).perform call)).Framed :=
      .bind .advance fun _ => .underBound (.perform hcall _) true
    obtain ⟨type?, after, heq, hframes⟩ := hinner.leaving reader hdepth
    rw [inferConstraint_apply refused hdepth heq hframes]
    split
    · exact ⟨_, after, rfl, hframes⟩
    · exact ⟨_, reader, rfl, .refl reader⟩
  · simpa [Action.inferConstraint, bind_apply, andThen, enter, hdepth] using hrefused reader

theorem procedure (goal : Goal) : (Action.procedure call goal).Framed := by
  have hrefused (goal : Goal) : (Action.procedure.refused call goal).Framed := .perform hcall _
  cases goal with
  | type => exact .oneLevelDown ((conditionalType hcall).underBound false) (hrefused .type)
  | operand inBound =>
      exact .oneLevelDown (.bind (.ask _) fun _ => .perform hcall _) (hrefused (.operand inBound))
  | constraint inBound => exact inferConstraint hcall (hrefused (.constraint inBound))
  | members => exact .oneLevelDown (.perform hcall _) (hrefused .members)
  | classMembers => exact .oneLevelDown (.perform hcall _) (hrefused .classMembers)
  | block =>
      have hrest (found : List Statement) : (do
          (Parser.expectOrReport (.mark .closeBrace)).perform call
          return found : Action σ limit (List Statement)).Framed :=
        .bind (.perform hcall _) fun _ => .pure found
      refine .entered (fun reader hdepth => ?_) (hrefused .block)
      -- The brace is read after the level was left.
      obtain ⟨found?, middle, heq, hmiddle⟩ :=
        (perform hcall (Parser.statements true (.mark .closeBrace))).leaving reader hdepth
      cases found? with
      | none => exact ⟨none, middle, by simp [bind_apply, andThen, heq], hmiddle⟩
      | some found =>
          obtain ⟨result?, after, hafter, hframes⟩ := hrest found middle
          refine ⟨result?, after, ?_, hmiddle.trans hframes⟩
          simpa [bind_apply, andThen, heq] using hafter

end

theorem reach (levels : Nat) (goal : Goal) :
    (Action.reach levels goal : Action σ limit goal.Result).Framed := by
  induction levels generalizing goal with
  | zero => exact .procedure (fun _ => .fail) goal
  | succ levels ih => exact .procedure ih goal

end Framed

end Action

/-- Whatever parser is run in place, it comes to an end and leaves that alone. -/
theorem Parser.inPlace_framed [TokenSource σ] (parser : Parser α) :
    (parser.inPlace : Action σ limit α).Framed :=
  fun reader => Action.Framed.perform (Action.Framed.reach (limit - reader.depth)) parser reader

end DeclFile

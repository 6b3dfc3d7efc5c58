import DeclFile.Proofs.Nesting

/-! # What the limits change

A construct that is too deep is reported where it is refused. If that happens inside an
attempt, the report is discarded with everything else the attempt did, and the tokens are read
in another way. So it takes both, the diagnostics of a file and the discarded ones, to tell
whether a limit mattered: if neither speak of one, every higher limit gives the same result.
-/

namespace DeclFile

/-- No diagnostic speaks of a limit. -/
def Unhindered (diagnostics : List Diagnostic) : Prop :=
  ∀ diagnostic ∈ diagnostics, diagnostic.kind ≠ .limitExceeded

instance (diagnostics : List Diagnostic) : Decidable (Unhindered diagnostics) :=
  inferInstanceAs (Decidable (∀ diagnostic ∈ diagnostics, diagnostic.kind ≠ .limitExceeded))

@[simp] theorem unhindered_nil : Unhindered [] := nofun

@[simp] theorem unhindered_append (first second : List Diagnostic) :
    Unhindered (first ++ second) ↔ Unhindered first ∧ Unhindered second :=
  List.forall_mem_append

theorem not_unhindered_iff {diagnostics : List Diagnostic} :
    ¬Unhindered diagnostics ↔
      ∃ diagnostic ∈ diagnostics, diagnostic.kind = .limitExceeded := by
  simp [Unhindered]

theorem Unhindered.of_prefix {first whole : List Diagnostic} (h : Unhindered whole)
    (hfirst : first <+: whole) : Unhindered first :=
  fun diagnostic hmem => h diagnostic (hfirst.subset hmem)

/-! ## What attempts discard -/

section

variable {σ α β : Type}

theorem Outcome.reported_prefix_andThen (first : Outcome σ α) (next : α → σ → Outcome σ β) :
    first.reported <+: (first.andThen next).reported := by
  unfold andThen
  split
  · exact List.prefix_append _ _
  · exact List.prefix_rfl

/-- What turns discard, at most `turns` of them. -/
def discardedByTurns (turn : β → σ → Outcome σ (Step β α)) (discarded : β → σ → List Diagnostic) :
    (turns : Nat) → β → σ → List Diagnostic
  | 0, _, _ => []
  | turns + 1, state, source =>
      discarded state source ++
        match (turn state source).result? with
        | some (.more next) => discardedByTurns turn discarded turns next (turn state source).rest
        | _ => []

/-- Turns that come to the same one by one come to the same together. -/
theorem Parser.iterate_eq_of_unhindered {turn turn' : β → σ → Outcome σ (Step β α)}
    {discarded : β → σ → List Diagnostic}
    (hturn : ∀ state source, Unhindered (turn state source).reported →
      Unhindered (discarded state source) → turn' state source = turn state source)
    (turns : Nat) (state : β) (sofar : Outcome σ Unit)
    (hreported : Unhindered (iterate turn turns state sofar).reported)
    (hdiscarded : Unhindered (discardedByTurns turn discarded turns state sofar.rest)) :
    iterate turn' turns state sofar = iterate turn turns state sofar := by
  induction turns generalizing state sofar with
  | zero => rfl
  | succ turns ih =>
      obtain ⟨hnow, hlater⟩ := (unhindered_append _ _).mp hdiscarded
      -- What the first turn reports is kept by all later ones.
      have hsame : turn' state sofar.rest = turn state sofar.rest := by
        refine hturn state sofar.rest ?_ hnow
        rw [iterate] at hreported
        split at hreported
        · have hbefore := hreported.of_prefix (Meets.reported_prefix_iterate turn turns _ _)
          exact ((unhindered_append _ _).mp hbefore).2
        · exact ((unhindered_append _ _).mp hreported).2
        · exact ((unhindered_append _ _).mp hreported).2
      rw [iterate] at hreported
      rw [iterate, iterate, hsame]
      rcases hresult : (turn state sofar.rest).result? with _ | next | result
      · rfl
      · simp only [hresult] at hreported hlater ⊢
        exact ih next _ hreported hlater
      · rfl

variable [TokenSource σ]

/-- The diagnostics that attempts discard while a parser runs, where goals are reached by
`reach` and discard `below`. An attempt keeps none: it is given up if anything was reported. -/
def Parser.discarded (reach : Reach σ) (below : Goal → σ → List Diagnostic) {α : Type} :
    Parser α → σ → List Diagnostic
  | .bind first next, source =>
      discarded reach below first source ++
        match (first.runWith reach source).result? with
        | some result => discarded reach below (next result) (first.runWith reach source).rest
        | none => []
  | .withSpan _ inner, source => discarded reach below inner source
  | .attempt inner, source =>
      discarded reach below inner source ++ (inner.runWith reach source).reported
  | .settle inner, source => discarded reach below inner source
  | .loop init turn, source =>
      discardedByTurns (fun state rest => (turn state).runWith reach rest)
        (fun state rest => discarded reach below (turn state) rest)
        (TokenSource.unread source + 1) init source
  | .nested goal, source => below goal source
  | _, _ => []

/-- The diagnostics that attempts discard while a goal is reached. -/
def Grammar.discarded (grammar : Grammar) (file : SourceId) :
    (levels : Nat) → Goal → σ → List Diagnostic
  | 0, goal =>
      (grammar.refusal goal).discarded ⟨file, fun _ source => .failure source⟩ fun _ _ => []
  | levels + 1, goal =>
      (grammar.rule goal).discarded (grammar.reach file levels) (grammar.discarded file levels)

/-! ## Running without reaching a limit -/

/-- Without a word about limits, a parser runs in the same way wherever goals do. -/
theorem Parser.runWith_eq_of_unhindered {reach reach' : Reach σ}
    {below : Goal → σ → List Diagnostic} (hfile : reach'.file = reach.file)
    (hgoals : ∀ goal source, Unhindered (reach.goal goal source).reported →
      Unhindered (below goal source) → reach'.goal goal source = reach.goal goal source)
    (parser : Parser α) {source : σ} (hreported : Unhindered (parser.runWith reach source).reported)
    (hdiscarded : Unhindered (parser.discarded reach below source)) :
    parser.runWith reach' source = parser.runWith reach source := by
  induction parser generalizing source with
  | pure | fail | look | advance | report => rfl
  | bind first next ihfirst ihnext =>
      simp only [discarded, unhindered_append] at hdiscarded
      have hfirst := hreported.of_prefix (Outcome.reported_prefix_andThen _ _)
      rw [runWith, runWith, ihfirst hfirst hdiscarded.1]
      rw [runWith] at hreported
      unfold Outcome.andThen at hreported ⊢
      cases hresult : (first.runWith reach source).result? with
      | none => rfl
      | some result =>
          simp only [hresult, Outcome.followedBy, unhindered_append] at hreported hdiscarded ⊢
          rw [ihnext result hreported.2 hdiscarded.2]
  | withSpan start? inner ih =>
      rw [runWith, runWith, ih hreported hdiscarded, hfile]
  | settle inner ih =>
      rw [runWith, runWith, ih hreported hdiscarded]
  | attempt inner ih =>
      -- An attempt reports nothing, but what it reported on the way was discarded.
      obtain ⟨hinner, houtcome⟩ := (unhindered_append _ _).mp hdiscarded
      rw [runWith, runWith, ih houtcome hinner]
  | loop init turn ih =>
      exact iterate_eq_of_unhindered (fun state source => ih state) _ init _ hreported hdiscarded
  | nested goal => exact hgoals goal source hreported hdiscarded

/-! ## Reaching goals with more levels -/

/-- A goal that is refused is reported. -/
theorem Parser.not_unhindered_refusal (limit : Nat) (goal : Goal) (reach : Reach σ) (source : σ) :
    ¬Unhindered ((refusal limit goal).runWith reach source).reported := by
  have hreport {α : Type} (rest : Parser α) :
      ¬Unhindered ((reportHere (.tooDeep limit) >>= fun _ => rest).runWith reach source).reported := by
    intro h
    have hfirst : Unhindered ((reportHere (.tooDeep limit)).runWith reach source).reported :=
      h.of_prefix (Outcome.reported_prefix_andThen _ _)
    exact hfirst ((Cause.tooDeep limit).at (TokenSource.ahead source 0).span) (.head _) rfl
  cases goal with
  | type | operand | constraint => exact hreport .fail
  | members | classMembers | block => exact hreport _

theorem reach_eq_of_unhindered {limit limit' levels levels' : Nat} (file : SourceId)
    (hlevels : levels ≤ levels') (goal : Goal) (source : σ)
    (hreported : Unhindered (((grammar limit).reach file levels).goal goal source).reported)
    (hdiscarded : Unhindered ((grammar limit).discarded file levels goal source)) :
    ((grammar limit').reach file levels').goal goal source =
      ((grammar limit).reach file levels).goal goal source := by
  induction levels generalizing levels' goal source with
  -- Only goals that are refused know the limit, and they do not go unreported.
  | zero => exact absurd hreported (Parser.not_unhindered_refusal limit goal _ source)
  | succ levels ih =>
      obtain ⟨levels', rfl⟩ := Nat.exists_eq_succ_of_ne_zero (Nat.ne_zero_of_lt hlevels)
      exact Parser.runWith_eq_of_unhindered (by rw [Grammar.file_reach, Grammar.file_reach])
        (fun goal source => ih (Nat.le_of_succ_le_succ hlevels) goal source)
        (Parser.rule goal) hreported hdiscarded

end

/-! ## Whole files -/

/-- The diagnostics that attempts discard while a file is read. -/
def discardedDiagnostics (text : String) (source : SourceId) (limits : Limits) : List Diagnostic :=
  (Parser.statements false .endOfText).discarded
    ((grammar limits.maxDepth).reach source limits.maxDepth)
    ((grammar limits.maxDepth).discarded source limits.maxDepth) (textStream text source)

section

variable {text : String} {source : SourceId} {limits limits' : Limits}

/-- Where no diagnostic speaks of a limit, not even a discarded one, higher limits give the
same result. -/
theorem parse_eq_of_unhindered (hdepth : limits.maxDepth ≤ limits'.maxDepth)
    (htokens : limits.maxTokens ≤ limits'.maxTokens)
    (hreported : Unhindered (parse text source limits).diagnostics)
    (hdiscarded : Unhindered (discardedDiagnostics text source limits)) :
    parse text source limits' = parse text source limits := by
  rw [parse_eq] at hreported
  rw [parse_eq, parse_eq]
  have hparsed := ((unhindered_append _ _).mp hreported).2
  cases hexcess : excessTokens? (textStream text source) limits with
  | some count =>
      rw [parseTokens_of_excess source hexcess] at hparsed
      exact absurd rfl (hparsed _ (.head _))
  | none =>
      have hfitting : excessTokens? (textStream text source) limits' = none := by
        simp only [excessTokens?, Option.filter_eq_none_iff] at hexcess ⊢
        intro count hcount
        have hle := hexcess count hcount
        simp only [decide_eq_true_eq] at hle ⊢
        omega
      rw [parseTokens_of_fitting source hexcess] at hparsed ⊢
      rw [parseTokens_of_fitting source hfitting]
      have houtcome : fileOutcome limits' (textStream text source) source =
          fileOutcome limits (textStream text source) source :=
        Parser.runWith_eq_of_unhindered (by rw [Grammar.file_reach, Grammar.file_reach])
          (reach_eq_of_unhindered source hdepth) _
          ((unhindered_append _ _).mp hparsed).2 hdiscarded
      rw [houtcome]

/-- Raising the limits does not change a clean parse, unless an attempt was given up in which
a limit was reached. -/
theorem clean_parse_of_raised_limits (hdepth : limits.maxDepth ≤ limits'.maxDepth)
    (htokens : limits.maxTokens ≤ limits'.maxTokens)
    (hclean : (parse text source limits).diagnostics = [])
    (hdiscarded : Unhindered (discardedDiagnostics text source limits)) :
    (parse text source limits').diagnostics = [] ∧
      (parse text source limits').module = (parse text source limits).module := by
  have heq := parse_eq_of_unhindered hdepth htokens (by simp [hclean]) hdiscarded
  exact ⟨heq ▸ hclean, congrArg Parsed.module heq⟩

end

/-- A type in parentheses, for which a function type is tried first and given up. -/
def parenthesized : String := "type T = (A<B<C>>)[];"

theorem clean_parse_of_raised_limits_parenthesized :
    (parse parenthesized ⟨0⟩ ⟨4, 100⟩).diagnostics = [] ∧
    Unhindered (discardedDiagnostics parenthesized ⟨0⟩ ⟨4, 100⟩) ∧
    (parse parenthesized ⟨0⟩ ⟨9, 200⟩).diagnostics = [] ∧
      (parse parenthesized ⟨0⟩ ⟨9, 200⟩).module = (parse parenthesized ⟨0⟩ ⟨4, 100⟩).module :=
  have hclean : (parse parenthesized ⟨0⟩ ⟨4, 100⟩).diagnostics = [] := by decide +kernel
  have hdiscarded : Unhindered (discardedDiagnostics parenthesized ⟨0⟩ ⟨4, 100⟩) := by
    decide +kernel
  ⟨hclean, hdiscarded,
    clean_parse_of_raised_limits (by decide) (by decide) hclean hdiscarded⟩

/-- A method whose result is a predicate that goes on in the next line, or else a type with an
index signature after it. -/
def predicateOrIndex : String := "interface I \x7b\n m(): keyof is\n [a: B<C<D>>]: E\n\x7d"

/-- With four levels the predicate is given up, with five it is not and the text is no longer
understood. -/
theorem clean_parse_changes :
    (parse predicateOrIndex ⟨0⟩ ⟨4, 100⟩).diagnostics = [] ∧
    (parse predicateOrIndex ⟨0⟩ ⟨5, 100⟩).diagnostics ≠ [] := by
  constructor <;> decide +kernel

/-- If more levels of nesting change the result, then the depth limit was reported, or
discarded with an attempt that was given up. -/
theorem depth_limit_shows {text : String} {source : SourceId} {depth depth' maxTokens : Nat}
    (hdepth : depth < depth')
    (hdiffer : parse text source ⟨depth, maxTokens⟩ ≠ parse text source ⟨depth', maxTokens⟩) :
    (∃ diagnostic ∈ (parse text source ⟨depth, maxTokens⟩).diagnostics,
      diagnostic.kind = .limitExceeded) ∨
    ∃ diagnostic ∈ discardedDiagnostics text source ⟨depth, maxTokens⟩,
      diagnostic.kind = .limitExceeded := by
  by_contra hnone
  rw [← not_unhindered_iff, ← not_unhindered_iff, ← not_and_or, not_not] at hnone
  have heq : parse text source ⟨depth', maxTokens⟩ = parse text source ⟨depth, maxTokens⟩ :=
    parse_eq_of_unhindered (Nat.le_of_lt hdepth) (Nat.le_refl _) hnone.1 hnone.2
  exact hdiffer heq.symm

/-- A function type whose result is one, which needs three levels. -/
def curried : String := "type F = (x: A) => (y: B) => C;"

theorem curried_differs : parse curried ⟨0⟩ ⟨2, 100⟩ ≠ parse curried ⟨0⟩ ⟨3, 100⟩ := by
  intro h
  have hdiagnostics := congrArg Parsed.diagnostics h
  revert hdiagnostics
  decide +kernel

theorem depth_limit_shows_discarded :
    (2 < 3 ∧ parse curried ⟨0⟩ ⟨2, 100⟩ ≠ parse curried ⟨0⟩ ⟨3, 100⟩) ∧
    ∃ diagnostic ∈ discardedDiagnostics curried ⟨0⟩ ⟨2, 100⟩, diagnostic.kind = .limitExceeded :=
  ⟨⟨by decide, curried_differs⟩,
    (depth_limit_shows (by decide) curried_differs).resolve_left (by decide +kernel)⟩

/-- With two levels the diagnostics do not say why the text was not understood. -/
theorem depth_limit_hidden :
    (parse curried ⟨0⟩ ⟨3, 100⟩).diagnostics = [] ∧
    parse curried ⟨0⟩ ⟨2, 100⟩ ≠ parse curried ⟨0⟩ ⟨3, 100⟩ ∧
    ∀ diagnostic ∈ (parse curried ⟨0⟩ ⟨2, 100⟩).diagnostics, diagnostic.kind ≠ .limitExceeded :=
  ⟨by decide +kernel, curried_differs, by decide +kernel⟩

end DeclFile

import DeclFile.Proofs.Brackets.Basic

/-! # What results are like

A parser ensures a property of its result if every result it comes to has that property. A
property may only be needed where nothing is reported in a whole run: the proposition `clean`
then stands for such a run, in which no part reports anything either. Nothing is said about
parsers that fail, and nothing about what was read.
-/

namespace DeclFile

/-- The turn goes on with a state that `I` holds of, or ends with a result that `Q` holds of. -/
def Step.Leaves {α β : Type} (I : β → Prop) (Q : α → Prop) : Step β α → Prop
  | .more state => I state
  | .done result => Q result

/-- What was collected so far is kept to go on with, or put in order at the end. -/
theorem Step.leaves_collected {α : Type} {I Q : List α → Prop} {collected : List α}
    (again : Bool) (hmore : I collected) (hdone : I collected → Q collected.reverse) :
    Step.Leaves I Q (if again then .more collected else .done collected.reverse) := by
  cases again with
  | true => exact hmore
  | false => exact hdone hmore

namespace Parser

variable {α β : Type}

/-- If the parser comes to a result there, then `Q` holds of it, where nothing is reported if
the run is to be clean. -/
def Ensures (clean : Prop) (place : Place) (source : TokenStream) (parser : Parser α)
    (Q : α → Prop) : Prop :=
  source.Ends → ∀ {outcome : Outcome TokenStream α} {peak : Nat},
    Evaluates place parser source outcome peak → (clean → outcome.reported = []) →
    ∀ result, outcome.result? = some result → Q result

namespace Ensures

variable {clean : Prop} {place : Place} {source : TokenStream} {P Q : α → Prop} {R : β → Prop}

theorem mono {parser : Parser α} (h : parser.Ensures clean place source P)
    (hQ : ∀ result, P result → Q result) : parser.Ensures clean place source Q := by
  intro hends outcome peak hevaluates hclean result hresult
  exact hQ result (h hends hevaluates hclean result hresult)

theorem and {parser : Parser α} (hP : parser.Ensures clean place source P)
    (hQ : parser.Ensures clean place source Q) :
    parser.Ensures clean place source fun result => P result ∧ Q result := by
  intro hends outcome peak hevaluates hclean result hresult
  constructor
  · exact hP hends hevaluates hclean result hresult
  · exact hQ hends hevaluates hclean result hresult

theorem any {parser : Parser α} : parser.Ensures clean place source fun _ => True := by
  intro _ _ _ _ _ _ _
  trivial

theorem pure {result : α} (h : Q result) :
    (Pure.pure result : Parser α).Ensures clean place source Q := by
  intro _ outcome peak hevaluates _ found hfound
  cases hevaluates
  cases hfound
  exact h

theorem fail : (Parser.fail : Parser α).Ensures clean place source Q := by
  intro _ outcome peak hevaluates _ result hresult
  cases hevaluates
  cases hresult

/-! ### One after another -/

/-- What comes after a part depends on how that part was evaluated. -/
theorem bind_of_evaluates {first : Parser α} {next : α → Parser β}
    (h : ∀ {before : Outcome TokenStream α} {peak : Nat} {result : α}, source.Ends →
      Evaluates place first source before peak → (clean → before.reported = []) →
      before.result? = some result → (next result).Ensures clean place before.rest R) :
    (first >>= next).Ensures clean place source R := by
  intro hends outcome peak hevaluates hclean result hresult
  obtain ⟨before, _, hbefore, hafter⟩ := hevaluates.parts
  split at hafter
  next middle hmiddle =>
    obtain ⟨after, _, hafter, rfl⟩ := hafter
    have hboth : clean → before.reported = [] ∧ after.reported = [] := by
      intro hquiet
      exact List.append_eq_nil_iff.mp (hclean hquiet)
    have hnext := h hends hbefore (fun hquiet => (hboth hquiet).1) hmiddle
    exact hnext (hbefore.ends hends) hafter (fun hquiet => (hboth hquiet).2) result hresult
  next hfailed =>
    subst hafter
    cases hresult

theorem bind {first : Parser α} {next : α → Parser β}
    (hfirst : first.Ensures clean place source Q)
    (hnext : ∀ result rest, Q result → (next result).Ensures clean place rest R) :
    (first >>= next).Ensures clean place source R := by
  apply bind_of_evaluates
  intro before peak result hends hevaluates hclean hresult
  exact hnext result _ (hfirst hends hevaluates hclean result hresult)

/-- Some parts have no influence on what is asked of the result. -/
theorem skip {first : Parser α} {next : α → Parser β}
    (hnext : ∀ result rest, (next result).Ensures clean place rest R) :
    (first >>= next).Ensures clean place source R :=
  bind any fun result rest _ => hnext result rest

theorem map {parser : Parser α} {f : α → β}
    (h : parser.Ensures clean place source fun result => R (f result)) :
    (f <$> parser).Ensures clean place source R :=
  h.bind fun _ _ => pure

/-- What is found out first may be put in its place. -/
theorem observe {first : Parser α} {next : α → Parser β} {result : α}
    (hfirst : Observes first source result)
    (hnext : (next result).Ensures clean place source R) :
    (first >>= next).Ensures clean place source R := by
  apply bind_of_evaluates
  intro before peak found hends hevaluates _ hfound
  obtain rfl := hevaluates.unique (hfirst place)
  cases hfound
  exact hnext

/-- One thing or another may be done before the rest. -/
theorem either {condition : Prop} [Decidable condition] {first second : Parser α}
    {rest : α → Parser β} (hfirst : condition → first.Ensures clean place source Q)
    (hsecond : ¬condition → second.Ensures clean place source Q)
    (hrest : ∀ result source, Q result → (rest result).Ensures clean place source R) :
    (if condition then first >>= fun result => rest result
      else second >>= fun result => rest result).Ensures clean place source R := by
  split
  next h => exact (hfirst h).bind hrest
  next h => exact (hsecond h).bind hrest

/-- Something may be done before the rest that has no influence on it. -/
theorem when {condition : Prop} [Decidable condition] {first : Parser α} {rest : Parser β}
    (hrest : ∀ source, rest.Ensures clean place source R) :
    (if condition then first >>= fun _ => rest else rest).Ensures clean place source R := by
  split
  · exact skip fun _ => hrest
  · exact hrest source

/-! ### Reporting -/

/-- A run with a report is not clean. -/
theorem report {diagnostic : Diagnostic} {Q : Unit → Prop} (h : ¬clean → Q ()) :
    (Parser.report diagnostic).Ensures clean place source Q := by
  intro _ outcome peak hevaluates hclean _ _
  obtain rfl := hevaluates.unique (.report diagnostic source)
  apply h
  intro hquiet
  cases hclean hquiet

theorem reportHere {cause : Cause} {Q : Unit → Prop} (h : ¬clean → Q ()) :
    (Parser.reportHere cause).Ensures clean place source Q :=
  observe .peek (report h)

theorem refuse {cause : Kind → Cause} :
    (Parser.refuse cause : Parser α).Ensures clean place source Q :=
  skip fun _ _ => skip fun _ _ => fail

/-! ### Undoing and going on -/

theorem withSpan {start? : Option Pos} {parser : Parser α}
    (h : parser.Ensures clean place source Q) :
    (Parser.withSpan start? parser).Ensures clean place source fun found => Q found.1 := by
  intro hends whole peak hevaluates hclean found hfound
  obtain ⟨outcome, _, hinner, rfl⟩ := hevaluates.parts
  obtain ⟨result, hresult, rfl⟩ := Option.map_eq_some_iff.mp hfound
  exact h hends hinner hclean result hresult

theorem spanned {parser : Parser α} {make : α → Span → β}
    (h : parser.Ensures clean place source fun result => ∀ span, R (make result span)) :
    (Parser.spanned make parser).Ensures clean place source R :=
  h.withSpan.bind fun found _ hfound => pure (hfound found.2)

/-- Nothing was reported in what is kept of an attempt. -/
theorem attempt {inner : Parser α} (h : inner.Ensures clean place source Q) :
    inner.attempt.Ensures clean place source fun found => ∀ result ∈ found, Q result := by
  intro hends whole peak hevaluates hclean found hfound
  obtain ⟨outcome, _, hinner, rfl⟩ := hevaluates.parts
  obtain ⟨kept, hkept, hreported, heq⟩ | heq := outcome.attempted_cases source
  · rw [heq] at hfound
    cases hfound
    rintro _ ⟨⟩
    exact h hends hinner (fun _ => hreported) kept hkept
  · rw [heq] at hfound
    cases hfound
    exact nofun

theorem settle {inner : Parser α} (h : inner.Ensures clean place source Q) :
    inner.settle.Ensures clean place source fun
      | .done result => Q result
      | .failed _ => True := by
  intro hends whole peak hevaluates hclean found hfound
  obtain ⟨outcome, _, hinner, rfl⟩ := hevaluates.parts
  cases hfound
  cases hresult : outcome.result? with
  | none => simp [Outcome.settled, hresult]
  | some result => simpa [Outcome.settled, hresult] using h hends hinner hclean result hresult

theorem optional {inner : Parser α} (h : inner.Ensures clean place source Q) :
    (Parser.optional inner).Ensures clean place source fun found =>
      ∀ result ∈ found, Q result := by
  refine h.settle.bind fun settled rest hsettled => ?_
  cases settled with
  | done result => exact pure (by simpa using hsettled)
  | failed progress => exact pure (by simp)

/-- In a clean run a part that never fails in silence has a result. -/
theorem optional_of_carries {inner : Parser α} {P M : List Token → Prop}
    (h : inner.Ensures clean place source Q)
    (hloud : inner.Carries place False source P fun _ => M) :
    (Parser.optional inner).Ensures clean place source fun found =>
      (∀ result ∈ found, Q result) ∧ (clean → found ≠ none) := by
  refine h.optional.and ?_
  apply bind_of_evaluates
  intro before peak settled hends hevaluates hclean hsettled
  obtain ⟨outcome, _, hinner, rfl⟩ := hevaluates.parts
  cases hsettled
  cases hresult : outcome.result? with
  | none =>
      simp only [Outcome.settled, hresult]
      refine pure fun hquiet => ?_
      have hfound := hloud hends hinner (hclean hquiet)
      simp [hresult] at hfound
  | some result =>
      simp only [Outcome.settled, hresult]
      exact pure (by simp)

/-! ### Loops -/

/-- The first turn of a loop is taken at a known place, the others anywhere. -/
theorem loop_of_first {turn : β → Parser (Step β α)} {I : β → Prop} {init : β}
    (hfirst : (turn init).Ensures clean place source (Step.Leaves I Q))
    (hturn : ∀ state source, I state →
      (turn state).Ensures clean place source (Step.Leaves I Q)) :
    (Parser.loop init turn).Ensures clean place source Q := by
  intro hends outcome peak hevaluates hclean result hresult
  -- By induction on the evaluation, in which the rest of a loop is a loop from another state.
  generalize hloop : Parser.loop init turn = parser at hevaluates
  induction hevaluates generalizing init with
  | loopMore hevaluates hmore _ _ _ ih =>
      obtain ⟨⟩ := hloop
      have hboth := fun hquiet => List.append_eq_nil_iff.mp (hclean hquiet)
      have hnext := hfirst hends hevaluates (fun hquiet => (hboth hquiet).1) _ hmore
      exact ih (hturn _ _ hnext) hturn (hevaluates.ends hends)
        (fun hquiet => (hboth hquiet).2) _ hresult rfl
  | loopDone hevaluates hdone =>
      obtain ⟨⟩ := hloop
      cases hresult
      exact hfirst hends hevaluates hclean _ hdone
  | loopFailed hevaluates _ => cases hresult
  | _ => cases hloop

theorem loop {turn : β → Parser (Step β α)} {I : β → Prop} {init : β} (hinit : I init)
    (hturn : ∀ state source, I state →
      (turn state).Ensures clean place source (Step.Leaves I Q)) :
    (Parser.loop init turn).Ensures clean place source Q :=
  loop_of_first (hturn init source hinit) hturn

/-- What holds of the result of each turn holds of all that are collected. -/
theorem collect {turn : Parser (Turn α)}
    (hturn : ∀ source, turn.Ensures clean place source fun taken =>
      ∀ result ∈ taken.result?, Q result) :
    (Parser.collect turn).Ensures clean place source fun found => ∀ result ∈ found, Q result := by
  refine loop (I := fun collected => ∀ result ∈ collected, Q result) (by simp)
    fun collected source hcollected => (hturn source).bind fun taken rest htaken => pure ?_
  refine Step.leaves_collected taken.again (fun result hresult => ?_)
    fun hall result hresult => hall result (List.mem_reverse.mp hresult)
  rcases List.mem_append.mp hresult with hnew | hold
  · exact htaken result (Option.mem_toList.mp hnew)
  · exact hcollected result hold

/-- Where the first turn has a result, something is collected. -/
theorem collect_ne_nil {turn : Parser (Turn α)} {condition : Prop}
    (hfirst : turn.Ensures clean place source fun taken => condition → taken.result? ≠ none) :
    (Parser.collect turn).Ensures clean place source fun found => condition → found ≠ [] := by
  have hordered (collected : List α) (h : condition → collected ≠ []) (hcondition : condition) :
      collected.reverse ≠ [] := by simpa using h hcondition
  refine .loop_of_first (I := fun collected => condition → collected ≠ []) ?_
    fun collected source hcollected => .skip fun taken rest => .pure <|
      Step.leaves_collected _ (fun hcondition => by simp [hcollected hcondition]) (hordered _)
  refine hfirst.bind fun taken rest htaken => .pure <|
    Step.leaves_collected _ (fun hcondition => ?_) (hordered _)
  obtain ⟨result, hresult⟩ := Option.ne_none_iff_exists'.mp (htaken hcondition)
  simp [hresult]

theorem elementOrStop {inner : Parser α} (h : inner.Ensures clean place source Q) :
    (Parser.elementOrStop inner).Ensures clean place source fun taken =>
      ∀ result ∈ taken.result?, Q result :=
  h.optional.bind fun _ _ hfound => pure hfound

theorem commaSeparated {close : Kind} {element : Parser (Turn α)}
    (h : ∀ source, element.Ensures clean place source fun taken =>
      ∀ result ∈ taken.result?, Q result) :
    (Parser.commaSeparated close element).Ensures clean place source fun found =>
      ∀ result ∈ found, Q result := by
  refine collect fun source => skip fun next rest => ?_
  split
  · exact pure (by simp)
  · refine (h rest).bind fun taken rest htaken => ?_
    split
    · exact skip fun _ _ => pure htaken
    · exact pure htaken

theorem afterEach {mark : Mark} {element : Parser α}
    (h : ∀ source, element.Ensures clean place source Q) :
    (Parser.afterEach mark element).Ensures clean place source fun found =>
      ∀ result ∈ found, Q result := by
  refine collect fun source => skip fun skipped rest => ?_
  split
  · exact (h rest).elementOrStop
  · exact pure (by simp)

end Ensures

end Parser

end DeclFile

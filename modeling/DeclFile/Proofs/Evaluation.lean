import DeclFile.Parser.Run

/-! # Evaluation without bounds

Running a parser hands out levels of nesting and turns of loops in advance. Evaluation is
the same behaviour said without them: loops take as many turns as they like, and goals are
reached by counting the active levels upwards. Derivations are finite, so having one means
coming to an end. Two demands are part of the rules: a loop goes on only after a turn that
read a token, and a goal is reached only after a token was read since the goal around it was.
-/

namespace DeclFile

open TokenSource (unread)

/-- The grammar in which nothing is done where no level is left. -/
def Grammar.withoutRefusal (grammar : Grammar) : Grammar :=
  { grammar with refusal := fun _ => .fail }

/-- Where in the nesting of goals a parser runs. -/
structure Place where
  grammar : Grammar
  /-- The file that spans are of. -/
  file : SourceId
  /-- How many levels there are. -/
  limit : Nat
  /-- How many of them are active. -/
  depth : Nat
  /-- How many tokens were unread when the goal around was reached. -/
  entry : Nat

namespace Place

/-- The place inside a goal that is reached here. -/
def inside (place : Place) (entry : Nat) : Place :=
  { place with depth := place.depth + 1, entry := entry }

/-- The place at which a goal is refused here. It has no levels to spend. -/
def refusing (place : Place) (entry : Nat) : Place :=
  ⟨place.grammar.withoutRefusal, place.file, place.depth, place.depth, entry⟩

/-- How goals are reached with the levels left here. -/
def reach {σ : Type} [TokenSource σ] (place : Place) : Reach σ :=
  place.grammar.reach place.file (place.limit - place.depth)

variable {σ : Type} [TokenSource σ] {place : Place} {goal : Goal} {source : σ}

@[simp] theorem file_reach : (place.reach : Reach σ).file = place.file :=
  place.grammar.file_reach place.file _

theorem reach_of_lt (h : place.depth < place.limit) (entry : Nat) :
    place.reach.goal goal source =
      (place.grammar.rule goal).runWith (place.inside entry).reach source := by
  have hlevels : place.limit - place.depth = place.limit - (place.depth + 1) + 1 := by omega
  rw [reach, hlevels, Grammar.reach]
  rfl

theorem reach_of_le (h : place.limit ≤ place.depth) (entry : Nat) :
    place.reach.goal goal source =
      (place.grammar.refusal goal).runWith (place.refusing entry).reach source := by
  have hnone : (place.refusing entry).reach =
      (⟨place.file, fun _ source => .failure source⟩ : Reach σ) := by
    simp only [refusing, reach, Nat.sub_self]
    rfl
  rw [reach, Nat.sub_eq_zero_of_le h, Grammar.reach, hnone]

end Place

variable {σ : Type}

namespace Outcome

variable {α β γ : Type}

theorem ofResult_followedBy (result : α) (source : σ) (outcome : Outcome σ β) :
    (ofResult result source).followedBy outcome = outcome := by
  simp [followedBy, ofResult]

theorem followedBy_assoc (first : Outcome σ α) (second : Outcome σ β) (third : Outcome σ γ) :
    (first.followedBy second).followedBy third = first.followedBy (second.followedBy third) := by
  simp [followedBy, Option.or_assoc]

end Outcome

variable [TokenSource σ]

/-- At a place, the parser comes to the outcome, and never were more than `peak` levels
active. -/
inductive Evaluates : Place → {α : Type} → Parser α → σ → Outcome σ α → (peak : Nat) → Prop
  | pure {place : Place} {α : Type} (result : α) (source : σ) :
      Evaluates place (.pure result) source (.ofResult result source) place.depth
  | bind {place : Place} {α β : Type} {first : Parser α} {next : α → Parser β} {source : σ}
      {before : Outcome σ α} {after : Outcome σ β} {peak₁ peak₂ : Nat} {result : α}
      (hfirst : Evaluates place first source before peak₁)
      (hresult : before.result? = some result)
      (hnext : Evaluates place (next result) before.rest after peak₂) :
      Evaluates place (.bind first next) source (before.followedBy after) (max peak₁ peak₂)
  | bindFailed {place : Place} {α β : Type} {first : Parser α} {next : α → Parser β}
      {source : σ} {before : Outcome σ α} {peak : Nat}
      (hfirst : Evaluates place first source before peak) (hresult : before.result? = none) :
      Evaluates place (.bind first next) source (before.withResult? none) peak
  | fail {place : Place} {α : Type} (source : σ) :
      Evaluates place (.fail : Parser α) source (.failure source) place.depth
  | look {place : Place} (n : Nat) (source : σ) :
      Evaluates place (.look n) source (.ofResult (TokenSource.ahead source n) source) place.depth
  | advance {place : Place} (source : σ) :
      Evaluates place .advance source (Parser.readToken source) place.depth
  | report {place : Place} (diagnostic : Diagnostic) (source : σ) :
      Evaluates place (.report diagnostic) source ⟨some (), [diagnostic], none, source⟩ place.depth
  | withSpan {place : Place} {α : Type} {start? : Option Pos} {inner : Parser α} {source : σ}
      {outcome : Outcome σ α} {peak : Nat} (hinner : Evaluates place inner source outcome peak) :
      Evaluates place (.withSpan start? inner) source
        (outcome.spannedFrom place.file (start?.getD (TokenSource.peek source).span.start)) peak
  | attempt {place : Place} {α : Type} {inner : Parser α} {source : σ} {outcome : Outcome σ α}
      {peak : Nat} (hinner : Evaluates place inner source outcome peak) :
      Evaluates place (.attempt inner) source (outcome.attempted source) peak
  | settle {place : Place} {α : Type} {inner : Parser α} {source : σ} {outcome : Outcome σ α}
      {peak : Nat} (hinner : Evaluates place inner source outcome peak) :
      Evaluates place (.settle inner) source (outcome.withResult? (some outcome.settled)) peak
  | loopMore {place : Place} {α β : Type} {state next : β} {turn : β → Parser (Step β α)}
      {source : σ} {taken : Outcome σ (Step β α)} {after : Outcome σ α} {peak₁ peak₂ : Nat}
      (hturn : Evaluates place (turn state) source taken peak₁)
      (hresult : taken.result? = some (.more next)) (hread : unread taken.rest < unread source)
      (hloop : Evaluates place (.loop next turn) taken.rest after peak₂) :
      Evaluates place (.loop state turn) source (taken.followedBy after) (max peak₁ peak₂)
  | loopDone {place : Place} {α β : Type} {state : β} {turn : β → Parser (Step β α)}
      {source : σ} {taken : Outcome σ (Step β α)} {peak : Nat} {result : α}
      (hturn : Evaluates place (turn state) source taken peak)
      (hresult : taken.result? = some (.done result)) :
      Evaluates place (.loop state turn) source (taken.withResult? (some result)) peak
  | loopFailed {place : Place} {α β : Type} {state : β} {turn : β → Parser (Step β α)}
      {source : σ} {taken : Outcome σ (Step β α)} {peak : Nat}
      (hturn : Evaluates place (turn state) source taken peak) (hresult : taken.result? = none) :
      Evaluates place (.loop state turn) source (taken.withResult? none) peak
  | nested {place : Place} {goal : Goal} {source : σ} {outcome : Outcome σ goal.Result}
      {peak : Nat} (hread : unread source < place.entry) (hdepth : place.depth < place.limit)
      (hrule : Evaluates (place.inside (unread source)) (place.grammar.rule goal) source
        outcome peak) :
      Evaluates place (.nested goal) source outcome peak
  | refused {place : Place} {goal : Goal} {source : σ} {outcome : Outcome σ goal.Result}
      {peak : Nat} (hread : unread source < place.entry) (hdepth : place.limit ≤ place.depth)
      (hrefusal : Evaluates (place.refusing (unread source)) (place.grammar.refusal goal) source
        outcome peak) :
      Evaluates place (.nested goal) source outcome peak

namespace Evaluates

variable {place : Place} {peak : Nat} {α β : Type}

/-- Never are more levels active than there are. -/
theorem peak_le {parser : Parser α} {source : σ} {outcome : Outcome σ α}
    (h : Evaluates place parser source outcome peak) (hdepth : place.depth ≤ place.limit) :
    place.depth ≤ peak ∧ peak ≤ place.limit := by
  induction h with
  | bind _ _ _ ih₁ ih₂ | loopMore _ _ _ _ ih₁ ih₂ =>
      have h₁ := ih₁ hdepth
      have h₂ := ih₂ hdepth
      omega
  | nested _ hless _ ih =>
      have hinside := ih hless
      simp only [Place.inside] at hinside
      omega
  | refused _ _ _ ih =>
      have hrefusing := ih (Nat.le_refl _)
      simp only [Place.refusing] at hrefusing
      omega
  | bindFailed _ _ ih | withSpan _ ih | attempt _ ih | settle _ ih | loopDone _ _ ih
  | loopFailed _ _ ih => exact ih hdepth
  | _ => exact ⟨Nat.le_refl _, hdepth⟩

/-- Iterating a turn from `source` comes to the outcome, after whatever came before, with any
number of turns above the number of unread tokens. -/
def Iterates (turn : β → σ → Outcome σ (Step β α)) (state : β) (source : σ)
    (outcome : Outcome σ α) : Prop :=
  ∀ (turns : Nat) (sofar : Outcome σ Unit), unread source < turns → sofar.rest = source →
    Parser.iterate turn turns state sofar = sofar.followedBy outcome

theorem Iterates.runWith_eq {state : β} {turn : β → Parser (Step β α)} {source : σ}
    {outcome : Outcome σ α} {reach : Reach σ}
    (h : Iterates (fun state rest => (turn state).runWith reach rest) state source outcome) :
    (Parser.loop state turn).runWith reach source = outcome := by
  rw [Parser.runWith, h _ _ (Nat.lt_succ_self _) rfl, Outcome.ofResult_followedBy]

/-- A loop that takes one more turn, which reads a token, iterates with one turn more. -/
theorem Iterates.more {turn : β → σ → Outcome σ (Step β α)} {state next : β} {source : σ}
    {taken : Outcome σ (Step β α)} {after : Outcome σ α} (hturn : turn state source = taken)
    (hresult : taken.result? = some (.more next)) (hread : unread taken.rest < unread source)
    (hafter : Iterates turn next taken.rest after) :
    Iterates turn state source (taken.followedBy after) := by
  intro turns sofar hturns hrest
  obtain _ | turns := turns
  · omega
  subst hrest
  rw [Parser.iterate]
  simp only [hturn, hresult]
  rw [hafter turns _ (by omega) rfl]
  exact Outcome.followedBy_assoc sofar (taken.withResult? (some ())) after

/-- A loop whose turn does not go on iterates in that turn. -/
theorem Iterates.last {turn : β → σ → Outcome σ (Step β α)} {state : β} {source : σ}
    {taken : Outcome σ (Step β α)} {result? : Option α} (hturn : turn state source = taken)
    (hresult : taken.result? = result?.map .done) :
    Iterates turn state source (taken.withResult? result?) := by
  intro turns sofar hturns hrest
  obtain _ | turns := turns
  · omega
  subst hrest
  rw [Parser.iterate]
  cases result? <;> simp only [hturn, hresult, Option.map_none, Option.map_some]

/-- Evaluation agrees with running, loops with any number of turns that is large enough. -/
theorem runWith_eq_and_iterates {parser : Parser α} {source : σ} {outcome : Outcome σ α}
    (h : Evaluates place parser source outcome peak) :
    parser.runWith place.reach source = outcome ∧
      ∀ {β : Type} {state : β} {turn : β → Parser (Step β α)}, parser = .loop state turn →
        Iterates (fun state rest => (turn state).runWith place.reach rest) state source
          outcome := by
  -- A loop goes on as a loop from another state, so it is not enough to know what running it
  -- comes to: its later turns are taken after what came before.
  induction h with
  | pure | fail | look | advance | report => exact ⟨rfl, nofun⟩
  | bind _ hresult _ ih₁ ih₂ =>
      refine ⟨?_, nofun⟩
      rw [Parser.runWith, ih₁.1]
      simp only [Outcome.andThen, hresult, ih₂.1]
  | bindFailed _ hresult ih =>
      refine ⟨?_, nofun⟩
      rw [Parser.runWith, ih.1]
      simp only [Outcome.andThen, hresult]
  | withSpan _ ih =>
      refine ⟨?_, nofun⟩
      rw [Parser.runWith, ih.1, Place.file_reach]
  | attempt _ ih | settle _ ih =>
      refine ⟨?_, nofun⟩
      rw [Parser.runWith, ih.1]
  | @loopMore place α' β' state next turn source taken after _ _ _ hresult hread _ ih₁ ih₂ =>
      have hiterates : Iterates (fun state rest => (turn state).runWith place.reach rest) state
          source (taken.followedBy after) := .more ih₁.1 hresult hread (ih₂.2 rfl)
      refine ⟨hiterates.runWith_eq, ?_⟩
      rintro _ _ _ ⟨⟩
      exact hiterates
  | @loopDone place α' β' state turn source taken _ result _ hresult ih =>
      have hiterates : Iterates (fun state rest => (turn state).runWith place.reach rest) state
          source (taken.withResult? (some result)) := .last ih.1 hresult
      refine ⟨hiterates.runWith_eq, ?_⟩
      rintro _ _ _ ⟨⟩
      exact hiterates
  | @loopFailed place α' β' state turn source taken _ _ hresult ih =>
      have hiterates : Iterates (fun state rest => (turn state).runWith place.reach rest) state
          source (taken.withResult? (none : Option α')) := .last ih.1 hresult
      refine ⟨hiterates.runWith_eq, ?_⟩
      rintro _ _ _ ⟨⟩
      exact hiterates
  | @nested place goal source outcome peak hread hdepth _ ih =>
      refine ⟨?_, nofun⟩
      rw [Parser.runWith, Place.reach_of_lt hdepth]
      exact ih.1
  | @refused place goal source outcome peak hread hdepth _ ih =>
      refine ⟨?_, nofun⟩
      rw [Parser.runWith, Place.reach_of_le hdepth]
      exact ih.1

/-- Evaluation agrees with running. -/
theorem runWith_eq {parser : Parser α} {source : σ} {outcome : Outcome σ α}
    (h : Evaluates place parser source outcome peak) :
    parser.runWith place.reach source = outcome :=
  h.runWith_eq_and_iterates.1

/-- Evaluation has at most one outcome. -/
theorem unique {parser : Parser α} {source : σ} {outcome outcome' : Outcome σ α} {peak' : Nat}
    (h : Evaluates place parser source outcome peak)
    (h' : Evaluates place parser source outcome' peak') : outcome = outcome' :=
  h.runWith_eq.symm.trans h'.runWith_eq

end Evaluates

end DeclFile

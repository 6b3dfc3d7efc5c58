import DeclFile.Proofs.Enclosure.Basic
import DeclFile.Proofs.Nesting

/-! # What results show of the run they come from

A result may be bound up with the tokens around it and with what was reported, long after it was
read. The transcript of a whole run has both. A parser shows a property of its results in it if,
wherever it runs as a part of that run, each of its results has that property.
-/

namespace DeclFile

/-- What is left of a run: the file, the tokens of its text before the end, and all that was
reported. -/
structure Transcript where
  file : SourceId
  tokens : List Token
  diagnostics : List Diagnostic
  inOrder : TokensInOrder file tokens

namespace Parser

variable {α β : Type}

/-- If the parser runs as a part of the run, all of its results have the property. -/
def Shows (transcript : Transcript) (place : Place) (source : TokenStream) (parser : Parser α)
    (Q : α → Prop) : Prop :=
  parser.Leads (· ∈ transcript.diagnostics) place source (· <:+ transcript.tokens)
    (· <:+ transcript.tokens) fun result tokens => Q result ∧ tokens <:+ transcript.tokens

/-- Reading never leaves the text. -/
theorem Leads.suffix {permits : Diagnostic → Prop} {place : Place} {source : TokenStream}
    (parser : Parser α) (all : List Token) :
    parser.Leads permits place source (· <:+ all) (· <:+ all) fun _ => (· <:+ all) := by
  intro _ hsuffix outcome peak hevaluates _
  have hrest := hevaluates.pending_suffix.trans hsuffix
  split
  · exact hrest
  · exact hrest

namespace Shows

variable {transcript : Transcript} {place : Place} {source : TokenStream} {P Q : α → Prop}
  {R : β → Prop}

theorem of_leads {parser : Parser α} {F : List Token → Prop}
    (h : parser.Leads (· ∈ transcript.diagnostics) place source (· <:+ transcript.tokens) F
      fun result _ => Q result) : parser.Shows transcript place source Q := by
  intro hends hsuffix outcome peak hevaluates hreported
  have hresult := h hends hsuffix hevaluates hreported
  have hrest := hevaluates.pending_suffix.trans hsuffix
  split
  next result hfound =>
    rw [hfound] at hresult
    exact ⟨hresult, hrest⟩
  next => exact hrest

theorem mono {parser : Parser α} (h : parser.Shows transcript place source P)
    (hQ : ∀ result, P result → Q result) : parser.Shows transcript place source Q :=
  h.post fun result _ hresult => ⟨hQ result hresult.1, hresult.2⟩

theorem any {parser : Parser α} : parser.Shows transcript place source fun _ => True :=
  (Leads.suffix parser transcript.tokens).post fun _ _ => And.intro trivial

theorem pure {result : α} (h : Q result) :
    (Pure.pure result : Parser α).Shows transcript place source Q :=
  Leads.pure fun hsuffix => ⟨h, hsuffix⟩

theorem fail : (Parser.fail : Parser α).Shows transcript place source Q :=
  Leads.fail id

theorem refuse {cause : Kind → Cause} :
    (Parser.refuse cause : Parser α).Shows transcript place source Q :=
  Leads.refuse fun _ => id

theorem bind {first : Parser α} {next : α → Parser β}
    (hfirst : first.Shows transcript place source Q)
    (hnext : ∀ result rest, Q result → (next result).Shows transcript place rest R) :
    (first >>= next).Shows transcript place source R :=
  Leads.bind hfirst fun result rest => .of_before fun _ hresult =>
    (hnext result rest hresult.1).pre And.right

/-- Some parts have no influence on what is asked of the result. -/
theorem skip {first : Parser α} {next : α → Parser β}
    (hnext : ∀ result rest, (next result).Shows transcript place rest R) :
    (first >>= next).Shows transcript place source R :=
  Leads.bind (Leads.suffix first transcript.tokens) hnext

theorem map {parser : Parser α} {f : α → β}
    (h : parser.Shows transcript place source fun result => R (f result)) :
    (f <$> parser).Shows transcript place source R :=
  bind h fun _ _ => pure

/-- One thing or another may be done before the rest that has no influence on it. -/
theorem either {condition : Prop} [Decidable condition] {first second : Parser α}
    {rest : α → Parser β} (hrest : ∀ result source, (rest result).Shows transcript place source R) :
    (if condition then first >>= fun result => rest result
      else second >>= fun result => rest result).Shows transcript place source R := by
  split
  · exact skip hrest
  · exact skip hrest

/-- The span of what was read may be taken up. -/
theorem spanned {parser : Parser α} {make : α → Span → β}
    (h : parser.Shows transcript place source fun result => ∀ span, R (make result span)) :
    (Parser.spanned make parser).Shows transcript place source R :=
  bind (Leads.withSpan h) fun found _ hfound => pure (hfound found.2)

/-- After a part, whether it failed or not, something else is done. -/
theorem settle_bind {inner : Parser α} {next : Settled α → Parser β}
    (hinner : inner.Shows transcript place source Q)
    (hdone : ∀ result rest, Q result → (next (.done result)).Shows transcript place rest R)
    (hfailed : ∀ progress rest, (next (.failed progress)).Shows transcript place rest R) :
    (inner.settle >>= next).Shows transcript place source R :=
  Leads.settle_bind hinner
    (fun result rest => .of_before fun _ hresult => (hdone result rest hresult.1).pre And.right)
    fun progress rest => (hfailed progress rest).pre And.left

/-- What holds of the result of each turn holds of all that are collected. -/
theorem collect {turn : Parser (Turn α)}
    (hturn : ∀ source, turn.Shows transcript place source fun taken =>
      ∀ result ∈ taken.result?, Q result) :
    (Parser.collect turn).Shows transcript place source fun found =>
      ∀ result ∈ found, Q result := by
  refine Leads.pre (Leads.loop
    (I := fun collected tokens => (∀ result ∈ collected, Q result) ∧ tokens <:+ transcript.tokens)
    (fun collected source => ?_) []) fun hsuffix => ⟨fun _ => nofun, hsuffix⟩
  · refine .of_before fun _ hbefore => Leads.bind ((hturn source).pre And.right) fun taken rest =>
      .pure fun htaken => ?_
    have hall : ∀ result ∈ taken.result?.toList ++ collected, Q result := by
      intro result hresult
      rcases List.mem_append.mp hresult with hnew | hold
      · exact htaken.1 result (Option.mem_toList.mp hnew)
      · exact hbefore.1 result hold
    cases taken.again with
    | true => exact ⟨hall, htaken.2⟩
    | false => exact ⟨fun result hresult => hall result (List.mem_reverse.mp hresult), htaken.2⟩

theorem commaSeparated {close : Kind} {element : Parser (Turn α)}
    (h : ∀ source, element.Shows transcript place source fun taken =>
      ∀ result ∈ taken.result?, Q result) :
    (Parser.commaSeparated close element).Shows transcript place source fun found =>
      ∀ result ∈ found, Q result := by
  refine collect fun source => skip fun next rest => ?_
  split
  · exact pure (by simp)
  · refine bind (h rest) fun taken rest htaken => ?_
    split
    · exact skip fun _ _ => pure htaken
    · exact pure htaken

end Shows

end Parser

end DeclFile

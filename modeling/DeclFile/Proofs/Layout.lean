import DeclFile.Proofs.Meets
import DeclFile.Proofs.Outline

/-! # How outlines lie over tokens

A node lies over the tokens that it was read from: its span is one over them, and its parts
lie over stretches of them, one after another. In clean runs it is known what stands in the
gaps between the parts. In front of a body no brace opens, and between the elements of a
body there are only separators.
-/

namespace DeclFile

namespace Gap

/-- Anything may stand between the parts. -/
def any (_ : Kind) : Prop := True

/-- No brace opens between the parts. -/
def head (kind : Kind) : Prop := kind ≠ .mark .openBrace

/-- There are only separators between the parts. -/
def body (separators : List Mark) (kind : Kind) : Prop := ∃ mark ∈ separators, kind = .mark mark

theorem head_comma : head (.mark .comma) := nofun

end Gap

mutual

/-- The node was read from exactly these tokens. -/
inductive Over (run : Run) : List Token → Outline → Prop
  | plain {read : List Token} {span : Span} {parts : List Outline}
      (hspan : Spans run.file read span) (hparts : Laid run Gap.any read parts) :
      Over run read (.plain span parts)
  | braced {before inside : List Token} {opening closing : Token} {span : Span}
      {separators : List Mark} {head elements : List Outline}
      (hspan : Spans run.file (before ++ opening :: (inside ++ [closing])) span)
      (hhead : Laid run Gap.head before head) (hopening : opening.kind = .mark .openBrace)
      (helements : Laid run (Gap.body separators) inside elements)
      (hclosing : closing.kind = .mark .closeBrace) :
      Over run (before ++ opening :: (inside ++ [closing])) (.braced span separators head elements)
  | broken {read : List Token} {span : Span} {separators : List Mark}
      {head elements : List Outline} (hnoisy : ¬run.clean) (hspan : Spans run.file read span)
      (hparts : Laid run Gap.any read (head ++ elements)) :
      Over run read (.braced span separators head elements)

/-- The nodes were read from these tokens one after another, with only free tokens in
between if the run is clean. -/
inductive Laid (run : Run) : (free : Kind → Prop) → List Token → List Outline → Prop
  | nil {free : Kind → Prop} {gap : List Token}
      (hgap : run.clean → ∀ token ∈ gap, free token.kind) : Laid run free gap []
  | cons {free : Kind → Prop} {gap node rest : List Token} {outline : Outline}
      {outlines : List Outline} (hgap : run.clean → ∀ token ∈ gap, free token.kind)
      (hnode : Over run node outline) (hrest : Laid run free rest outlines) :
      Laid run free (gap ++ (node ++ rest)) (outline :: outlines)

end

variable {run : Run} {free free' : Kind → Prop} {read more : List Token}
variable {outline : Outline} {forest forest' : List Outline}

namespace Over

theorem spans (h : Over run read outline) : Spans run.file read outline.span := by
  cases h with
  | plain hspan _ => exact hspan
  | braced hspan _ _ _ _ => exact hspan
  | broken _ hspan _ => exact hspan

theorem ne_nil (h : Over run read outline) : read ≠ [] :=
  h.spans.ne_nil

/-- A node alone. -/
theorem laid (h : Over run read outline) : Laid run free read [outline] := by
  have hnothing : Laid run free [] [] := .nil (by simp)
  have hgap : run.clean → ∀ token ∈ ([] : List Token), free token.kind := by simp
  simpa using Laid.cons hgap h hnothing

/-- A token by itself is a node without parts. -/
theorem token (token : Token) : Over run [token] (.plain token.span []) :=
  .plain (.token token) (.nil fun _ _ _ => trivial)

end Over

namespace Laid

/-- Where the run is not clean, anything may have been passed over. -/
theorem of_noisy (h : ¬run.clean) : Laid run free read [] := .nil fun hclean => absurd hclean h

theorem nothing : Laid run free [] [] := .nil (by simp)

theorem token {token : Token} (h : free token.kind) : Laid run free [token] [] :=
  .nil fun _ _ hmem => by rwa [List.mem_singleton.mp hmem]

/-- Any tokens may be passed over where nothing is said of the gaps. -/
theorem passed (read : List Token) : Laid run Gap.any read [] := .nil fun _ _ _ => trivial

theorem append {read : List Token} {forest : List Outline} (h : Laid run free read forest)
    (h' : Laid run free more forest') :
    Laid run free (read ++ more) (forest ++ forest') := by
  match h with
  | .nil hgap =>
      match h' with
      | .nil hgap' =>
          refine .nil fun hclean token hmem => ?_
          exact (List.mem_append.mp hmem).elim (hgap hclean token) (hgap' hclean token)
      | .cons hgap' hnode hrest =>
          rw [← List.append_assoc]
          refine .cons (fun hclean token hmem => ?_) hnode hrest
          exact (List.mem_append.mp hmem).elim (hgap hclean token) (hgap' hclean token)
  | .cons hgap hnode hrest =>
      rw [List.append_assoc, List.append_assoc]
      exact .cons hgap hnode (hrest.append h')

theorem imp {read : List Token} {forest : List Outline} (h : Laid run free read forest)
    (himp : ∀ kind, free kind → free' kind) : Laid run free' read forest := by
  match h with
  | .nil hgap => exact .nil fun hclean token hmem => himp _ (hgap hclean token hmem)
  | .cons hgap hnode hrest =>
      exact .cons (fun hclean token hmem => himp _ (hgap hclean token hmem)) hnode
        (hrest.imp himp)

/-- Nothing need be said of the gaps. -/
theorem loosen (h : Laid run free read forest) : Laid run Gap.any read forest :=
  h.imp fun _ _ => trivial

theorem ne_nil (h : Laid run free read (outline :: forest)) : read ≠ [] := by
  cases h with
  | cons _ hnode _ => simp [hnode.ne_nil]

/-- All nodes but the first may be left out. -/
theorem first (h : Laid run free read (outline :: forest)) :
    Laid run Gap.any read [outline] := by
  cases h with
  | @cons _ before node after _ _ _ hnode _ =>
      simpa using (Laid.passed before).append (hnode.laid.append (Laid.passed after))

/-- A node with these parts. -/
theorem joined (h : Laid run free read forest) (hread : read ≠ []) :
    Over run read (.plain (extent run.file read) forest) :=
  .plain (.extent hread) h.loosen

/-- The tokens of a single node stand somewhere among those that were read. -/
theorem exists_node (h : Laid run free read [outline]) :
    ∃ before node after, read = before ++ (node ++ after) ∧ Over run node outline := by
  cases h with
  | @cons _ before node after _ _ _ hnode _ => exact ⟨before, node, after, rfl, hnode⟩

end Laid

/-- There may be another node of all the tokens around. -/
theorem Over.around (h : Over run read outline) :
    Over run read (.plain (extent run.file read) [outline]) :=
  .plain (.extent h.ne_nil) h.laid

/-- There may be another node of the same span around. -/
theorem Laid.wrap {inner : Outline} (h : Laid run free read [inner]) :
    Laid run Gap.any read [.plain inner.span [inner]] := by
  obtain ⟨before, node, after, rfl, hnode⟩ := h.exists_node
  have houter : Over run node (.plain inner.span [inner]) := .plain hnode.spans hnode.laid
  simpa using (Laid.passed before).append (houter.laid.append (Laid.passed after))

/-- What is read after the opening brace of a body: its elements with separators in between
and the closing brace, or anything where the run is not clean. -/
inductive Closed (run : Run) (separators : List Mark) : List Token → List Outline → Prop
  | closed {inside : List Token} {closing : Token} {elements : List Outline}
      (helements : Laid run (Gap.body separators) inside elements)
      (hclosing : closing.kind = .mark .closeBrace) :
      Closed run separators (inside ++ [closing]) elements
  | broken {read : List Token} {elements : List Outline} (hnoisy : ¬run.clean)
      (helements : Laid run Gap.any read elements) : Closed run separators read elements

/-- What is read of a body in braces and what stands in front of it. -/
inductive Bodied (run : Run) (separators : List Mark) :
    List Token → (head elements : List Outline) → Prop
  | bodied {before rest : List Token} {opening : Token} {head elements : List Outline}
      (hhead : Laid run Gap.head before head) (hopening : opening.kind = .mark .openBrace)
      (hrest : Closed run separators rest elements) :
      Bodied run separators (before ++ opening :: rest) head elements
  | broken {read : List Token} {head elements : List Outline} (hnoisy : ¬run.clean)
      (hparts : Laid run Gap.any read (head ++ elements)) :
      Bodied run separators read head elements

namespace Bodied

variable {separators : List Mark} {head elements : List Outline}

/-- More may stand in front. -/
theorem after (h : Bodied run separators more forest elements)
    (hhead : Laid run Gap.head read head) :
    Bodied run separators (read ++ more) (head ++ forest) elements := by
  cases h with
  | bodied hmore hopening hrest =>
      rw [← List.append_assoc]
      exact .bodied (hhead.append hmore) hopening hrest
  | broken hnoisy hparts =>
      refine .broken hnoisy ?_
      rw [List.append_assoc]
      exact hhead.loosen.append hparts

/-- A body with its head is a node. -/
theorem joined (h : Bodied run separators read head elements) (hread : read ≠ []) :
    Over run read (.braced (extent run.file read) separators head elements) := by
  have hspan : Spans run.file read (extent run.file read) := .extent hread
  cases h with
  | bodied hhead hopening hrest =>
      cases hrest with
      | closed helements hclosing => exact .braced hspan hhead hopening helements hclosing
      | broken hnoisy helements =>
          refine .broken hnoisy hspan (hhead.loosen.append ?_)
          simpa using (Laid.passed [_]).append helements
  | broken hnoisy hparts => exact .broken hnoisy hspan hparts

/-- The elements lie after the head. -/
theorem laid (h : Bodied run separators read head elements) :
    Laid run Gap.any read (head ++ elements) := by
  cases h with
  | bodied hhead _ hrest =>
      refine hhead.loosen.append ?_
      cases hrest with
      | closed helements _ =>
          simpa using (Laid.passed [_]).append (helements.loosen.append (Laid.passed [_]))
      | broken _ helements => simpa using (Laid.passed [_]).append helements
  | broken _ hparts => exact hparts

end Bodied

mutual

/-- Each node inside lies over a stretch of the tokens. -/
theorem Over.exists_infix {read : List Token} {outline : Outline} (h : Over run read outline) :
    ∀ node ∈ outline.nodes, ∃ part, part <:+: read ∧ Over run part node := by
  rw [Outline.nodes_eq]
  refine List.forall_mem_cons.mpr ⟨⟨read, List.infix_rfl, h⟩, ?_⟩
  match h with
  | .plain _ hparts => exact hparts.exists_infix
  | @Over.braced _ before inside opening closing _ _ head elements _ hhead _ helements _ =>
      rw [Outline.parts, Outline.nodesOf_append]
      refine List.forall_mem_append.mpr ⟨fun node hnode => ?_, fun node hnode => ?_⟩
      · obtain ⟨part, hpart, hover⟩ := hhead.exists_infix node hnode
        exact ⟨part, hpart.trans (List.prefix_append _ _).isInfix, hover⟩
      · obtain ⟨part, hpart, hover⟩ := helements.exists_infix node hnode
        exact ⟨part, hpart.trans ⟨before ++ [opening], [closing], by simp⟩, hover⟩
  | .broken _ _ hparts => exact hparts.exists_infix

theorem Laid.exists_infix {free : Kind → Prop} {read : List Token} {forest : List Outline}
    (h : Laid run free read forest) :
    ∀ node ∈ Outline.nodesOf forest, ∃ part, part <:+: read ∧ Over run part node := by
  match h with
  | .nil _ => simp [Outline.nodesOf]
  | @Laid.cons _ _ gap first rest _ _ _ hnode hrest =>
      rw [Outline.nodesOf]
      refine List.forall_mem_append.mpr ⟨fun node hmem => ?_, fun node hmem => ?_⟩
      · obtain ⟨part, hpart, hover⟩ := hnode.exists_infix node hmem
        exact ⟨part, hpart.trans ⟨gap, rest, by simp⟩, hover⟩
      · obtain ⟨part, hpart, hover⟩ := hrest.exists_infix node hmem
        exact ⟨part, hpart.trans ⟨gap ++ first, [], by simp⟩, hover⟩

end

/-- Each node stretches over some of the tokens. -/
theorem Laid.marks (h : Laid run free read forest) :
    ∀ outline ∈ forest, Marks run.file read outline.span := by
  intro outline hmem
  obtain ⟨part, hpart, hover⟩ := h.exists_infix outline (Outline.mem_nodesOf hmem)
  exact ⟨part, hpart, hover.spans⟩

end DeclFile

import DeclFile.Buckets
import Mathlib.Data.List.Induction
import Mathlib.Data.List.Perm.Basic

/-! # How statements are sorted

Sorting takes the statements one after another, with a flag that says whether any of them is
an export. What comes out can be said of all of them at once and without the flag: each
statement belongs to one bucket and puts one list of statements there, and a bucket holds
these lists in the order of the statements.
-/

namespace DeclFile

/-- Who sees what a statement at the top declares. -/
inductive Bucket where
  | namedModule (name : String)
  | global
  | package
deriving DecidableEq

namespace Statement

/-- The bucket that a statement belongs to, going by what stands beneath any `declare`. -/
def bucket (statement : Statement) : Bucket :=
  match statement.unwrapAmbient.kind with
  | .ambientModule name _ => .namedModule name.value
  | .export _ => .package
  | _ => .global

/-- The statements between the braces of a namespace, an ambient module or a global
augmentation beneath any `declare`. An ambient module without a body has none. -/
def body (statement : Statement) : List Statement :=
  match statement.unwrapAmbient.kind with
  | .namespace _ body | .global body => body
  | .ambientModule _ body => body.getD []
  | _ => []

/-- Whether a namespace with the single name `name` stands beneath any `declare`. -/
def isNamespace (name : String) (statement : Statement) : Bool :=
  match statement.unwrapAmbient.kind with
  | .namespace found _ => found.segments.map Ident.name == [name]
  | _ => false

/-- The bodies of all namespaces called `name` among `statements`, if there are any. -/
def mergedNamespace? (name : String) (statements : List Statement) : Option (List Statement) :=
  match statements.filter (isNamespace name) with
  | [] => none
  | found => some (found.flatMap body)

/-- What a statement puts in its bucket, where `statements` are all at the top of its module.
Assigning to the exports gives away the namespaces of the assigned name. -/
def contribution (statements : List Statement) (statement : Statement) : List Statement :=
  match statement.unwrapAmbient.kind with
  | .ambientModule _ _ | .global _ => statement.body
  | .export (.assignment target) =>
      match target.segments with
      | [only] => (mergedNamespace? only.name statements).getD [statement]
      | _ => [statement]
  | _ => [statement]

/-- The name of the ambient module that a statement is part of. -/
def moduleName? (statement : Statement) : Option String :=
  match statement.bucket with
  | .namedModule name => some name
  | _ => none

theorem isExport_iff_bucket (statement : Statement) :
    statement.isExport = true ↔ statement.bucket = .package := by
  induction statement using unwrapAmbient.induct with
  | case1 inner span ih => simpa only [bucket, isExport, unwrapAmbient] using ih
  | case2 statement hambient =>
      rcases statement with ⟨kind, span⟩
      cases kind with
      | ambient inner => exact absurd rfl (hambient inner span)
      | _ => simp [bucket, isExport, unwrapAmbient]

theorem contribution_of_named {statements : List Statement} {statement : Statement}
    {name : String} (h : statement.bucket = .namedModule name) :
    statement.contribution statements = statement.body := by
  cases hkind : statement.unwrapAmbient.kind with
  | ambientModule name body => simp [contribution, hkind]
  | _ => simp [bucket, hkind] at h

end Statement

/-- The bodies of all blocks of one ambient module. -/
def mergedBodies (statements : List Statement) (name : String) : List Statement :=
  (statements.filter (·.bucket = .namedModule name)).flatMap Statement.body

/-- The names of the ambient modules among `statements`, in the order in which they first
appear, each with the bodies of all its blocks. -/
def mergedModules (statements : List Statement) : List (String × List Statement) :=
  (statements.filterMap Statement.moduleName?).eraseDups.map fun name =>
    (name, mergedBodies statements name)

/-- What those of `sorted` that belong to a bucket put there. -/
def contributions (statements : List Statement) (bucket : Bucket) (sorted : List Statement) :
    List Statement :=
  (sorted.filter (·.bucket = bucket)).flatMap (Statement.contribution statements)

/-! ## Ambient modules by name -/

/-- A name that appeared before is not listed again, and another one comes last. -/
theorem eraseDups_concat (names : List String) (name : String) :
    (names ++ [name]).eraseDups =
      if name ∈ names then names.eraseDups else names.eraseDups ++ [name] := by
  rw [List.eraseDups_append]
  split
  next h => simp [List.removeAll, h]
  next h => simp [List.removeAll, h, List.eraseDups_cons]

theorem nodup_eraseDups (names : List String) : names.eraseDups.Nodup := by
  induction names using List.reverseRecOn with
  | nil => exact .nil
  | append_singleton names name ih =>
      rw [eraseDups_concat]
      split
      next => exact ih
      next h => simpa [List.nodup_append] using ⟨ih, fun other hother heq => h (heq ▸ hother)⟩

/-- Adding to the body of one name changes the body of that name only. -/
theorem addModuleBody_of_mem {name : String} {body : List Statement} {names : List String}
    {held : String → List Statement} (hname : name ∈ names) (hnodup : names.Nodup) :
    addModuleBody name body (names.map fun other => (other, held other)) =
      names.map fun other => (other, if other = name then held other ++ body else held other) := by
  induction names with
  | nil => exact absurd hname List.not_mem_nil
  | cons first rest ih =>
      rcases List.nodup_cons.mp hnodup with ⟨hfirst, hrest⟩
      simp only [List.map_cons, addModuleBody]
      by_cases heq : first = name
      · -- The later names are others, so nothing is added to them.
        subst heq
        simp only [if_true, List.cons.injEq, true_and]
        apply List.map_congr_left
        intro other hother
        have hother : other ≠ first := fun heq => hfirst (heq ▸ hother)
        rw [if_neg hother]
      · rw [if_neg heq, if_neg heq, ih ((List.mem_cons.mp hname).resolve_left (Ne.symm heq)) hrest]

/-- A name that is not there yet comes last. -/
theorem addModuleBody_of_notMem {name : String} {body : List Statement}
    {modules : List (String × List Statement)} (h : name ∉ modules.map Prod.fst) :
    addModuleBody name body modules = modules ++ [(name, body)] := by
  induction modules with
  | nil => rfl
  | cons first rest ih =>
      simp only [List.map_cons, List.mem_cons, not_or] at h
      simp only [addModuleBody, if_neg (Ne.symm h.1), ih h.2, List.cons_append]

theorem addModuleBody_perm (name : String) (body : List Statement)
    (modules : List (String × List Statement)) :
    ((addModuleBody name body modules).flatMap Prod.snd).Perm
      (modules.flatMap Prod.snd ++ body) := by
  induction modules with
  | nil => simp [addModuleBody]
  | cons first rest ih =>
      by_cases heq : first.1 = name
      · simpa [addModuleBody, heq] using List.perm_append_comm.append_left _
      · simpa [addModuleBody, heq] using ih.append_left _

theorem filterMap_moduleName?_concat (statements : List Statement) (statement : Statement) :
    (statements ++ [statement]).filterMap Statement.moduleName? =
      statements.filterMap Statement.moduleName? ++ statement.moduleName?.toList := by
  cases h : statement.moduleName? <;> simp [h]

theorem mergedBodies_concat {statements : List Statement} {statement : Statement}
    {name : String} (h : statement.bucket = .namedModule name) (other : String) :
    mergedBodies (statements ++ [statement]) other =
      if other = name then mergedBodies statements other ++ statement.body
      else mergedBodies statements other := by
  by_cases heq : other = name
  · simp [mergedBodies, heq, h]
  · simp [mergedBodies, heq, Ne.symm heq, h]

theorem mergedBodies_of_notMem {statements : List Statement} {name : String}
    (h : name ∉ statements.filterMap Statement.moduleName?) :
    mergedBodies statements name = [] := by
  have hnone : statements.filter (·.bucket = .namedModule name) = [] := by
    apply List.filter_eq_nil_iff.mpr
    intro statement hstatement hbucket
    have hname : statement.moduleName? = some name := by
      simp [Statement.moduleName?, of_decide_eq_true hbucket]
    exact h (List.mem_filterMap.mpr ⟨statement, hstatement, hname⟩)
  rw [mergedBodies, hnone, List.flatMap_nil]

/-- One more block of an ambient module is added to the bodies of its name. -/
theorem mergedModules_concat_of_named {statements : List Statement} {statement : Statement}
    {name : String} (h : statement.bucket = .namedModule name) :
    mergedModules (statements ++ [statement]) =
      addModuleBody name statement.body (mergedModules statements) := by
  have hname : statement.moduleName? = some name := by simp [Statement.moduleName?, h]
  simp only [mergedModules, mergedBodies_concat h, filterMap_moduleName?_concat, hname,
    Option.toList_some, eraseDups_concat]
  by_cases hmem : name ∈ statements.filterMap Statement.moduleName?
  · rw [if_pos hmem, addModuleBody_of_mem (List.mem_eraseDups.mpr hmem) (nodup_eraseDups _)]
  · have hkept : ∀ other ∈ (statements.filterMap Statement.moduleName?).eraseDups,
        other ≠ name := fun other hother heq => hmem (heq ▸ List.mem_eraseDups.mp hother)
    have hnew : name ∉ (mergedModules statements).map Prod.fst := by
      simpa [mergedModules, Function.comp_def] using fun hname => hkept name hname rfl
    rw [if_neg hmem, ← mergedModules, addModuleBody_of_notMem hnew, List.map_append]
    congr 1
    · apply List.map_congr_left
      intro other hother
      rw [if_neg (hkept other hother)]
    · simp [mergedBodies_of_notMem hmem]

/-- A statement that is no ambient module changes nothing about them. -/
theorem mergedModules_concat_of_other {statements : List Statement} {statement : Statement}
    (h : statement.moduleName? = none) :
    mergedModules (statements ++ [statement]) = mergedModules statements := by
  have hbodies : mergedBodies (statements ++ [statement]) = mergedBodies statements := by
    funext name
    have hbucket : statement.bucket ≠ .namedModule name := by
      intro hbucket
      simp [Statement.moduleName?, hbucket] at h
    simp [mergedBodies, hbucket]
  simp [mergedModules, hbodies, h]

/-! ## One statement and all of them -/

theorem namespaceBody?_eq (name : String) (statement : Statement) :
    namespaceBody? name statement =
      if statement.isNamespace name then some statement.body else none := by
  cases hkind : statement.unwrapAmbient.kind with
  | «namespace» found body =>
      rcases found with ⟨first, _ | ⟨second, rest⟩, span⟩ <;>
        simp [namespaceBody?, Statement.isNamespace, Statement.body, hkind, EntityName.single?,
          EntityName.segments]
  | _ => simp [namespaceBody?, Statement.isNamespace, hkind]

/-- Collecting the bodies of the namespaces of a name tells whether there are any. -/
theorem filterMap_namespaceBody? (name : String) (statements : List Statement) :
    Statement.mergedNamespace? name statements =
      match statements.filterMap (namespaceBody? name) with
      | [] => none
      | bodies => some bodies.flatten := by
  have hbodies : statements.filterMap (namespaceBody? name) =
      (statements.filter (Statement.isNamespace name)).map Statement.body := by
    rw [← List.filterMap_eq_map, List.filterMap_filter]
    simp [namespaceBody?_eq]
  rw [hbodies, Statement.mergedNamespace?]
  cases statements.filter (Statement.isNamespace name) <;> rfl

theorem assignedBodies?_getD {statements : List Statement} {statement : Statement}
    (h : statement.bucket = .package) :
    (assignedBodies? statements statement).getD [statement] =
      statement.contribution statements := by
  cases hkind : statement.unwrapAmbient.kind with
  | «export» exported =>
      cases exported with
      | assignment target =>
          rcases target with ⟨first, _ | ⟨second, rest⟩, span⟩
          · simp only [assignedBodies?, Statement.contribution, hkind, EntityName.single?,
              EntityName.segments, filterMap_namespaceBody?]
            rfl
          · simp [assignedBodies?, Statement.contribution, hkind, EntityName.single?,
              EntityName.segments]
      | _ => simp [assignedBodies?, Statement.contribution, hkind]
  | _ => simp [Statement.bucket, hkind] at h

namespace Buckets

/-- What a bucket gains by sorting one more statement. -/
theorem add_eq {statements : List Statement} {buckets : Buckets} {statement : Statement}
    (hflag : statement.isExport = true → buckets.hasExports = true) :
    buckets.add statements statement =
      match statement.bucket with
      | .namedModule name =>
          { buckets with namedModules := addModuleBody name statement.body buckets.namedModules }
      | .global => { buckets with global := buckets.global ++ statement.contribution statements }
      | .package =>
          { buckets with package := buckets.package ++ statement.contribution statements } := by
  cases hkind : statement.unwrapAmbient.kind with
  | ambientModule name body => simp [add, Statement.bucket, Statement.body, hkind]
  | «global» body => simp [add, Statement.bucket, Statement.contribution, Statement.body, hkind]
  | «export» exported =>
      have hpackage : statement.bucket = .package := by simp [Statement.bucket, hkind]
      have hexport := statement.isExport_iff_bucket.mpr hpackage
      simp [add, hkind, hpackage, hexport, hflag hexport, assignedBodies?_getD hpackage]
  | _ =>
      have hglobal : statement.bucket = .global := by simp [Statement.bucket, hkind]
      have hexport : statement.isExport ≠ true := by
        simp [statement.isExport_iff_bucket, hglobal]
      simp [add, hkind, hglobal, hexport, Statement.contribution]

/-- What is in the buckets after some statements, where the flag is set if one of them is an
export. -/
theorem foldl_add {statements : List Statement} {flag : Bool} {sorted : List Statement}
    (hflag : ∀ statement ∈ sorted, statement.isExport = true → flag = true) :
    sorted.foldl (add statements) ⟨flag, [], [], []⟩ =
      ⟨flag, mergedModules sorted, contributions statements .global sorted,
        contributions statements .package sorted⟩ := by
  induction sorted using List.reverseRecOn with
  | nil => rfl
  | append_singleton sorted statement ih =>
      rw [List.foldl_concat, ih fun other hother => hflag other (List.mem_append_left _ hother),
        add_eq (hflag statement (by simp))]
      cases hbucket : statement.bucket with
      | namedModule name =>
          simp [mergedModules_concat_of_named hbucket, contributions, hbucket]
      | «global» | package =>
          have hname : statement.moduleName? = none := by simp [Statement.moduleName?, hbucket]
          simp [mergedModules_concat_of_other hname, contributions, hbucket]

/-- Everything that is in the buckets. -/
def contents (buckets : Buckets) : List Statement :=
  buckets.namedModules.flatMap Prod.snd ++ buckets.global ++ buckets.package

theorem contents_add_perm {statements : List Statement} {buckets : Buckets}
    {statement : Statement} (hflag : statement.isExport = true → buckets.hasExports = true) :
    (buckets.add statements statement).contents.Perm
      (buckets.contents ++ statement.contribution statements) := by
  rw [add_eq hflag]
  -- What is added in front of other buckets is moved behind them.
  cases hbucket : statement.bucket with
  | namedModule name =>
      rw [Statement.contribution_of_named hbucket]
      simp only [contents, List.append_assoc]
      refine ((addModuleBody_perm name statement.body _).append_right _).trans ?_
      rw [List.append_assoc]
      apply List.Perm.append_left
      rw [← List.append_assoc buckets.global]
      exact List.perm_append_comm
  | «global» =>
      simp only [contents, List.append_assoc]
      apply List.Perm.append_left
      apply List.Perm.append_left
      exact List.perm_append_comm
  | package => simp only [contents, List.append_assoc, List.Perm.refl]

theorem hasExports_add (statements : List Statement) (buckets : Buckets) (statement : Statement) :
    (buckets.add statements statement).hasExports = buckets.hasExports := by
  unfold add
  split
  next => rfl
  next => rfl
  next => split <;> rfl

theorem hasExports_foldl (statements sorted : List Statement) (buckets : Buckets) :
    (sorted.foldl (add statements) buckets).hasExports = buckets.hasExports := by
  induction sorted generalizing buckets with
  | nil => rfl
  | cons statement sorted ih => rw [List.foldl_cons, ih, hasExports_add]

/-- Each statement is sorted into one bucket, and only what it puts there is in the buckets. -/
theorem contents_foldl_perm {statements sorted : List Statement} {buckets : Buckets}
    (hflag : ∀ statement ∈ sorted, statement.isExport = true → buckets.hasExports = true) :
    (sorted.foldl (add statements) buckets).contents.Perm
      (buckets.contents ++ sorted.flatMap (Statement.contribution statements)) := by
  induction sorted using List.reverseRecOn with
  | nil => simp
  | append_singleton sorted statement ih =>
      have hearlier := fun other hother => hflag other (List.mem_append_left _ hother)
      have hlast := hflag statement (by simp)
      rw [List.foldl_concat]
      refine (contents_add_perm fun hexport => ?_).trans ?_
      · rw [hasExports_foldl]
        exact hlast hexport
      · simpa using (ih hearlier).append_right (statement.contribution statements)

/-- The buckets hold what the statements put there, and nothing else. -/
structure Partitions (statements : List Statement) (buckets : Buckets) : Prop where
  /-- The bodies of an ambient module are joined under its name, and the names are listed as
  they first appear. -/
  namedModules : buckets.namedModules = mergedModules statements
  global : buckets.global = contributions statements .global statements
  package : buckets.package = contributions statements .package statements
  /-- Nothing is left out and nothing is there twice. -/
  contents : buckets.contents.Perm (statements.flatMap (Statement.contribution statements))

/-- Sorting partitions a module, and whether any statement is an export has no influence on
the buckets. -/
theorem ofModule_partitions (module : Module) :
    (ofModule module).Partitions module.statements ∧
      module.statements.foldl (add module.statements) ⟨true, [], [], []⟩ =
        { ofModule module with hasExports := true } := by
  have hflag : ∀ statement ∈ module.statements, statement.isExport = true →
      module.statements.any Statement.isExport = true := by
    intro statement hstatement hexport
    exact List.any_eq_true.mpr ⟨statement, hstatement, hexport⟩
  have hsorted : ofModule module = _ := foldl_add hflag
  have hcontents : (ofModule module).contents.Perm
      (module.statements.flatMap (Statement.contribution module.statements)) :=
    contents_foldl_perm hflag
  constructor
  · constructor
    · rw [hsorted]
    · rw [hsorted]
    · rw [hsorted]
    · exact hcontents
  · rw [hsorted, foldl_add fun _ _ _ => rfl]

end Buckets

end DeclFile

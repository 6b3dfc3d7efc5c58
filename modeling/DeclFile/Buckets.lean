import DeclFile.Syntax.Statement

/-! # Sorting a module's statements

The statements at the top of a module are sorted by who sees what they declare: users of a
named module, every file, or users of the package. Exporting a name by assignment exports
what the namespaces of that name hold.
-/

namespace DeclFile

/-- The statements of a module by who sees them. -/
structure Buckets where
  /-- Whether any statement at the top is an export. -/
  hasExports : Bool
  /-- The bodies of ambient modules by name, in the order in which the names first appear. -/
  namedModules : List (String × List Statement)
  global : List Statement
  package : List Statement

/-- The table with `body` added after what it holds for `name`; a new name comes last. -/
def addModuleBody (name : String) (body : List Statement) :
    List (String × List Statement) → List (String × List Statement)
  | [] => [(name, body)]
  | (other, held) :: modules =>
      if other = name then (other, held ++ body) :: modules
      else (other, held) :: addModuleBody name body modules

/-- The body of a namespace with the single name `name`, perhaps beneath `declare`. -/
def namespaceBody? (name : String) (statement : Statement) : Option (List Statement) :=
  match statement.unwrapAmbient.kind with
  | .namespace found body =>
      if (found.single?.map Ident.name) = some name then some body else none
  | _ => none

/-- What assigning to the exports gives away: the bodies of all namespaces with the assigned
name among `statements`, if there are any. -/
def assignedBodies? (statements : List Statement) (statement : Statement) :
    Option (List Statement) :=
  match statement.unwrapAmbient.kind with
  | .export (.assignment target) => do
      let name ← target.single?
      match statements.filterMap (namespaceBody? name.name) with
      | [] => none
      | bodies => some bodies.flatten
  | _ => none

namespace Buckets

/-- Sorts one statement, where `statements` are all at the top of its module. -/
def add (statements : List Statement) (buckets : Buckets) (statement : Statement) : Buckets :=
  match statement.unwrapAmbient.kind with
  | .ambientModule name body =>
      { buckets with
        namedModules := addModuleBody name.value (body.getD []) buckets.namedModules }
  | .global body => { buckets with global := buckets.global ++ body }
  | _ =>
      if buckets.hasExports && statement.isExport then
        let exported := (assignedBodies? statements statement).getD [statement]
        { buckets with package := buckets.package ++ exported }
      else { buckets with global := buckets.global ++ [statement] }

/-- Sorts the statements of a module. -/
def ofModule (module : Module) : Buckets :=
  module.statements.foldl (add module.statements)
    ⟨module.statements.any Statement.isExport, [], [], []⟩

end Buckets

end DeclFile

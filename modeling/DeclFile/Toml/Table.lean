/-! # TOML values and tables

A TOML document is a table that is filled line by line. A table remembers how it came about,
because that decides who may add to it: a header defines its table once, a header's path may
pass through tables of any origin, and dotted keys only add to tables that dotted keys made.
-/

namespace DeclFile.Toml

/-- How a table came about. -/
inductive Origin where
  /-- The document itself or a table under its own header. -/
  | header
  /-- A table that stands on the path of a header or of a dotted key to something else. -/
  | implied (dotted : Bool)
  /-- A table in braces, which is complete as it stands. -/
  | inline
deriving DecidableEq, Repr

mutual

/-- A TOML value. Floats and dates are kept as they are written. -/
inductive Value where
  | string (text : String)
  | integer (number : Int)
  | float (written : String)
  | boolean (value : Bool)
  | date (written : String)
  | array (items : List Value)
  | table (table : Table)
  /-- The tables of repeated headers in double brackets. -/
  | tables (items : List Table)

/-- A table with its entries in order. -/
structure Table where
  origin : Origin
  entries : List Entry

/-- A key with its value. -/
structure Entry where
  key : String
  value : Value

end

namespace Table

/-- An empty table. -/
def empty (origin : Origin) : Table := ⟨origin, []⟩

/-- The value of a key. -/
def get? (table : Table) (key : String) : Option Value :=
  (table.entries.find? (·.key == key)).map Entry.value

/-- The table with `value` under `key`, in place of what was there. -/
def put (table : Table) (key : String) (value : Value) : Table :=
  if table.entries.any (·.key == key) then
    { table with
      entries := table.entries.map fun entry => if entry.key == key then ⟨key, value⟩ else entry }
  else { table with entries := table.entries ++ [⟨key, value⟩] }

/-- Changes the table that `path` leads to by `change`, making tables on the way. A dotted
path only leads through implied tables, no path leads into a table in braces, and repeated
tables are entered at the last one. -/
def changeAt (dotted : Bool) (change : Table → Option Table) :
    (path : List String) → Table → Option Table
  | [], table => change table
  | key :: path, table =>
      match table.get? key with
      | none => do
          let child ← changeAt dotted change path (empty (.implied dotted))
          return table.put key (.table child)
      | some (.table child) =>
          let open? := match child.origin with
            | .header => !dotted
            | .implied _ => true
            | .inline => false
          if open? then do
            let child ← changeAt dotted change path child
            return table.put key (.table child)
          else none
      | some (.tables items) => do
          let last ← items.getLast?
          let child ← changeAt dotted change path last
          return table.put key (.tables (items.dropLast ++ [child]))
      | some _ => none

/-- Adds an entry that `path` and `key` name in a table. Behind a dotted path it can only be
added to a table that dotted keys made, and no key is given twice. -/
def define (path : List String) (key : String) (value : Value) (table : Table) : Option Table :=
  changeAt true (fun found =>
    if (found.origin == .implied true) == path.isEmpty then none
    else if (found.get? key).isSome then none
    else some (found.put key value)) path table

/-- Opens the table of a header, which must be new or only implied by other headers. -/
def openTable (path : List String) (key : String) (table : Table) : Option Table :=
  changeAt false (fun parent =>
    match parent.get? key with
    | none => some (parent.put key (.table (empty .header)))
    | some (.table child) =>
        if child.origin = .implied false then
          some (parent.put key (.table { child with origin := .header }))
        else none
    | some _ => none) path table

/-- Opens the next of the repeated tables of a header in double brackets. -/
def openNext (path : List String) (key : String) (table : Table) : Option Table :=
  changeAt false (fun parent =>
    match parent.get? key with
    | none => some (parent.put key (.tables [empty .header]))
    | some (.tables items) => some (parent.put key (.tables (items ++ [empty .header])))
    | some _ => none) path table

end Table

end DeclFile.Toml

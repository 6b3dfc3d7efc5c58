/-! # Invocations of the program

What the arguments of a command line ask for. Options come before or after the command, their
values may be attached or follow as the next argument, and after `--` every argument is an
operand.
-/

namespace DeclFile

/-- What a command does with its operand. -/
inductive Command where
  | parse
  | classify
  | ident
deriving DecidableEq, Repr

/-- One argument, together with the next one where that is its value. -/
inductive Argument where
  | operand (text : String)
  /-- The file with the settings. -/
  | settings (path : String)
  | compact
  | version
  | help
  /-- Only operands follow. -/
  | endOfOptions
  | malformed
deriving DecidableEq, Repr

/-- What a command line asks for. -/
inductive Invocation where
  | version
  | help
  /-- Writes the syntax of a file, on one line if `compact` is set. -/
  | parse (settings? : Option String) (file : String) (compact : Bool)
  /-- Writes the buckets of a file. -/
  | classify (settings? : Option String) (file : String)
  /-- Writes the binding identifier of a package. -/
  | ident (settings? : Option String) (specifier : String)
deriving DecidableEq, Repr

/-- The command with the given name. -/
def Command.ofName? : String → Option Command
  | "parse" => some .parse
  | "classify" => some .classify
  | "ident" => some .ident
  | _ => none

namespace Argument

/-- The settings option with its value, which must not be empty. -/
def ofSettings (path : List Char) : Argument :=
  if path.isEmpty then .malformed else .settings (String.ofList path)

/-- An option with a long name and the value after its equals sign. -/
def ofLongName (name : List Char) (value? : Option (List Char)) : Argument :=
  match String.ofList name, value? with
  | "config", some value => ofSettings value
  | "compact", none => .compact
  | "version", none => .version
  | "help", none => .help
  | _, _ => .malformed

/-- An option with a short name and the characters after it. An equals sign may stand before
an attached value. -/
def ofShortName (name : Char) (attached : List Char) : Argument :=
  match name, attached with
  | 'c', '=' :: value => ofSettings value
  | 'c', value => ofSettings value
  | 'V', _ => .version
  | 'h', _ => .help
  | _, _ => .malformed

/-- An argument that stands by itself. A single dash is an operand. -/
def ofText (text : String) : Argument :=
  match text.toList with
  | ['-', '-'] => .endOfOptions
  | '-' :: '-' :: option =>
      let name := option.takeWhile (· != '=')
      ofLongName name (if name.length = option.length then none else option.drop (name.length + 1))
  | '-' :: name :: attached => ofShortName name attached
  | _ => .operand text

/-- Whether the next argument is the value of this one. -/
def awaitsValue (text : String) : Bool := text == "-c" || text == "--config"

/-- The settings option with the next argument as its value, which must not be an option. -/
def ofNext (next : String) : Argument :=
  match ofText next with
  | .operand path => ofSettings path.toList
  | _ => .malformed

/-- The arguments of a command line. -/
def list : List String → List Argument
  | [] => []
  | [text] => [ofText text]
  | text :: next :: rest =>
      if text = "--" then .endOfOptions :: .operand next :: rest.map .operand
      else if awaitsValue text then ofNext next :: list rest
      else ofText text :: list (next :: rest)

end Argument

/-- What the arguments after a command have given so far. -/
structure CommandArguments where
  settings? : Option String := none
  operand? : Option String := none
  compact : Bool := false

namespace CommandArguments

/-- Adds an argument. None is given twice, and a file has a name. -/
def add? (command : Command) (given : CommandArguments) : Argument → Option CommandArguments
  | .operand text =>
      if given.operand?.isSome || (command != .ident && text.isEmpty) then none
      else some { given with operand? := some text }
  | .settings path =>
      if given.settings?.isSome then none else some { given with settings? := some path }
  | .compact =>
      if given.compact || command != .parse then none else some { given with compact := true }
  | .endOfOptions => some given
  | .version | .help | .malformed => none

/-- The invocation of a command with its arguments, which include an operand. Settings before
the command are used if there are none after it. -/
def toInvocation? (outer? : Option String) (command : Command) (given : CommandArguments) :
    Option Invocation := do
  let operand ← given.operand?
  let settings? := given.settings?.or outer?
  match command with
  | .parse => return .parse settings? operand given.compact
  | .classify => return .classify settings? operand
  | .ident => return .ident settings? operand

/-- Reads the arguments after a command. -/
def read? (outer? : Option String) (command : Command) :
    (given : CommandArguments) → List Argument → Option Invocation
  | given, [] => given.toInvocation? outer? command
  | _, .help :: _ => some .help
  | given, argument :: rest => do read? outer? command (← given.add? command argument) rest

end CommandArguments

namespace Invocation

/-- Reads the arguments up to the command and then those of the command. -/
def read? : (settings? : Option String) → List Argument → Option Invocation
  | _, .version :: _ => some .version
  | _, .help :: _ => some .help
  | none, .settings path :: rest => read? (some path) rest
  | settings?, .operand name :: rest =>
      match Command.ofName? name with
      | some command => CommandArguments.read? settings? command {} rest
      | none => if name == "help" && rest.isEmpty then some .help else none
  | _, _ => none

/-- What the arguments of a command line ask for, or nothing where they are misused. -/
def ofArguments? (arguments : List String) : Option Invocation :=
  read? none (Argument.list arguments)

end Invocation

end DeclFile

/-
# Requests on the command line

A request is a command with its parameters.  Parameters that may be given by position may also be
given by name; the others are given by name only, as `--name value` or `--name=value`.

* `Request` : the commands;
* `Request.ofArguments?` : the request of a list of arguments;
* `Invocation.ofArguments?` : the same, where help or the version may be asked for instead.
-/
import SchemaDiagram.Command.Location
import SchemaDiagram.Text.Numeral

namespace SchemaDiagram

/-- What can be asked for. -/
inductive Request where
  /-- Draws a schema file in a format. -/
  | render (schema : Location) (format : String) (positions config : Option Location)
    (title : Option String) (verbose : Bool)
  /-- Writes the position map of a schema file. -/
  | positions (schema : Location) (saved config : Option Location) (verbose : Bool)
  /-- Reports what is wrong with a schema file. -/
  | check (schema : Location) (verbose : Bool)
  /-- Writes the schema text of a database file. -/
  | reflect (database : Location)
deriving DecidableEq, Repr

/-- The files that a request names. -/
def Request.locations : Request → List Location
  | .render schema _ saved config _ _ => [schema] ++ saved.toList ++ config.toList
  | .positions schema saved config _ => [schema] ++ saved.toList ++ config.toList
  | .check schema _ => [schema]
  | .reflect database => [database]

/-- The format in which a schema is drawn when none is given. -/
def defaultFormat : String := "table"

/-! ## Parameters -/

/-- The parameters of a command: those that may be given by position, in order, the others that
take a value, and whether there is a switch for details. -/
structure Parameters where
  positional : List String
  named : List String
  verbose : Bool

/-- The parameters that are given to a command. -/
structure Given where
  values : List (String × String)
  verbose : Option Bool
deriving DecidableEq, Repr

/-- The parameters of a command. -/
def parametersOf : String → Option Parameters
  | "render" => some ⟨["schema", "fmt"], ["positions", "config", "title"], true⟩
  | "positions" => some ⟨["schema"], ["saved", "config"], true⟩
  | "check" => some ⟨["schema"], [], true⟩
  | "reflect" => some ⟨["sqlite-location"], [], false⟩
  | _ => none

namespace Given

/-- The value of a parameter. -/
def value? (g : Given) (name : String) : Option String := g.values.lookup name

/-- The location that a parameter names. -/
def location? (g : Given) (name : String) : Option Location := (g.value? name).map Location.ofText

/-- Gives a parameter a value, which it must not have yet. -/
def add (g : Given) (name value : String) : Option Given :=
  if (g.value? name).isSome then none else some { g with values := g.values ++ [(name, value)] }

/-- Sets the switch for details, which must not be set yet. -/
def setVerbose (g : Given) (on : Bool) : Option Given :=
  if g.verbose.isSome then none else some { g with verbose := some on }

end Given

/-! ## Reading arguments -/

/-- Whether an argument looks like an option: it begins with a hyphen and is no numeral.  The
imaginary unit alone, with its sign, does look like an option. -/
def looksLikeOption (argument : String) : Bool :=
  match argument.toList with
  | ['-', 'j'] | ['-', 'J'] => true
  | '-' :: rest => !Text.isNumeral ('-' :: rest)
  | _ => false

/-- The two parts of an option at its first equals sign.  In its name an underscore stands for a
hyphen. -/
def splitAtEquals (option : List Char) : String × Option String :=
  let name := option.takeWhile (· ≠ '=')
  let hyphenated := name.map fun c => if c = '_' then '-' else c
  (String.ofList hyphenated, match option.drop name.length with
    | _ :: value => some (String.ofList value)
    | [] => none)

/-- Whether a switch is on: it is unless it is given a word that says no. -/
def switchValue? : Option String → Option Bool
  | none => some true
  | some word =>
    let word := String.ofList (word.toList.map Char.toLower)
    if ["yes", "y", "1", "true", "t"].contains word then some true
    else if ["no", "n", "0", "false", "f"].contains word then some false
    else none

/-- Takes the named parameters out of a list of arguments.  The arguments left over are those given
by position; after `--` all are.  Any other argument that looks like an option fits nothing. -/
def takeNamed (p : Parameters) : List String → Given → Option (Given × List String)
  | [], g => some (g, [])
  | "--" :: rest, g => some (g, rest)
  | argument :: rest, g =>
    match argument.toList with
    | '-' :: '-' :: option =>
      match splitAtEquals option with
      | ("verbose", value) =>
        if p.verbose then do takeNamed p rest (← g.setVerbose (← switchValue? value)) else none
      | ("no-verbose", value) =>
        if p.verbose then do takeNamed p rest (← g.setVerbose !(← switchValue? value)) else none
      | (name, value) =>
        if (p.positional ++ p.named).contains name then
          match value, rest with
          | some value, rest => do takeNamed p rest (← g.add name value)
          | none, value :: rest =>
            if looksLikeOption value then none else do takeNamed p rest (← g.add name value)
          | none, [] => none
        else none
    | _ =>
      if looksLikeOption argument then none
      else (takeNamed p rest g).map fun (g, left) => (g, argument :: left)

/-- Gives the parameters their values by position.  Once a parameter is given by name, none after it
may be given by position. -/
def takePositional : (names : List String) → List String → Given → Option Given
  | _, [], g => some g
  | [], _ :: _, _ => none
  | name :: names, argument :: rest, g => do
    takePositional names rest (← g.add name argument)

/-- The request of a command with the given parameters; `none` if a parameter is missing or the
format is unknown. -/
def Request.ofGiven? (command : String) (g : Given) : Option Request :=
  let verbose := g.verbose.getD false
  match command with
  | "render" => do
    let schema ← g.location? "schema"
    let format := (g.value? "fmt").getD defaultFormat
    if ["table", "json", "html"].contains format then
      some (.render schema format (g.location? "positions") (g.location? "config")
        (g.value? "title") verbose)
    else none
  | "positions" => do
    some (.positions (← g.location? "schema") (g.location? "saved") (g.location? "config") verbose)
  | "check" => do some (.check (← g.location? "schema") verbose)
  | "reflect" => do some (.reflect (← g.location? "sqlite-location"))
  | _ => none

/-- The request of a list of arguments, if they fit a command. -/
def Request.ofArguments? : List String → Option Request
  | [] => none
  | command :: arguments => do
    let p ← parametersOf command
    let (g, left) ← takeNamed p arguments ⟨[], none⟩
    Request.ofGiven? command (← takePositional p.positional left g)

/-! ## Help and version -/

/-- What a list of arguments asks for. -/
inductive Invocation where
  | help
  | version
  | request (r : Request)
deriving DecidableEq, Repr

/-- The options that ask for help. -/
def helpOptions : List String := ["--help", "-h"]

/-- The option that asks for the version. -/
def versionOption : String := "--version"

/-- Whether there is something that a list of arguments, with an option for help among them, asks
help for: the command that comes first, or all commands if nothing else is asked. -/
def hasTopic (arguments : List String) : Bool :=
  (arguments.head?.bind parametersOf).isSome || arguments.all helpOptions.contains

/-- The help: how each command is asked for. -/
def helpLines : List String := [
  "render SCHEMA [table|json|html] [--positions FILE] [--config FILE] [--title TITLE] [--verbose]",
  "positions SCHEMA [--saved FILE] [--config FILE] [--verbose]",
  "check SCHEMA [--verbose]",
  "reflect SQLITE-LOCATION"]

/-- The version of the commands. -/
def versionText : String := "0.1.0"

/-- What a list of arguments asks for, if they fit.  Help and the version may be asked for
anywhere before `--`, and no arguments ask for help. -/
def Invocation.ofArguments? (arguments : List String) : Option Invocation :=
  let options := arguments.takeWhile (· ≠ "--")
  if arguments.isEmpty then some .help
  else if options.any helpOptions.contains then
    if hasTopic arguments then some .help else none
  else if options.contains versionOption then some .version
  else (Request.ofArguments? arguments).map .request

end SchemaDiagram

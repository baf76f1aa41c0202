import StageMonitor.Log.Level

/-! # Options

Options come in any order, each at most once. A value follows its option as the next argument or
after an equals sign, and after the short name also directly.
-/

namespace StageMonitor

structure Options where
  output : Option String
  catalog : Option String
  check : Bool
  level : Level
  deriving DecidableEq, Repr

inductive Valued
  | output
  | catalog
  | level
  deriving DecidableEq, Repr

/-- What an argument says when an option may start. -/
inductive Argument
  | valued (option : Valued) (value : Option String)
  | check
  | help
  | terminator
  | other
  deriving DecidableEq, Repr

def Valued.ofLongName? (name : String) : Option Valued :=
  if name = "output-path" then some .output
  else if name = "catalog-path" then some .catalog
  else if name = "log-level" then some .level
  else none

namespace Argument

/-- An argument that starts with two dashes, by its name and the value after an equals sign. -/
def ofLong (name : String) (value : Option String) : Argument :=
  match Valued.ofLongName? name, value with
  | some option, value => .valued option value
  | none, some _ => .other
  | none, none =>
    if name = "check" then .check
    else if name = "help" then .help
    else .other

/-- The value right after a short name; an equals sign in front of it is taken off. -/
def attached : List Char → Option String
  | [] => none
  | '=' :: value => some (String.ofList value)
  | value => some (String.ofList value)

def ofChars : List Char → Argument
  | ['-', '-'] => .terminator
  | '-' :: '-' :: s =>
    match s.dropWhile (· ≠ '=') with
    | [] => ofLong (String.ofList s) none
    | _ :: value => ofLong (String.ofList (s.takeWhile (· ≠ '='))) (some (String.ofList value))
  | '-' :: 'o' :: s => .valued .output (attached s)
  | '-' :: 'h' :: _ => .help
  | _ => .other

end Argument

/-- Whether an argument can be the value of the option before it. -/
def isValue (argument : String) : Bool :=
  argument = "-" || argument.toList.head? ≠ some '-'

/-- The options that are met so far. -/
structure Given where
  output : Option String
  catalog : Option String
  check : Bool
  level : Option Level
  deriving DecidableEq, Repr

namespace Given

def nothing : Given := ⟨none, none, false, none⟩

def path? (value : String) : Option String :=
  if value = "" then none else some value

/-- Takes the value of an option that is not given yet. -/
def set? (given : Given) (value : String) : Valued → Option Given
  | .output =>
    if given.output.isSome then none
    else (path? value).map fun path => { given with output := some path }
  | .catalog =>
    if given.catalog.isSome then none
    else (path? value).map fun path => { given with catalog := some path }
  | .level =>
    if given.level.isSome then none
    else (Level.ofString? value).map fun level => { given with level := some level }

def options (given : Given) : Options :=
  ⟨given.output, given.catalog, given.check, given.level.getD (.upTo .info)⟩

end Given

inductive CommandLine
  | run (options : Options)
  | help
  | misuse
  deriving DecidableEq, Repr

namespace CommandLine

def parseFrom (given : Given) : List String → CommandLine
  | [] => .run given.options
  | argument :: arguments =>
    match Argument.ofChars argument.toList with
    | .valued option (some value) =>
      match given.set? value option with
      | some given => parseFrom given arguments
      | none => .misuse
    | .valued option none =>
      match arguments with
      | [] => .misuse
      | value :: arguments =>
        if isValue value then
          match given.set? value option with
          | some given => parseFrom given arguments
          | none => .misuse
        else .misuse
    | .check => if given.check then .misuse else parseFrom { given with check := true } arguments
    | .help => .help
    | .terminator => if arguments = [] then .run given.options else .misuse
    | .other => .misuse

def parse (arguments : List String) : CommandLine :=
  parseFrom .nothing arguments

end CommandLine

end StageMonitor

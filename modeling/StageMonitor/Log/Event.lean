import StageMonitor.CommandLine.Options
import StageMonitor.Failure

/-! # Events

What a run tells about itself.
-/

namespace StageMonitor

open Text

inductive Event
  | ready
  | starting (options : Options)
  | loading (path : Path)
  | loaded (stages : Nat) (path : Path)
  | addingStage (stage : Stage) (row : Nat)
  | built (panels stages : Nat)
  | wrote (path : Path)
  | upToDate (path : Path)
  | generated (path : Path)
  | confirmed (path : Path)
  | failed (failure : Failure)

def pathText : Option Path → String
  | some path => "Some(" ++ quoted path ++ ")"
  | none => "None"

namespace Options

def text (options : Options) : String :=
  "Args \x7b output_path: " ++ pathText options.output ++
    ", catalog_path: " ++ pathText options.catalog ++
    ", check: " ++ toString options.check ++
    ", log_level: LevelFilter::" ++ options.level.name ++ " \x7d"

end Options

namespace Event

def severity : Event → Severity
  | ready => .debug
  | starting _ => .info
  | loading _ => .debug
  | loaded _ _ => .info
  | addingStage _ _ => .debug
  | built _ _ => .info
  | wrote _ => .info
  | upToDate _ => .debug
  | generated _ => .info
  | confirmed _ => .info
  | failed _ => .error

def message (wording : Wording := .plain) : Event → String
  | ready => "Tracing has been successfully initialized."
  | starting options => "Starting stage dashboard generator with args: " ++ options.text
  | loading path => "Loading dashboard config from " ++ quoted path ++ "."
  | loaded stages path => "Loaded " ++ toString stages ++ " stages from " ++ quoted path ++ "."
  | addingStage stage row =>
    "Adding stage " ++ stage.id ++ " (" ++ stage.label ++ ") at row " ++ toString row ++ "."
  | built panels stages =>
    "Built dashboard with " ++ toString panels ++ " panels for " ++ toString stages ++ " stages."
  | wrote path => "Wrote " ++ quoted path ++ "."
  | upToDate path => quoted path ++ " is up to date."
  | generated path => "Generated stage dashboard file: " ++ quoted path
  | confirmed path => "Stage dashboard file is up to date: " ++ quoted path
  | failed failure => failure.message wording

def text (wording : Wording := .plain) (event : Event) : String :=
  event.severity.name ++ " " ++ event.message wording

/-- Controls that could drive a terminal are spelled out. -/
def consoleChar (c : Char) : List Char :=
  if c = '\x1b' ∨ c = '\x07' ∨ c = '\x08' ∨ c = '\x0c' ∨ c = '\x7f' then
    ['\\', 'x'] ++ (if c.toNat < 16 then ['0'] else []) ++ hexDigits c.toNat
  else if 0x80 ≤ c.toNat ∧ c.toNat ≤ 0x9f then ['\\', 'u', '\x7b'] ++ hexDigits c.toNat ++ ['\x7d']
  else [c]

def consoleText (message : String) : String :=
  String.ofList (message.toList.flatMap consoleChar)

def consoleMessage (wording : Wording := .plain) (event : Event) : String :=
  consoleText (event.message wording)

/-- An event as it is shown on the console. -/
def line (wording : Wording) (event : Event) : String :=
  event.severity.name ++ " " ++ event.consoleMessage wording

end Event

end StageMonitor

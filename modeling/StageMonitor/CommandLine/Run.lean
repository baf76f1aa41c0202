import StageMonitor.Session

/-! # Running the command line

The dashboard of a catalog is generated, and then either stored or compared with the stored one.
-/

namespace StageMonitor

/-- Where the dashboard is stored if no other place is asked for. -/
def committedPath : Path := "crates/stage_dashboard/resources/dev_grafana.json"

/-- A path inside the project. -/
def projectPath (root path : Path) : Path :=
  Path.under root path

namespace Session

def generate (root : Path) (options : Options) : Session Unit := do
  let catalog ← match options.catalog with
    | some path => load path
    | none => pure Catalog.production
  let output := options.output.getD (projectPath root committedPath)
  let dashboard ← build catalog
  if options.check then
    check dashboard.toJson output
    record (.confirmed output)
  else
    dump dashboard.toJson output
    record (.generated output)

end Session

/-- How a run ends: its exit code, the events that are shown, and the files. -/
structure Ending where
  exitCode : Nat
  log : List Event
  files : FileSystem

/-- What a run prints. Two runs with the same events may word them differently. -/
def Ending.lines (wording : Wording) (ending : Ending) : List String :=
  ending.log.map (Event.line wording)

namespace Options

/-- All events of a run, and whether it succeeds. -/
def perform (options : Options) (root : Path) (files : FileSystem) : Bool × World :=
  match (Session.generate root options).run ⟨files, [.ready, .starting options]⟩ with
  | .ok () world => (true, world)
  | .error failure world => (false, { world with log := world.log ++ [.failed failure] })

def ending (options : Options) (root : Path) (files : FileSystem) : Ending :=
  let (succeeds, world) := options.perform root files
  { exitCode := if succeeds then 0 else 1
    log := world.log.filter fun event => options.level.shows event.severity
    files := world.files }

end Options

namespace CommandLine

def ending (root : Path) (files : FileSystem) : CommandLine → Ending
  | .run options => options.ending root files
  | .help => ⟨0, [], files⟩
  | .misuse => ⟨2, [], files⟩

end CommandLine

/-- The whole program. -/
def runProgram (root : Path) (arguments : List String) (files : FileSystem) : Ending :=
  (CommandLine.parse arguments).ending root files

end StageMonitor

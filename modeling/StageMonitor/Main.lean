import StageMonitor.CommandLine.Run

/-! # The program

The parts of the disk that a run can see are surveyed before it, and what it changed is written back
after it.
-/

namespace StageMonitor

def usage : String :=
  "Generates the challenge stage processing Grafana dashboard.\n\n" ++
  "Usage: stage_dashboard_generator [OPTIONS]\n\n" ++
  "Options:\n" ++
  "  -o, --output-path PATH   Output file\n" ++
  "      --catalog-path PATH  A JSON file with a list of stages\n" ++
  "      --check              Compare the output file instead of writing it\n" ++
  "      --log-level LEVEL    The least severe events that are shown\n" ++
  "  -h, --help               Print this help"

def Location.onDisk (location : Location) : String :=
  "/" ++ "/".intercalate location

def Location.isDirectoryOnDisk (location : Location) : IO Bool := do
  let here ← IO.currentDir
  (here / location.onDisk).isDir

/-- Adds the entries on the way along some names. -/
def survey (files : FileSystem) (here : Location) : List String → IO FileSystem
  | [] => return files
  | name :: names => do
    let there : Location := if name = "." then here else if name = ".." then here.dropLast else here ++ [name]
    if there = [] then survey files there names
    else if ← there.isDirectoryOnDisk then survey (files.put there .directory) there names
    else
      match ← (IO.FS.readBinFile there.onDisk).toBaseIO with
      | .ok content => return files.put there (.file content)
      | .error _ => return files

def surveyPath (files : FileSystem) (path : Path) : IO FileSystem :=
  match files.route path with
  | .ok route => survey files route.start route.names
  | .error _ => return files

def writeBack (before after : FileSystem) : IO Unit :=
  for (location, entry) in after.entries do
    unless (before.entry? location).any entry.same do
      match entry with
      | .directory => IO.FS.createDir location.onDisk
      | .file content => IO.FS.writeBinFile location.onDisk content

def runOnDisk (arguments : List String) : IO Nat := do
  let root := (← IO.currentDir).toString
  let here := ((Path.segments root.toList).filter (· ≠ [])).map String.ofList
  let paths := match CommandLine.parse arguments with
    | .run options => options.catalog.toList ++ [options.output.getD (projectPath root committedPath)]
    | _ => []
  let start ← survey ⟨[], here⟩ [] here
  let files ← paths.foldlM surveyPath start
  let ending := runProgram root arguments files
  writeBack files ending.files
  for line in ending.lines .plain do
    IO.println line
  return ending.exitCode

end StageMonitor

def main (arguments : List String) : IO UInt32 := do
  match StageMonitor.CommandLine.parse arguments with
  | .run _ => pure ()
  | .help => IO.println StageMonitor.usage
  | .misuse => IO.eprintln StageMonitor.usage
  return (← StageMonitor.runOnDisk arguments).toUInt32

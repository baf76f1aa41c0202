import StageMonitor.Catalog.Reader
import StageMonitor.Dashboard.Stages
import StageMonitor.Json.Layout
import StageMonitor.Log.Event

/-! # Sessions

A session works on a file system and keeps a log. What it did before a failure stays done.
-/

namespace StageMonitor

open Json

structure World where
  files : FileSystem
  log : List Event

abbrev Session := EStateM Failure World

namespace Session

def record (event : Event) : Session Unit :=
  modify fun world => { world with log := world.log ++ [event] }

def recordAll (events : List Event) : Session Unit :=
  modify fun world => { world with log := world.log ++ events }

def ofExcept {ε α : Type} (failure : ε → Failure) : Except ε α → Session α
  | .ok a => pure a
  | .error e => throw (failure e)

def readText (path : Path) : Session String := do
  let world ← get
  ofExcept (.storage .read path) (world.files.readText path)

/-- Makes the directories in which a file is to be written. -/
def makeDirectories (path : Path) : Session Unit := do
  let world ← get
  match Path.directories path with
  | [] => pure ()
  | parent :: outer =>
    let (made, result) := world.files.makeDirectories (parent :: outer)
    set { world with files := made }
    ofExcept (.storage .createDirectory parent) result

def writeText (path : Path) (text : String) : Session Unit := do
  let world ← get
  let files ← ofExcept (.storage .create path) (world.files.writeFile path text.toUTF8)
  set { world with files }

/-- Stores a document, whatever the file held before. -/
def dump (document : Value) (path : Path) : Session Unit := do
  makeDirectories path
  writeText path document.fileText
  record (.wrote path)

/-- The value of a stored document. -/
def readValue (path : Path) : Session Value := do
  let text ← readText path
  ofExcept .malformed (Value.ofDocument text)

/-- Compares a document with the stored one; order of keys and layout do not matter. -/
def check (document : Value) (path : Path) : Session Unit := do
  let stored ← readValue path
  if stored.same document.canonical then record (.upToDate path)
  else throw (.outOfDate path)

def load (path : Path) : Session Catalog := do
  record (.loading path)
  let text ← readText path
  let catalog ← ofExcept .malformed (Catalog.ofDocument text)
  match catalog.report? with
  | some report => throw (.invalidCatalog catalog report)
  | none =>
    record (.loaded catalog.stages.length path)
    return catalog

/-- Tells of all stages before the first panel is made. Since no panel of a catalog breaks a rule,
it makes no difference if each stage is told of when its turn comes. -/
def build (catalog : Catalog) : Session Dashboard := do
  recordAll (catalog.stages.zipIdx.map fun (stage, row) => .addingStage stage row)
  let dashboard ← ofExcept .violation (Dashboard.ofStages catalog.stages)
  record (.built dashboard.panels.length catalog.stages.length)
  return dashboard

end Session

end StageMonitor

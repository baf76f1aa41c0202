import StageMonitor.Association
import StageMonitor.Storage.Path

/-! # File systems

A file system holds regular files and directories. A path is followed name by name: each name but
the last has to lead to a directory.
-/

namespace StageMonitor

inductive Obstacle
  | notFound
  | alreadyExists
  | notDirectory
  | isDirectory
  | nameTooLong
  | nullInPath
  | notText
  deriving DecidableEq, Repr

namespace Obstacle

def message : Obstacle → String
  | notFound => "No such file or directory (os error 2)"
  | alreadyExists => "File exists (os error 17)"
  | notDirectory => "Not a directory (os error 20)"
  | isDirectory => "Is a directory (os error 21)"
  | nameTooLong => "File name too long (os error 36)"
  | nullInPath => "file name contained an unexpected NUL byte"
  | notText => "stream did not contain valid UTF-8"

end Obstacle

inductive Entry
  | file (content : ByteArray)
  | directory

namespace Entry

def isDirectory : Entry → Bool
  | file _ => false
  | directory => true

/-- Whether two entries hold the same. -/
def same : Entry → Entry → Bool
  | file a, file b => a.data == b.data
  | directory, directory => true
  | _, _ => false

end Entry

/-- The names on the way from the root. -/
abbrev Location := List String

structure FileSystem where
  entries : List (Location × Entry)
  workingDirectory : Location

/-- A path as it is followed: where to start, the names to take, and whether it ends in a slash. -/
structure Route where
  start : Location
  names : List String
  slashed : Bool

def maxNameSize : Nat := 255

def maxPathSize : Nat := 4095

namespace FileSystem

def entry? (fs : FileSystem) (location : Location) : Option Entry :=
  if location = [] then some .directory else Association.get? location fs.entries

def put (fs : FileSystem) (location : Location) (entry : Entry) : FileSystem :=
  { fs with entries := Association.put location entry fs.entries }

def route (fs : FileSystem) (path : Path) : Except Obstacle Route :=
  if path.toList.contains '\x00' then .error .nullInPath
  else if path = "" then .error .notFound
  else if maxPathSize < path.utf8ByteSize then .error .nameTooLong
  else
    .ok
      { start := if path.toList.head? = some '/' then [] else fs.workingDirectory
        names := ((Path.segments path.toList).filter (· ≠ [])).map String.ofList
        slashed := path.toList.getLast? = some '/' }

/-- Takes one name from a directory. -/
def enter (fs : FileSystem) (here : Location) (name : String) : Except Obstacle Location :=
  if name = "." then .ok here
  else if name = ".." then .ok here.dropLast
  else if maxNameSize < name.utf8ByteSize then .error .nameTooLong
  else
    match fs.entry? (here ++ [name]) with
    | none => .error .notFound
    | some _ => .ok (here ++ [name])

/-- Takes names that all have to lead to directories. -/
def walk (fs : FileSystem) (here : Location) : List String → Except Obstacle Location
  | [] => .ok here
  | name :: names =>
    match fs.enter here name with
    | .error obstacle => .error obstacle
    | .ok there =>
      match fs.entry? there with
      | some .directory => fs.walk there names
      | some (.file _) => .error .notDirectory
      | none => .error .notFound

/-- The directory in which a path ends, its last name, and whether a slash follows. The root has no
last name. -/
def approach (fs : FileSystem) (path : Path) : Except Obstacle (Location × Option (String × Bool)) :=
  match fs.route path with
  | .error obstacle => .error obstacle
  | .ok route =>
    match fs.walk route.start route.names.dropLast with
    | .error obstacle => .error obstacle
    | .ok here => .ok (here, route.names.getLast?.map (·, route.slashed))

/-- What is found at the end of a path. -/
def resolve (fs : FileSystem) (path : Path) : Except Obstacle Entry :=
  match fs.approach path with
  | .error obstacle => .error obstacle
  | .ok (_, none) => .ok .directory
  | .ok (here, some (name, slashed)) =>
    match fs.enter here name with
    | .error obstacle => .error obstacle
    | .ok there =>
      match fs.entry? there with
      | none => .error .notFound
      | some .directory => .ok .directory
      | some (.file content) => if slashed then .error .notDirectory else .ok (.file content)

def isDirectory (fs : FileSystem) (path : Path) : Bool :=
  match fs.resolve path with
  | .ok .directory => true
  | _ => false

def readFile (fs : FileSystem) (path : Path) : Except Obstacle ByteArray :=
  match fs.resolve path with
  | .error obstacle => .error obstacle
  | .ok .directory => .error .isDirectory
  | .ok (.file content) => .ok content

def readText (fs : FileSystem) (path : Path) : Except Obstacle String :=
  match fs.readFile path with
  | .error obstacle => .error obstacle
  | .ok content =>
    match String.fromUTF8? content with
    | some text => .ok text
    | none => .error .notText

def isDots (name : String) : Bool :=
  name = "." || name = ".."

def makeDirectory (fs : FileSystem) (path : Path) : Except Obstacle FileSystem :=
  match fs.approach path with
  | .error obstacle => .error obstacle
  | .ok (_, none) => .error .alreadyExists
  | .ok (here, some (name, _)) =>
    if isDots name then .error .alreadyExists
    else if maxNameSize < name.utf8ByteSize then .error .nameTooLong
    else
      match fs.entry? (here ++ [name]) with
      | some _ => .error .alreadyExists
      | none => .ok (fs.put (here ++ [name]) .directory)

/-- Makes the first of some directories, of which each lies in the next. The outer ones are made only
if they are missing, and what is made stays even if a directory further in cannot be made. -/
def makeDirectories (fs : FileSystem) : List Path → FileSystem × Except Obstacle Unit
  | [] => (fs, .ok ())
  | path :: outer =>
    if path = "" then (fs, .ok ())
    else
      match fs.makeDirectory path with
      | .ok made => (made, .ok ())
      | .error .notFound =>
        match fs.makeDirectories outer with
        | (made, .error obstacle) => (made, .error obstacle)
        | (made, .ok ()) =>
          match made.makeDirectory path with
          | .ok made => (made, .ok ())
          | .error obstacle =>
            (made, if made.isDirectory path then .ok () else .error obstacle)
      | .error obstacle => (fs, if fs.isDirectory path then .ok () else .error obstacle)

/-- Writes a whole file, which may be there already. -/
def writeFile (fs : FileSystem) (path : Path) (content : ByteArray) : Except Obstacle FileSystem :=
  match fs.approach path with
  | .error obstacle => .error obstacle
  | .ok (_, none) => .error .isDirectory
  | .ok (here, some (name, slashed)) =>
    if isDots name || slashed then .error .isDirectory
    else if maxNameSize < name.utf8ByteSize then .error .nameTooLong
    else
      match fs.entry? (here ++ [name]) with
      | some .directory => .error .isDirectory
      | _ => .ok (fs.put (here ++ [name]) (.file content))

/-- Takes away a file. -/
def removeFile (fs : FileSystem) (path : Path) : Except Obstacle FileSystem :=
  match fs.approach path with
  | .error obstacle => .error obstacle
  | .ok (_, none) => .error .isDirectory
  | .ok (here, some (name, slashed)) =>
    match fs.entry? (here ++ [name]) with
    | none => .error .notFound
    | some .directory => .error .isDirectory
    | some (.file _) =>
      if slashed then .error .notDirectory
      else .ok { fs with entries := fs.entries.filter (·.1 ≠ here ++ [name]) }

/-- What lies below the working directory, by relative path, in order; directories have a slash at
the end. -/
def contents (fs : FileSystem) : List (Path × Entry) :=
  let below := fs.entries.filterMap fun (location, entry) =>
    match fs.workingDirectory.isPrefixOf? location with
    | some (name :: names) =>
      let path := "/".intercalate (name :: names)
      some (if entry.isDirectory then path ++ "/" else path, entry)
    | _ => none
  below.mergeSort fun a b => !decide (b.1 < a.1)

/-- A file system with nothing but its working directory. -/
def empty : FileSystem :=
  ⟨[(["work"], .directory)], ["work"]⟩

end FileSystem

end StageMonitor

/-! # Paths

A path is a text whose segments are separated by slashes. Segments that are empty or a single dot
lead nowhere; at the start of a path they tell a rooted path, and one that starts here, from others.
-/

namespace StageMonitor

abbrev Path := String

namespace Path

/-- The segments of a path; there is always one, if only an empty one. -/
def segments : List Char → List (List Char)
  | [] => [[]]
  | c :: s =>
    match segments s with
    | [] => []
    | first :: rest => if c = '/' then [] :: first :: rest else (c :: first) :: rest

def idle (segment : List Char) : Bool :=
  segment = [] || segment = ['.']

/-- The start of a path that is never taken off, and the part behind it. -/
def stem : List Char → List Char × List Char
  | '/' :: s => (['/'], s)
  | '.' :: '/' :: s => (['.'], '/' :: s)
  | ['.'] => (['.'], [])
  | s => ([], s)

/-- The directories of a path, given its stem and its other segments, the last one first. The
innermost directory comes first; the empty text stands for the place where the path starts. -/
def directoriesFrom (stem : List Char) : List (List Char) → List Path
  | [] => if stem = ['.'] then [""] else []
  | segment :: rest =>
    if idle segment then directoriesFrom stem rest
    else
      String.ofList (stem ++ List.intercalate ['/'] (rest.dropWhile idle).reverse) ::
        directoriesFrom stem rest

def directories (path : Path) : List Path :=
  let (stem, body) := stem path.toList
  directoriesFrom stem (segments body).reverse

/-- A path inside a directory, unless it is a rooted one. -/
def under (directory path : Path) : Path :=
  if path.toList.head? = some '/' then path
  else if directory.toList.getLast?.all (· = '/') then directory ++ path
  else directory ++ "/" ++ path

end Path

end StageMonitor

import StageMonitor.Json.Value

/-! # Layouts of a document

A value is written either compactly, with no blank between tokens, or pretty, one item a line and
two spaces a level. Members are written in the order in which the value holds them.
-/

namespace StageMonitor.Json

namespace Value

mutual

def compact : Value → List Char
  | scalar a => a.text
  | array vs => '[' :: List.intercalate [','] (compactItems vs) ++ [']']
  | object ms => '\x7b' :: List.intercalate [','] (compactMembers ms) ++ ['\x7d']

def compactItems : List Value → List (List Char)
  | [] => []
  | v :: vs => v.compact :: compactItems vs

def compactMembers : List Member → List (List Char)
  | [] => []
  | (key, v) :: ms => (stringText key ++ ':' :: v.compact) :: compactMembers ms

end

def newLine (level : Nat) : List Char :=
  '\n' :: List.replicate (2 * level) ' '

/-- The lines between two brackets, or the bare brackets if there are none. -/
def bracketed (opening closing : Char) (level : Nat) (entries : List (List Char)) : List Char :=
  if entries = [] then [opening, closing]
  else opening :: newLine (level + 1) ++
    List.intercalate (',' :: newLine (level + 1)) entries ++ newLine level ++ [closing]

mutual

def prettyAt (level : Nat) : Value → List Char
  | scalar a => a.text
  | array vs => bracketed '[' ']' level (prettyItems (level + 1) vs)
  | object ms => bracketed '\x7b' '\x7d' level (prettyMembers (level + 1) ms)

def prettyItems (level : Nat) : List Value → List (List Char)
  | [] => []
  | v :: vs => v.prettyAt level :: prettyItems level vs

def prettyMembers (level : Nat) : List Member → List (List Char)
  | [] => []
  | (key, v) :: ms => (stringText key ++ [':', ' '] ++ v.prettyAt level) :: prettyMembers level ms

end

def pretty (v : Value) : List Char :=
  v.prettyAt 0

def compactText (v : Value) : String :=
  String.ofList v.compact

/-- What a file that stores `v` holds: the pretty text and a line feed. -/
def fileText (v : Value) : String :=
  String.ofList (v.pretty ++ ['\n'])

end Value

end StageMonitor.Json

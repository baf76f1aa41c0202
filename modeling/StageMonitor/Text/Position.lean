/-! # Positions in a text

Lines count from one. The column is the number of bytes read since the last line feed, so a position
may lie inside a character.
-/

namespace StageMonitor.Text

structure Position where
  line : Nat
  column : Nat
  deriving DecidableEq, Repr

def byteLength (s : List Char) : Nat :=
  s.foldr (fun c n => c.utf8Size + n) 0

namespace Position

def start : Position := ⟨1, 0⟩

def step (p : Position) (bytes : Nat) (c : Char) : Position :=
  if c = '\n' then ⟨p.line + 1, 0⟩ else ⟨p.line, p.column + min bytes c.utf8Size⟩

/-- The position after the first `bytes` bytes of a text that starts at `p`. -/
def advance (p : Position) : Nat → List Char → Position
  | 0, _ => p
  | _, [] => p
  | bytes + 1, c :: s => (p.step (bytes + 1) c).advance (bytes + 1 - c.utf8Size) s

end Position

end StageMonitor.Text

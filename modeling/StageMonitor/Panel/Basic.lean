import StageMonitor.Panel.Style

/-! # Panels

A panel charts its targets at a place of the grid. The panels of a stage stand side by side, each
one panel height below its left neighbour, in a band of rows that the stage has for itself.
-/

namespace StageMonitor

inductive MeasureUnit
  | milliseconds
  | bytes
  | count
  deriving DecidableEq, Repr

def MeasureUnit.name : MeasureUnit → String
  | milliseconds => "ms"
  | bytes => "bytes"
  | count => "count"

structure Target where
  expression : String
  legend : String
  reference : String
  deriving DecidableEq, Repr

structure GridPosition where
  height : Nat
  width : Nat
  x : Nat
  y : Nat
  deriving DecidableEq, Repr

namespace GridPosition

def panelHeight : Nat := 6

def panelWidth : Nat := 8

def ofSlot (row column : Nat) : Except Violation GridPosition :=
  if column < panelsPerStage then
    .ok ⟨panelHeight, panelWidth, column * panelWidth,
      row * (panelHeight * panelsPerStage) + column * panelHeight⟩
  else .error (.columnOutOfRange column)

end GridPosition

structure Panel where
  id : Nat
  title : String
  position : GridPosition
  unit : MeasureUnit
  style : Style
  targets : List Target
  id_pos : 0 < id
  title_ne : title ≠ ""
  targets_ne : targets ≠ []

namespace Panel

/-- The panel in a slot, or the first rule that it breaks: a title, an id, targets, a column. -/
def create (row column : Nat) (title : String) (targets : List Target) (unit : MeasureUnit)
    (id : Nat) (style : Style) : Except Violation Panel :=
  if title_ne : title = "" then .error (.emptyTitle id)
  else if id_pos : id = 0 then .error (.zeroId title)
  else if targets_ne : targets = [] then .error (.noTargets title)
  else
    match GridPosition.ofSlot row column with
    | .error violation => .error violation
    | .ok position =>
      .ok ⟨id, title, position, unit, style, targets, Nat.pos_of_ne_zero id_pos, title_ne,
        targets_ne⟩

end Panel

/-- A panel to be created, with the changes that make its style. -/
structure PanelRequest where
  row : Nat
  column : Nat
  title : String
  targets : List Target
  unit : MeasureUnit
  id : Nat
  changes : List StyleChange
  deriving DecidableEq, Repr

def PanelRequest.panel (request : PanelRequest) : Except Violation Panel :=
  match Style.initial.changeAll request.changes with
  | .error violation => .error violation
  | .ok style =>
    Panel.create request.row request.column request.title request.targets request.unit request.id
      style

end StageMonitor

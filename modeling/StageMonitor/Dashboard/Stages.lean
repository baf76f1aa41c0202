import StageMonitor.Dashboard.Basic
import StageMonitor.Panel.Family

/-! # The dashboard of a catalog

One band of rows for each stage in catalog order, with a panel for each family. Panels are numbered
from one.
-/

namespace StageMonitor

/-- The panels of a stage for some families, the first with the given id. -/
def bandPanels (row : Nat) (stage : Stage) (id : Nat) :
    List Family → Except Violation (List Panel)
  | [] => .ok []
  | family :: families =>
    match family.panel row stage id with
    | .error violation => .error violation
    | .ok panel =>
      match bandPanels row stage (id + 1) families with
      | .error violation => .error violation
      | .ok panels => .ok (panel :: panels)

/-- The panels of some stages, the first in the given row and with the given id. -/
def stagePanels (row id : Nat) : List Stage → Except Violation (List Panel)
  | [] => .ok []
  | stage :: stages =>
    match bandPanels row stage id Family.all with
    | .error violation => .error violation
    | .ok band =>
      match stagePanels (row + 1) (id + band.length) stages with
      | .error violation => .error violation
      | .ok panels => .ok (band ++ panels)

def Metadata.stages : Metadata where
  title := "Challenge Stage Processing Metrics"
  uid := "challenge-stage-processing-metrics"
  tags := ["metrics", "challenge-server", "stage"]
  refresh := "10s"
  timeFrom := "now-3h"
  timeTo := "now"

def Dashboard.ofStages (stages : List Stage) : Except Violation Dashboard :=
  match stagePanels 0 1 stages with
  | .error violation => .error violation
  | .ok panels => create .stages panels

end StageMonitor

import StageMonitor.Catalog.Report
import StageMonitor.Json.Fault
import StageMonitor.Storage.FileSystem
import StageMonitor.Violation

/-! # Failures

The causes for which a run comes to nothing.
-/

namespace StageMonitor

open Text

inductive Operation
  | read
  | createDirectory
  | create
  deriving DecidableEq, Repr

def Operation.name : Operation → String
  | read => "read"
  | createDirectory => "create directory"
  | create => "create"

inductive Failure
  | storage (operation : Operation) (path : Path) (obstacle : Obstacle)
  | malformed (rejection : Json.Rejection)
  | invalidCatalog (catalog : Catalog) (report : Report)
  | outOfDate (path : Path)
  | violation (violation : Violation)

namespace Failure

def message (wording : Wording := .plain) : Failure → String
  | storage operation path obstacle =>
    "Failed to " ++ operation.name ++ " " ++ quoted path ++ ": " ++ obstacle.message
  | malformed rejection => rejection.message
  | invalidCatalog _ report => report.message wording
  | outOfDate path =>
    "Dashboard file " ++ quoted path ++
      " is out of date. To update it, run: cargo run --bin stage_dashboard_generator -q"
  | violation v => v.message

end Failure

end StageMonitor

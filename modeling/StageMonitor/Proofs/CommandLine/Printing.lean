import StageMonitor.CommandLine.Run
import StageMonitor.Proofs.Catalog.Wording

/-! # What is printed of a run

The events of a run are printed one to a line. Two runs with the same events print the same lines,
unless a catalog with an empty id or label is reported. Then they agree in everything but the order
of what has none in the report.
-/

namespace StageMonitor

/-- Two printed lines are the same, or they report the same faults, one of them an empty text. -/
inductive Reworded : String → String → Prop
  | same (line : String) : Reworded line line
  | report {report : Report} {text text' : String} : report.hasEmpty = true →
      report.Worded text → report.Worded text' →
      Reworded ("ERROR " ++ Event.consoleText text) ("ERROR " ++ Event.consoleText text')

namespace Event

variable (wording wording' : Wording)

theorem line_invalidCatalog (catalog : Catalog) (report : Report) :
    (failed (.invalidCatalog catalog report)).line wording =
      "ERROR " ++ consoleText (report.message wording) := rfl

theorem reworded_line (event : Event) :
    Reworded (event.line wording) (event.line wording') := by
  cases event with
  | failed failure =>
    cases failure with
    | invalidCatalog catalog report =>
      rw [line_invalidCatalog, line_invalidCatalog]
      cases he : report.hasEmpty with
      | true => exact .report he (report.worded_message wording) (report.worded_message wording')
      | false =>
        rw [Report.message_eq_of_hasEmpty he wording wording']
        exact .same _
    | _ => exact .same _
  | _ => exact .same _

theorem forall₂_reworded_line (events : List Event) :
    List.Forall₂ Reworded (events.map (line wording)) (events.map (line wording')) := by
  rw [List.forall₂_map_left_iff, List.forall₂_map_right_iff]
  exact List.forall₂_same.mpr fun event _ => event.reworded_line wording wording'

end Event

end StageMonitor

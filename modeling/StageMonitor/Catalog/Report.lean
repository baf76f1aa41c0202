import StageMonitor.Association
import StageMonitor.Catalog.Basic

/-! # What is wrong with a catalog

Stage ids are put into queries as they are, so they hold only letters, digits and underscores. Ids
and labels are not empty, and no id occurs twice. A repeated id hides every other fault.

The faults of one stage have no order among themselves, and neither have the parameters of a fault.
In the text of a report they come in an order that is drawn anew for every run.
-/

namespace StageMonitor

inductive IdFault
  | empty
  | forbidden (id : String)
  deriving DecidableEq, Repr

structure StageReport where
  id : Option IdFault
  emptyLabel : Bool
  deriving DecidableEq, Repr

/-- The faults of the stages are listed by the index of the stage, in increasing order. -/
inductive Report
  | repeatedId (id : String)
  | stages (faulty : List (Nat × StageReport))
  deriving DecidableEq, Repr

def isIdChar (c : Char) : Bool :=
  c.isAlphanum || c = '_'

def idFault? (id : String) : Option IdFault :=
  if id = "" then some .empty
  else if id.toList.all isIdChar then none
  else some (.forbidden id)

namespace Stage

def report (stage : Stage) : StageReport :=
  ⟨idFault? stage.id, stage.label = ""⟩

def report? (stage : Stage) : Option StageReport :=
  if stage.report = ⟨none, false⟩ then none else some stage.report

end Stage

/-- The reports of the faulty stages, of which the first has index `index`. -/
def faultyFrom (index : Nat) : List Stage → List (Nat × StageReport)
  | [] => []
  | stage :: stages =>
    match stage.report? with
    | some report => (index, report) :: faultyFrom (index + 1) stages
    | none => faultyFrom (index + 1) stages

namespace Catalog

def report? (catalog : Catalog) : Option Report :=
  match repeated? [] (catalog.stages.map Stage.id) with
  | some id => some (.repeatedId id)
  | none =>
    match faultyFrom 0 catalog.stages with
    | [] => none
    | faulty => some (.stages faulty)

end Catalog

/-- A way to list entries that have no order among themselves. -/
structure Arrangement where
  list : List String → List String
  perm : ∀ entries, (list entries).Perm entries

def Arrangement.asWritten : Arrangement :=
  ⟨fun entries => entries, .refl⟩

/-- The order of what has none in a report: the lines about a stage, and the parameters of its
faults, each by the index of the stage. -/
structure Wording where
  lines : Nat → Arrangement
  idParameters : Nat → Arrangement
  labelParameters : Nat → Arrangement

/-- A wording like any other, in which nothing is rearranged. -/
def Wording.plain : Wording :=
  ⟨fun _ => .asWritten, fun _ => .asWritten, fun _ => .asWritten⟩

/-- What an empty text falls short of, and the text itself. -/
def emptyParameters : List String :=
  ["\"min\": Number(1)", "\"value\": String(\"\")"]

def emptyMessage (parameters : Arrangement) : String :=
  "Validation error: length [\x7b" ++ ", ".intercalate (parameters.list emptyParameters) ++ "\x7d]"

namespace IdFault

def message (parameters : Arrangement := .asWritten) : IdFault → String
  | empty => emptyMessage parameters
  | forbidden id => "Invalid stage id: " ++ id

end IdFault

namespace StageReport

/-- The lines about the stage at an index. -/
def lines (wording : Wording) (index : Nat) (report : StageReport) : List String :=
  let place := "stages[" ++ toString index ++ "]."
  (match report.id with
    | some fault => [place ++ "id: " ++ fault.message (wording.idParameters index)]
    | none => []) ++
  if report.emptyLabel then [place ++ "label: " ++ emptyMessage (wording.labelParameters index)]
  else []

def message (wording : Wording) (index : Nat) (report : StageReport) : String :=
  String.join ((wording.lines index).list (report.lines wording index))

def hasEmpty (report : StageReport) : Bool :=
  report.id = some .empty || report.emptyLabel

end StageReport

namespace Report

/-- The messages of the stages follow one another with nothing in between. -/
def message (wording : Wording := .plain) : Report → String
  | repeatedId id => "stages: Repeated stage id: " ++ id
  | stages faulty => String.join (faulty.map fun (index, report) => report.message wording index)

/-- Whether some id or label is empty. -/
def hasEmpty : Report → Bool
  | repeatedId _ => false
  | stages faulty => faulty.any fun (_, report) => report.hasEmpty

end Report

end StageMonitor

/-! # Violations

The rules that every panel and dashboard keeps. Breaking one is a mistake in the program that asks
for the panel, not in its input.
-/

namespace StageMonitor

inductive Violation
  | columnOutOfRange (column : Nat)
  | tooManyQueries (index : Nat)
  | notPercentage (fill : Nat)
  | emptyTitle (id : Nat)
  | zeroId (title : String)
  | noTargets (title : String)
  | repeatedPanel (id : Nat) (dashboard : String)
  deriving DecidableEq, Repr

/-- Each stage has this many panels, one beside the other. -/
def panelsPerStage : Nat := 3

def maxQueries : Nat := 26

namespace Violation

def message : Violation → String
  | columnOutOfRange column =>
    "Column " ++ toString column ++ " is out of range, a stage has " ++ toString panelsPerStage ++
      " panels."
  | tooManyQueries index =>
    "Query index " ++ toString index ++ " exceeds the " ++ toString maxQueries ++ " reference ids."
  | notPercentage fill => "Fill opacity " ++ toString fill ++ " is not a percentage."
  | emptyTitle id => "Panel " ++ toString id ++ " has an empty title."
  | zeroId title => "Panel ids start at 1, got 0 for panel " ++ title ++ "."
  | noTargets title => "Panel " ++ title ++ " has no targets."
  | repeatedPanel id dashboard =>
    "Duplicate panel id found: " ++ toString id ++ " in dashboard " ++ dashboard

end Violation

end StageMonitor

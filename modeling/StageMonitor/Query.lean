import StageMonitor.Metric
import StageMonitor.Violation

/-! # Queries

The expressions that panels chart. The id of the stage is put between quotes as it is.
-/

namespace StageMonitor

inductive Quantile
  | p90
  | p50
  deriving DecidableEq, Repr

namespace Quantile

def fraction : Quantile → String
  | p90 => "0.9"
  | p50 => "0.5"

def suffix : Quantile → String
  | p90 => "p90"
  | p50 => "p50"

/-- The quantiles that are charted of each histogram, the highest first. -/
def charted : List Quantile :=
  [p90, p50]

end Quantile

namespace Query

/-- The time over which rates and increases are taken. -/
def window : String := "30m"

def selector (metric stage : String) : String :=
  metric ++ "\x7bstage=\"" ++ stage ++ "\"\x7d"

def quantile (q : Quantile) (metric : Histogram) (stage window : String) : String :=
  "histogram_quantile(" ++ q.fraction ++ ", sum by (le) (rate(" ++
    selector metric.bucketName stage ++ "[" ++ window ++ "])))"

def increase (metric : Counter) (stage window : String) : String :=
  "sum(increase(" ++ selector metric.name stage ++ "[" ++ window ++ "]))"

/-- Queries of a panel are told apart by capital letters. -/
def reference (index : Nat) : Except Violation String :=
  if index < maxQueries then .ok (String.singleton (Char.ofNat ('A'.toNat + index)))
  else .error (.tooManyQueries index)

end Query

end StageMonitor

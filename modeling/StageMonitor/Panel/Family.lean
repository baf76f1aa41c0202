import StageMonitor.Catalog.Basic
import StageMonitor.Panel.Basic
import StageMonitor.Query

/-! # Families of metrics

Every stage has one panel for each family. A family knows its column, its series and its looks.
-/

namespace StageMonitor

/-- A series by its legend and its expression. -/
structure Series where
  legend : String
  expression : String
  deriving DecidableEq, Repr

/-- Gives the series reference ids in turn, from the one at `index` on. -/
def targetsFrom (index : Nat) : List Series → Except Violation (List Target)
  | [] => .ok []
  | s :: rest =>
    match Query.reference index with
    | .error violation => .error violation
    | .ok reference =>
      match targetsFrom (index + 1) rest with
      | .error violation => .error violation
      | .ok targets => .ok (⟨s.expression, s.legend, reference⟩ :: targets)

def targetsOf (series : List Series) : Except Violation (List Target) :=
  targetsFrom 0 series

/-- The charted quantiles of a histogram. -/
def quantileSeries (name : String) (metric : Histogram) (stage : Stage) : List Series :=
  Quantile.charted.map fun q =>
    ⟨name ++ " " ++ q.suffix, Query.quantile q metric stage.id Query.window⟩

def increaseSeries (name : String) (metric : Counter) (stage : Stage) : Series :=
  ⟨name, Query.increase metric stage.id Query.window⟩

inductive Family
  | latency
  | payload
  | issues
  deriving DecidableEq, Repr

namespace Family

/-- In the order of their columns. -/
def all : List Family :=
  [latency, payload, issues]

def name : Family → String
  | latency => "Latency"
  | payload => "Payload"
  | issues => "Issues"

def column : Family → Nat
  | latency => 0
  | payload => 1
  | issues => 2

def title : Family → String
  | latency => "latencies"
  | payload => "average per-client payload"
  | issues => "merge issues"

def unit : Family → MeasureUnit
  | latency => .milliseconds
  | payload => .bytes
  | issues => .count

def series (stage : Stage) : Family → List Series
  | latency =>
    quantileSeries "processing" .stageProcessing stage ++ quantileSeries "merge" .merge stage
  | payload => quantileSeries "payload" .clientPayload stage
  | issues =>
    [increaseSeries "merge alerts" .mergeAlerts stage,
      increaseSeries "client anomalies" .clientAnomalies stage]

def style : Family → Style
  | latency =>
    Style.initial.withColors
      [("processing p90", .orange), ("processing p50", .semiDarkGreen), ("merge p90", .darkBlue),
        ("merge p50", .semiDarkPurple)]
  | payload =>
    (Style.initial.withFill 10 (by decide)).withColors
      [("payload p90", .lightRed), ("payload p50", .darkGreen)]
  | issues =>
    (Style.initial.withFill 15 (by decide)).stacked.linear.withColors
      [("merge alerts", .semiDarkRed), ("client anomalies", .semiDarkYellow)]

def panel (family : Family) (row : Nat) (stage : Stage) (id : Nat) : Except Violation Panel :=
  match targetsOf (family.series stage) with
  | .error violation => .error violation
  | .ok targets =>
    Panel.create row family.column
      (stage.label ++ " " ++ family.title ++ " (" ++ Query.window ++ ")") targets family.unit id
      family.style

end Family

end StageMonitor

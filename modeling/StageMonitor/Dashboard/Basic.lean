import StageMonitor.Panel.Document

/-! # Dashboards

A dashboard is a list of panels with different ids, and what is told about it as a whole.
-/

namespace StageMonitor

open Json

structure Metadata where
  title : String
  uid : String
  tags : List String
  refresh : String
  timeFrom : String
  timeTo : String
  deriving DecidableEq, Repr

structure Dashboard where
  metadata : Metadata
  panels : List Panel
  ids_nodup : (panels.map Panel.id).Nodup

namespace Dashboard

def create (metadata : Metadata) (panels : List Panel) : Except Violation Dashboard :=
  match h : repeated? [] (panels.map Panel.id) with
  | some id => .error (.repeatedPanel id metadata.title)
  | none => .ok ⟨metadata, panels, nodup_of_repeated? h⟩

/-- The annotations that every dashboard shows. -/
def annotationLayer : Value :=
  .object
    [("builtIn", .nat 1),
     ("datasource", sourceJson "grafana" "-- Grafana --"),
     ("enable", .bool true),
     ("hide", .bool true),
     ("iconColor", .string "rgba(0, 211, 255, 1)"),
     ("name", .string "Annotations & Alerts"),
     ("type", .string "dashboard")]

/-- The variable that stands for the source of the metrics. -/
def sourceVariable : Value :=
  .object
    [("current", .object [("text", .string "Prometheus"), ("value", .string "Prometheus")]),
     ("name", .string "DS_PROMETHEUS"),
     ("options", .array []),
     ("query", .string "prometheus"),
     ("refresh", .nat 1),
     ("type", .string "datasource")]

def toJson (dashboard : Dashboard) : Value :=
  let metadata := dashboard.metadata
  .object
    [("annotations", .object [("list", .array [annotationLayer])]),
     ("editable", .bool true),
     ("fiscalYearStartMonth", .nat 0),
     ("graphTooltip", .nat 0),
     ("id", .null),
     ("links", .array []),
     ("panels", .array (dashboard.panels.map Panel.toJson)),
     ("preload", .bool false),
     ("refresh", .string metadata.refresh),
     ("schemaVersion", .nat 42),
     ("tags", .array (metadata.tags.map Value.string)),
     ("templating", .object [("list", .array [sourceVariable])]),
     ("time", .object [("from", .string metadata.timeFrom), ("to", .string metadata.timeTo)]),
     ("timepicker", .object []),
     ("timezone", .string ""),
     ("title", .string metadata.title),
     ("uid", .string metadata.uid),
     ("version", .nat 1)]

end Dashboard

/-- The panels of some requests in order, or the first rule that one of them breaks. -/
def createPanels : List PanelRequest → Except Violation (List Panel)
  | [] => .ok []
  | request :: requests =>
    match request.panel with
    | .error violation => .error violation
    | .ok panel =>
      match createPanels requests with
      | .error violation => .error violation
      | .ok panels => .ok (panel :: panels)

def Dashboard.ofRequests (metadata : Metadata) (requests : List PanelRequest) :
    Except Violation Dashboard :=
  match createPanels requests with
  | .error violation => .error violation
  | .ok panels => create metadata panels

end StageMonitor

import StageMonitor.Json.Value
import StageMonitor.Panel.Basic

/-! # Panels as documents -/

namespace StageMonitor

open Json

def Target.toJson (target : Target) : Value :=
  .object [("expr", .string target.expression), ("legendFormat", .string target.legend),
    ("refId", .string target.reference)]

def GridPosition.toJson (position : GridPosition) : Value :=
  .object [("h", .nat position.height), ("w", .nat position.width), ("x", .nat position.x),
    ("y", .nat position.y)]

def mode (name : String) : Value :=
  .object [("mode", .string name)]

/-- A reference to a source of data. -/
def sourceJson (kind uid : String) : Value :=
  .object [("type", .string kind), ("uid", .string uid)]

def metricsSource : Value :=
  sourceJson "prometheus" "$\x7bDS_PROMETHEUS\x7d"

namespace Style

/-- A colour that is pinned to a series, as an override of the defaults. -/
def colorJson (series : String) (color : Color) : Value :=
  .object
    [("matcher", .object [("id", .string "byName"), ("options", .string series)]),
     ("properties", .array
       [.object
         [("id", .string "color"),
          ("value", .object
            [("fixedColor", .string color.name), ("mode", .string "fixed")])]])]

def drawingJson (style : Style) : Value :=
  .object
    [("axisBorderShow", .bool false),
     ("axisCenteredZero", .bool false),
     ("axisColorMode", .string "text"),
     ("axisPlacement", .string "auto"),
     ("barAlignment", .nat 0),
     ("drawStyle", .string "line"),
     ("fillOpacity", .nat style.fill),
     ("gradientMode", .string "none"),
     ("lineInterpolation", .string style.interpolation.name),
     ("lineWidth", .nat 2),
     ("pointSize", .nat 4),
     ("scaleDistribution", .object [("type", .string "linear")]),
     ("showPoints", .string "auto"),
     ("spanNulls", .bool true),
     ("stacking", .object [("group", .string "A"), ("mode", .string style.stacking.name)]),
     ("thresholdsStyle", mode "off")]

def toJson (style : Style) (unit : MeasureUnit) : Value :=
  .object
    [("defaults", .object
       [("color", mode "palette-classic"),
        ("custom", style.drawingJson),
        ("unit", .string unit.name)]),
     ("overrides", .array (style.colors.map fun (series, color) => colorJson series color))]

end Style

def panelOptions : Value :=
  .object
    [("legend", .object
       [("calcs", .array []),
        ("displayMode", .string "list"),
        ("placement", .string "bottom"),
        ("showLegend", .bool true)]),
     ("tooltip", .object [("mode", .string "multi"), ("sort", .string "none")])]

def Panel.toJson (panel : Panel) : Value :=
  .object
    [("datasource", metricsSource),
     ("fieldConfig", panel.style.toJson panel.unit),
     ("gridPos", panel.position.toJson),
     ("id", .nat panel.id),
     ("options", panelOptions),
     ("targets", .array (panel.targets.map Target.toJson)),
     ("title", .string panel.title),
     ("type", .string "timeseries")]

end StageMonitor

import StageMonitor.Proofs.Json.Layout
import StageMonitor.Dashboard.Basic
import StageMonitor.Session

/-! # Dashboards as documents

The document of a dashboard is in canonical form as it is written: every object has its keys in
increasing order, and every number is an integer. Its lists and objects are nested nine deep at
most.
-/

namespace StageMonitor

open Json Json.Value

/-- A property of scalars that holds of all those that dashboards hold, ids and positions apart. -/
structure Plain (q : Scalar → Prop) : Prop where
  null : q .null
  bool : ∀ b, q (.bool b)
  string : ∀ s, q (.string s)
  small : ∀ n : Nat, n ≤ 100 → q (.number (.int n))

section Every

variable {q : Scalar → Prop}

theorem Plain.every_null (h : Plain q) : Value.null.Every Increasing q :=
  .scalar h.null

theorem Plain.every_bool (h : Plain q) (b : Bool) : (Value.bool b).Every Increasing q :=
  .scalar (h.bool b)

theorem Plain.every_string (h : Plain q) (s : String) : (Value.string s).Every Increasing q :=
  .scalar (h.string s)

theorem Plain.every_nat (h : Plain q) {n : Nat} (hn : n ≤ 100) : (nat n).Every Increasing q :=
  .scalar (h.small n hn)

theorem Target.every_toJson (h : Plain q) (target : Target) : target.toJson.Every Increasing q := by
  simp +decide [Target.toJson, h.every_string]

theorem GridPosition.every_toJson {position : GridPosition}
    (hh : q (.number (.int position.height))) (hw : q (.number (.int position.width)))
    (hx : q (.number (.int position.x))) (hy : q (.number (.int position.y))) :
    position.toJson.Every Increasing q := by
  simp +decide [GridPosition.toJson, nat, hh, hw, hx, hy]

theorem every_mode (h : Plain q) (name : String) : (mode name).Every Increasing q := by
  simp +decide [mode, h.every_string]

theorem every_sourceJson (h : Plain q) (kind uid : String) :
    (sourceJson kind uid).Every Increasing q := by
  simp +decide [sourceJson, h.every_string]

namespace Style

theorem every_colorJson (h : Plain q) (series : String) (color : Color) :
    (colorJson series color).Every Increasing q := by
  simp +decide [colorJson, h.every_string]

theorem every_drawingJson (h : Plain q) (style : Style) :
    style.drawingJson.Every Increasing q := by
  simp +decide [drawingJson, h.every_string, h.every_bool, h.every_nat, style.fill_le, every_mode h]

theorem every_toJson (h : Plain q) (style : Style) (unit : MeasureUnit) :
    (style.toJson unit).Every Increasing q := by
  have ho : ∀ v series color, (series, color) ∈ style.colors → colorJson series color = v →
      v.Every Increasing q := by
    rintro _ series color - rfl
    exact every_colorJson h series color
  simpa +decide [toJson, h.every_string, every_mode h, every_drawingJson h] using ho

end Style

theorem every_panelOptions (h : Plain q) : panelOptions.Every Increasing q := by
  simp +decide [panelOptions, h.every_string, h.every_bool]

theorem Panel.every_toJson (h : Plain q) {panel : Panel} (hid : q (.number (.int panel.id)))
    (hp : panel.position.toJson.Every Increasing q) : panel.toJson.Every Increasing q := by
  have ht : (array (panel.targets.map Target.toJson)).Every Increasing q := by
    rw [every_array_iff, List.forall_mem_map]
    exact fun target _ => target.every_toJson h
  simp +decide [toJson, metricsSource, nat, h.every_string, every_sourceJson h,
    every_panelOptions h, Style.every_toJson h, hid, hp, ht, -every_array_iff]

namespace Dashboard

theorem every_annotationLayer (h : Plain q) : annotationLayer.Every Increasing q := by
  simp +decide [annotationLayer, h.every_string, h.every_bool, h.every_nat, every_sourceJson h]

theorem every_sourceVariable (h : Plain q) : sourceVariable.Every Increasing q := by
  simp +decide [sourceVariable, h.every_string, h.every_nat]

theorem every_toJson (h : Plain q) {dashboard : Dashboard}
    (hp : ∀ panel ∈ dashboard.panels, panel.toJson.Every Increasing q) :
    dashboard.toJson.Every Increasing q := by
  simpa +decide [toJson, h.every_null, h.every_string, h.every_bool, h.every_nat,
    every_annotationLayer h, every_sourceVariable h] using hp

end Dashboard

end Every

section Depth

@[simp] theorem depth_null : Value.null.depth = 0 := rfl

@[simp] theorem depth_bool (b : Bool) : (Value.bool b).depth = 0 := rfl

@[simp] theorem depth_nat (n : Nat) : (nat n).depth = 0 := rfl

@[simp] theorem depth_string (s : String) : (string s).depth = 0 := rfl

theorem Style.depth_toJson_le (style : Style) (unit : MeasureUnit) :
    (style.toJson unit).depth ≤ 6 := by
  have ho : ∀ v series color, (series, color) ∈ style.colors → colorJson series color = v →
      v.depth ≤ 4 := by
    rintro _ series color - rfl
    simp [colorJson]
  simpa [toJson, drawingJson, mode] using ho

theorem Panel.depth_toJson_le (panel : Panel) : panel.toJson.depth ≤ 7 := by
  have hs : (panel.style.toJson panel.unit).depth ≤ 6 := panel.style.depth_toJson_le panel.unit
  simp [toJson, metricsSource, sourceJson, GridPosition.toJson, panelOptions, Target.toJson, hs]

theorem Dashboard.depth_toJson_le (dashboard : Dashboard) : dashboard.toJson.depth ≤ 9 := by
  have hp : (array (dashboard.panels.map Panel.toJson)).depth ≤ 8 := by
    rw [depth_array_le_iff, List.forall_mem_map]
    exact fun panel _ => panel.depth_toJson_le
  simp [toJson, annotationLayer, sourceVariable, sourceJson, hp]

end Depth

theorem plain_integral : Plain Scalar.Integral where
  null := trivial
  bool _ := trivial
  string _ := trivial
  small _ _ := trivial

theorem plain_inRange : Plain Scalar.InRange where
  null := trivial
  bool _ := trivial
  string _ := trivial
  small n hn := ⟨by omega, by omega⟩

/-- The id of a panel and the numbers of its position fit into a machine word. -/
def Panel.Fits (panel : Panel) : Prop :=
  panel.id < 2 ^ 64 ∧ panel.position.height < 2 ^ 64 ∧ panel.position.width < 2 ^ 64 ∧
    panel.position.x < 2 ^ 64 ∧ panel.position.y < 2 ^ 64

namespace Dashboard

variable (dashboard : Dashboard)

theorem inRange_of_fits (h : ∀ panel ∈ dashboard.panels, panel.Fits) :
    dashboard.toJson.InRange := by
  refine (every_toJson plain_inRange fun panel hp => ?_).mono (fun _ _ => trivial) fun _ ha => ha
  obtain ⟨hid, hh, hw, hx, hy⟩ := h panel hp
  have hb (n : Nat) (hn : n < 2 ^ 64) : Scalar.InRange (.number (.int n)) := ⟨by omega, by omega⟩
  exact Panel.every_toJson plain_inRange (hb _ hid)
    (GridPosition.every_toJson (hb _ hh) (hb _ hw) (hb _ hx) (hb _ hy))

theorem every_integral_toJson : dashboard.toJson.Every Increasing Scalar.Integral :=
  every_toJson plain_integral fun _ _ =>
    Panel.every_toJson plain_integral trivial
      (GridPosition.every_toJson trivial trivial trivial trivial)

theorem ordered_toJson : dashboard.toJson.Ordered :=
  dashboard.every_integral_toJson.mono (fun _ hk => hk) fun _ _ => trivial

theorem integral_toJson : dashboard.toJson.Integral :=
  dashboard.every_integral_toJson.mono (fun _ _ => trivial) fun _ ha => ha

@[simp] theorem canonical_toJson : dashboard.toJson.canonical = dashboard.toJson :=
  canonical_eq_self_iff.mpr dashboard.ordered_toJson

theorem integral_canonical_toJson : dashboard.toJson.canonical.Integral := by
  rw [canonical_toJson]
  exact dashboard.integral_toJson

theorem depth_toJson_le_depthLimit : dashboard.toJson.depth ≤ depthLimit :=
  dashboard.depth_toJson_le.trans (by decide)

/-- Written as it is or in canonical form, a dashboard has the same text. -/
theorem text_canonical_toJson :
    dashboard.toJson.Ordered ∧
      dashboard.toJson.canonical.compactText = dashboard.toJson.compactText ∧
      dashboard.toJson.canonical.fileText = dashboard.toJson.fileText ∧
      ∀ path : Path,
        Session.dump dashboard.toJson.canonical path = Session.dump dashboard.toJson path := by
  rw [canonical_toJson]
  exact ⟨dashboard.ordered_toJson, rfl, rfl, fun _ => rfl⟩

end Dashboard

end StageMonitor

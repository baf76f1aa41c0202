import StageMonitor.Proofs.Dashboard.Document
import StageMonitor.Proofs.Json.Compact

/-! # Dashboards are read back

The document of a dashboard holds all that is told about the dashboard, each part at a place of its
own, and no two parts are written alike. A decoder looks the parts up and checks that they make a
dashboard.
-/

namespace StageMonitor

open Json

namespace Json.Value

def field? (key : String) : Value → Option Value
  | object ms => Association.get? key ms
  | _ => none

def text? : Value → Option String
  | scalar (.string s) => some s
  | _ => none

def nat? : Value → Option Nat
  | scalar (.number (.int (.ofNat n))) => some n
  | _ => none

def items? {α : Type} (decode : Value → Option α) : Value → Option (List α)
  | array vs => vs.mapM decode
  | _ => none

theorem text?_string (s : String) : (string s).text? = some s := rfl

theorem items?_map {α : Type} {encode : α → Value} {decode : Value → Option α}
    (h : ∀ a, decode (encode a) = some a) (as : List α) :
    (array (as.map encode)).items? decode = some as := by
  unfold items?
  induction as with
  | nil => rfl
  | cons a as ih => simp [List.mapM_cons, h, ih]

end Json.Value

open Json.Value

/-- The first of some values that has a name. -/
def named? {α : Type} (name : α → String) (all : List α) (s : String) : Option α :=
  all.find? fun a => name a = s

theorem Color.named?_name (color : Color) : named? name all color.name = some color := by
  cases color <;> decide

theorem MeasureUnit.named?_name (unit : MeasureUnit) :
    named? name [milliseconds, bytes, count] unit.name = some unit := by
  cases unit <;> decide

theorem Interpolation.named?_name (interpolation : Interpolation) :
    named? name [smooth, linear] interpolation.name = some interpolation := by
  cases interpolation <;> decide

theorem Stacking.named?_name (stacking : Stacking) :
    named? name [none, normal] stacking.name = some stacking := by
  cases stacking <;> decide

def Target.ofJson? (v : Value) : Option Target := do
  let expression ← v.field? "expr" >>= text?
  let legend ← v.field? "legendFormat" >>= text?
  let reference ← v.field? "refId" >>= text?
  return ⟨expression, legend, reference⟩

theorem Target.ofJson?_toJson (target : Target) : ofJson? target.toJson = some target := rfl

def GridPosition.ofJson? (v : Value) : Option GridPosition := do
  let height ← v.field? "h" >>= nat?
  let width ← v.field? "w" >>= nat?
  let x ← v.field? "x" >>= nat?
  let y ← v.field? "y" >>= nat?
  return ⟨height, width, x, y⟩

theorem GridPosition.ofJson?_toJson (position : GridPosition) :
    ofJson? position.toJson = some position := rfl

namespace Style

/-- A pinned colour stands in the only property of an override. -/
def pinOfJson? (v : Value) : Option (String × Color) := do
  let series ← v.field? "matcher" >>= field? "options" >>= text?
  let names ← v.field? "properties" >>= items? fun property =>
    property.field? "value" >>= field? "fixedColor" >>= text?
  let name ← names.head?
  let color ← named? Color.name Color.all name
  return (series, color)

theorem pinOfJson?_colorJson (series : String) (color : Color) :
    pinOfJson? (colorJson series color) = some (series, color) := by
  cases color <;> rfl

def ofJson? (v : Value) : Option Style := do
  let custom ← v.field? "defaults" >>= field? "custom"
  let fill ← custom.field? "fillOpacity" >>= nat?
  let interpolation ← custom.field? "lineInterpolation" >>= text? >>=
    named? Interpolation.name [.smooth, .linear]
  let stacking ← custom.field? "stacking" >>= field? "mode" >>= text? >>=
    named? Stacking.name [.none, .normal]
  let colors ← v.field? "overrides" >>= items? pinOfJson?
  if h : fill ≤ 100 ∧ (Association.keys colors).Nodup then
    return ⟨fill, interpolation, stacking, colors, h.1, h.2⟩
  else none

theorem ofJson?_toJson (style : Style) (unit : MeasureUnit) :
    ofJson? (style.toJson unit) = some style := by
  simp only [ofJson?, Option.bind_eq_bind]
  refine Option.bind_eq_some_iff.mpr ⟨style.drawingJson, rfl, ?_⟩
  refine Option.bind_eq_some_iff.mpr ⟨style.fill, rfl, ?_⟩
  refine Option.bind_eq_some_iff.mpr ⟨_, style.interpolation.named?_name, ?_⟩
  refine Option.bind_eq_some_iff.mpr ⟨_, style.stacking.named?_name, ?_⟩
  refine Option.bind_eq_some_iff.mpr
    ⟨_, items?_map (fun pin => pinOfJson?_colorJson pin.1 pin.2) style.colors, ?_⟩
  exact dif_pos ⟨style.fill_le, style.colors_nodup⟩

end Style

namespace Panel

def ofJson? (v : Value) : Option Panel := do
  let id ← v.field? "id" >>= nat?
  let title ← v.field? "title" >>= text?
  let position ← v.field? "gridPos" >>= GridPosition.ofJson?
  let fields ← v.field? "fieldConfig"
  let unit ← fields.field? "defaults" >>= field? "unit" >>= text? >>=
    named? MeasureUnit.name [.milliseconds, .bytes, .count]
  let style ← Style.ofJson? fields
  let targets ← v.field? "targets" >>= items? Target.ofJson?
  if h : 0 < id ∧ title ≠ "" ∧ targets ≠ [] then
    return ⟨id, title, position, unit, style, targets, h.1, h.2.1, h.2.2⟩
  else none

theorem ofJson?_toJson (panel : Panel) : ofJson? panel.toJson = some panel := by
  simp only [ofJson?, Option.bind_eq_bind]
  refine Option.bind_eq_some_iff.mpr ⟨panel.id, rfl, ?_⟩
  refine Option.bind_eq_some_iff.mpr ⟨panel.title, rfl, ?_⟩
  refine Option.bind_eq_some_iff.mpr ⟨_, panel.position.ofJson?_toJson, ?_⟩
  refine Option.bind_eq_some_iff.mpr ⟨panel.style.toJson panel.unit, rfl, ?_⟩
  refine Option.bind_eq_some_iff.mpr ⟨_, panel.unit.named?_name, ?_⟩
  refine Option.bind_eq_some_iff.mpr ⟨_, panel.style.ofJson?_toJson panel.unit, ?_⟩
  refine Option.bind_eq_some_iff.mpr ⟨_, items?_map Target.ofJson?_toJson panel.targets, ?_⟩
  exact dif_pos ⟨panel.id_pos, panel.title_ne, panel.targets_ne⟩

end Panel

def Metadata.ofJson? (v : Value) : Option Metadata := do
  let title ← v.field? "title" >>= text?
  let uid ← v.field? "uid" >>= text?
  let tags ← v.field? "tags" >>= items? text?
  let refresh ← v.field? "refresh" >>= text?
  let time ← v.field? "time"
  let timeFrom ← time.field? "from" >>= text?
  let timeTo ← time.field? "to" >>= text?
  return ⟨title, uid, tags, refresh, timeFrom, timeTo⟩

namespace Dashboard

theorem metadata_ofJson?_toJson (dashboard : Dashboard) :
    Metadata.ofJson? dashboard.toJson = some dashboard.metadata := by
  have ht := items?_map text?_string dashboard.metadata.tags
  simp only [Metadata.ofJson?, Option.bind_eq_bind]
  refine Option.bind_eq_some_iff.mpr ⟨dashboard.metadata.title, rfl, ?_⟩
  refine Option.bind_eq_some_iff.mpr ⟨dashboard.metadata.uid, rfl, ?_⟩
  refine Option.bind_eq_some_iff.mpr ⟨dashboard.metadata.tags, ht, ?_⟩
  rfl

def ofJson? (v : Value) : Option Dashboard := do
  let metadata ← Metadata.ofJson? v
  let panels ← v.field? "panels" >>= items? Panel.ofJson?
  if h : (panels.map Panel.id).Nodup then return ⟨metadata, panels, h⟩ else none

theorem ofJson?_toJson (dashboard : Dashboard) :
    ofJson? dashboard.toJson = some dashboard := by
  simp only [ofJson?, Option.bind_eq_bind]
  refine Option.bind_eq_some_iff.mpr ⟨_, dashboard.metadata_ofJson?_toJson, ?_⟩
  refine Option.bind_eq_some_iff.mpr ⟨_, items?_map Panel.ofJson?_toJson dashboard.panels, ?_⟩
  exact dif_pos dashboard.ids_nodup

/-- Reads a dashboard from a text. -/
def ofText? (text : String) : Option Dashboard :=
  (Value.ofDocument text).toOption.bind ofJson?

theorem ofText?_compactText (dashboard : Dashboard)
    (h : ∀ panel ∈ dashboard.panels, panel.Fits) :
    ofText? dashboard.toJson.compactText = some dashboard := by
  have hd := Value.isDocument_compactText (dashboard.inRange_of_fits h)
    dashboard.depth_toJson_le_depthLimit
  have ho := Value.ofDocument_eq_ok_iff.mpr ⟨_, hd, dashboard.canonical_toJson⟩
  rw [ofText?, ho]
  exact dashboard.ofJson?_toJson

/-- The compact text of a dashboard tells everything about it. Whatever value has that text, the
dashboard can be recovered from it; and it can be read from the text itself if its numbers are machine
words, since larger ones are not read as integers. -/
theorem compactText_lossless :
    (∀ d e : Dashboard, d.toJson.compactText = e.toJson.compactText ↔
      d.metadata = e.metadata ∧ d.panels = e.panels) ∧
    (∀ (d : Dashboard) (v : Value), v.Integral → v.compactText = d.toJson.compactText →
      ofJson? v = some d) ∧
    ∀ d : Dashboard, (∀ panel ∈ d.panels, panel.Fits) →
      ofText? d.toJson.compactText = some d := by
  have hrecover (d : Dashboard) (v : Value) (hv : v.Integral)
      (h : v.compactText = d.toJson.compactText) : ofJson? v = some d := by
    rw [Value.eq_of_compactText_eq hv d.integral_toJson h]
    exact d.ofJson?_toJson
  refine ⟨fun d e => ?_, hrecover, fun d => d.ofText?_compactText⟩
  constructor
  · intro h
    have hd := hrecover e d.toJson d.integral_toJson h
    obtain rfl : d = e := Option.some.inj (d.ofJson?_toJson.symm.trans hd)
    exact ⟨rfl, rfl⟩
  · rintro ⟨hm, hp⟩
    obtain rfl : d = e := by
      cases d
      cases e
      cases hm
      cases hp
      rfl
    rfl

/-- A tag that imitates two tags, and a title that imitates the start of another panel. -/
theorem compactText_lossless_imitation :
    let panel : Panel :=
      ⟨7, "\"\x7d,\x7b\"id\":8", ⟨6, 8, 8, 6⟩, .bytes, Style.initial.withColor "merge p90" .darkBlue,
        [⟨"up", "", "A"⟩], by decide, by decide, by decide⟩
    let tagged (tags : List String) : Dashboard := ⟨⟨"", "", tags, "", "", ""⟩, [panel], by simp⟩
    let single := tagged ["a\",\"b"]
    let split := tagged ["a", "b"]
    single.toJson.compactText ≠ split.toJson.compactText ∧
      ofText? single.toJson.compactText = some single ∧
      ofText? split.toJson.compactText = some split := by
  intro panel tagged single split
  have hfits : panel.Fits := by simp [Panel.Fits, panel]
  obtain ⟨heq, -, hread⟩ := compactText_lossless
  refine ⟨fun h => ?_, hread single (by simpa [single, tagged] using hfits),
    hread split (by simpa [split, tagged] using hfits)⟩
  have htags := congrArg Metadata.tags ((heq single split).mp h).1
  revert htags
  decide

end Dashboard

end StageMonitor

import StageMonitor.Dashboard.Stages
import StageMonitor.Proofs.Panel.Targets

/-! # Panels of a catalog

A catalog always has a dashboard. Its panels are charted in bands, one for each stage, and they are
told apart by consecutive ids.
-/

namespace StageMonitor

/-- What a panel that was created holds. -/
theorem Panel.create_eq_ok {row column id : Nat} {title : String} {targets : List Target}
    {unit : MeasureUnit} {style : Style} {panel : Panel}
    (h : create row column title targets unit id style = .ok panel) :
    panel.id = id ∧ panel.title = title ∧ panel.targets = targets ∧ panel.unit = unit ∧
      panel.style = style ∧ GridPosition.ofSlot row column = .ok panel.position := by
  unfold create at h
  split at h
  · cases h
  split at h
  · cases h
  split at h
  · cases h
  split at h
  · cases h
  next hp =>
    cases h
    exact ⟨rfl, rfl, rfl, rfl, rfl, hp⟩

namespace Family

theorem length_series_le (family : Family) (stage : Stage) :
    (family.series stage).length ≤ maxQueries := by
  cases family <;> simp [series, quantileSeries, Quantile.charted, maxQueries]

theorem series_ne_nil (family : Family) (stage : Stage) : family.series stage ≠ [] := by
  cases family <;> exact List.cons_ne_nil _ _

theorem targetsOf_series (family : Family) (stage : Stage) :
    targetsOf (family.series stage) = .ok (targetsAt 0 (family.series stage)) :=
  targetsOf_eq_ok_iff.mpr ⟨family.length_series_le stage, rfl⟩

theorem column_lt (family : Family) : family.column < panelsPerStage := by
  cases family <;> decide

def heading (family : Family) (stage : Stage) : String :=
  stage.label ++ " " ++ family.title ++ " (" ++ Query.window ++ ")"

theorem heading_ne (family : Family) (stage : Stage) : family.heading stage ≠ "" := by
  simp [heading]

/-- The panel that a stage in a row has for a family. -/
def chart (family : Family) (row : Nat) (stage : Stage) : Panel where
  id := panelsPerStage * row + family.column + 1
  title := family.heading stage
  position :=
    ⟨GridPosition.panelHeight, GridPosition.panelWidth, family.column * GridPosition.panelWidth,
      row * (GridPosition.panelHeight * panelsPerStage) + family.column * GridPosition.panelHeight⟩
  unit := family.unit
  style := family.style
  targets := targetsAt 0 (family.series stage)
  id_pos := Nat.succ_pos _
  title_ne := family.heading_ne stage
  targets_ne := by
    obtain ⟨s, rest, hs⟩ := List.exists_cons_of_ne_nil (family.series_ne_nil stage)
    rw [hs]
    exact List.cons_ne_nil _ _

theorem panel_eq_ok (family : Family) (row : Nat) (stage : Stage) :
    family.panel row stage (panelsPerStage * row + family.column + 1) =
      .ok (family.chart row stage) := by
  rw [panel, targetsOf_series]
  have hne := (family.chart row stage).title_ne
  have hts := (family.chart row stage).targets_ne
  simp only [chart, heading] at hne hts
  simp only [Panel.create, dif_neg hne, dif_neg hts, GridPosition.ofSlot, if_pos family.column_lt]
  rfl

end Family

/-- The panels of a stage. -/
def band (row : Nat) (stage : Stage) : List Panel :=
  Family.all.map fun family => family.chart row stage

theorem length_band (row : Nat) (stage : Stage) : (band row stage).length = panelsPerStage := rfl

/-- The id after those of a stage is the first one of the next row. -/
theorem add_length_band (row : Nat) (stage : Stage) :
    panelsPerStage * row + 1 + (band row stage).length = panelsPerStage * (row + 1) + 1 := by
  rw [length_band, Nat.mul_succ, Nat.add_right_comm]

/-- The panels of some stages, the first in the given row. -/
def bands (row : Nat) : List Stage → List Panel
  | [] => []
  | stage :: stages => band row stage ++ bands (row + 1) stages

theorem bandPanels_eq_ok (row : Nat) (stage : Stage) :
    bandPanels row stage (panelsPerStage * row + 1) Family.all = .ok (band row stage) := by
  have hl := Family.latency.panel_eq_ok row stage
  have hp := Family.payload.panel_eq_ok row stage
  have hi := Family.issues.panel_eq_ok row stage
  simp only [Family.column, Nat.add_zero] at hl hp hi
  simp only [Family.all, bandPanels, hl, hp, hi]
  rfl

theorem stagePanels_eq_ok (row : Nat) (stages : List Stage) :
    stagePanels row (panelsPerStage * row + 1) stages = .ok (bands row stages) := by
  induction stages generalizing row with
  | nil => rfl
  | cons stage stages ih =>
    rw [stagePanels, bandPanels_eq_ok]
    simp only [add_length_band, ih]
    rfl

theorem ids_bands (row : Nat) (stages : List Stage) :
    (bands row stages).map Panel.id =
      List.range' (panelsPerStage * row + 1) (panelsPerStage * stages.length) := by
  induction stages generalizing row with
  | nil => rfl
  | cons stage stages ih =>
    have hl : panelsPerStage * (stages.length + 1) =
        panelsPerStage * stages.length + 1 + 1 + 1 := rfl
    rw [bands, List.map_append, ih, List.length_cons, hl, List.range'_succ, List.range'_succ,
      List.range'_succ]
    rfl

/-- A panel belongs to the stage in its row. -/
theorem exists_chart_of_getElem? {row i : Nat} {stages : List Stage} {panel : Panel}
    (h : (bands row stages)[i]? = some panel) :
    ∃ stage family, stages[i / panelsPerStage]? = some stage ∧
      Family.all[i % panelsPerStage]? = some family ∧
      panel = family.chart (row + i / panelsPerStage) stage := by
  induction stages generalizing row i with
  | nil => simp [bands] at h
  | cons stage stages ih =>
    rw [bands] at h
    rcases Nat.lt_or_ge i panelsPerStage with hi | hi
    · rw [List.getElem?_append_left (by rwa [length_band]), band, List.getElem?_map,
        Option.map_eq_some_iff] at h
      obtain ⟨family, hf, rfl⟩ := h
      rw [Nat.div_eq_of_lt hi, Nat.mod_eq_of_lt hi]
      exact ⟨stage, family, rfl, hf, rfl⟩
    · rw [List.getElem?_append_right (by rwa [length_band]), length_band] at h
      obtain ⟨stage', family, hs, hf, rfl⟩ := ih h
      have hd : i / panelsPerStage = (i - panelsPerStage) / panelsPerStage + 1 :=
        Nat.div_eq_sub_div (by decide) hi
      rw [hd, Nat.mod_eq_sub_mod hi]
      exact ⟨stage', family, hs, hf, by rw [Nat.add_right_comm, Nat.add_assoc]⟩

namespace Dashboard

theorem create_eq_ok {metadata : Metadata} {panels : List Panel}
    (h : (panels.map Panel.id).Nodup) : create metadata panels = .ok ⟨metadata, panels, h⟩ := by
  have hr := repeated?_of_nodup h
  unfold create
  split
  next hs => rw [hr] at hs; cases hs
  · rfl

def ofBands (stages : List Stage) : Dashboard where
  metadata := .stages
  panels := bands 0 stages
  ids_nodup := ids_bands 0 stages ▸ List.nodup_range'

@[simp] theorem panels_ofBands (stages : List Stage) : (ofBands stages).panels = bands 0 stages :=
  rfl

theorem ofStages_eq_ok (stages : List Stage) : ofStages stages = .ok (ofBands stages) := by
  rw [ofStages, show 1 = panelsPerStage * 0 + 1 from rfl, stagePanels_eq_ok]
  exact create_eq_ok _

end Dashboard

end StageMonitor

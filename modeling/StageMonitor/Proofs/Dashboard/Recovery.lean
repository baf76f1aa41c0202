import StageMonitor.Proofs.Dashboard.Bands
import StageMonitor.Proofs.Dashboard.Document

/-! # Stages are recovered from documents

The document of a catalog's dashboard tells all its stages: a title starts with the label of its
stage, and a query holds the id. Unless there are too many stages, it can also be read back.
-/

namespace StageMonitor

open Json Json.Value

theorem Target.eq_of_toJson_eq {target target' : Target} (h : target.toJson = target'.toJson) :
    target = target' := by
  obtain ⟨expression, legend, reference⟩ := target
  simp only [toJson, string, object.injEq, scalar.injEq, Scalar.string.injEq, List.cons.injEq,
    Prod.mk.injEq, true_and, and_true] at h
  obtain ⟨rfl, rfl, rfl⟩ := h
  rfl

theorem Panel.title_targets_of_toJson_eq {panel panel' : Panel} (h : panel.toJson = panel'.toJson) :
    panel.title = panel'.title ∧ panel.targets = panel'.targets := by
  simp only [toJson, string, object.injEq, array.injEq, scalar.injEq, Scalar.string.injEq,
    List.cons.injEq, Prod.mk.injEq, true_and, and_true] at h
  obtain ⟨-, -, -, ht, hn⟩ := h
  exact ⟨hn, (List.map_inj_right fun _ _ => Target.eq_of_toJson_eq).mp ht⟩

theorem Query.eq_of_quantile_eq {q : Quantile} {metric : Histogram} {stage stage' window : String}
    (h : quantile q metric stage window = quantile q metric stage' window) : stage = stage' := by
  unfold quantile selector at h
  rw [String.append_left_inj, String.append_left_inj, String.append_left_inj,
    String.append_right_inj, String.append_left_inj, String.append_right_inj] at h
  exact h

/-- The label is the start of a title, and the id is told by the first query. -/
theorem stage_eq_of_toJson_eq {row row' : Nat} {stage stage' : Stage}
    (h : (Family.latency.chart row stage).toJson = (Family.latency.chart row' stage').toJson) :
    stage = stage' := by
  obtain ⟨ht, hs⟩ := Panel.title_targets_of_toJson_eq h
  have hl : stage.label = stage'.label := by
    simpa only [Family.chart, Family.heading, String.append_left_inj] using ht
  -- The first target charts a quantile, which is the id between two fixed texts.
  have he := congrArg (fun targets => targets.head?.map Target.expression) hs
  have hid : stage.id = stage'.id := Query.eq_of_quantile_eq (Option.some.inj he)
  obtain ⟨id, label⟩ := stage
  exact congrArg₂ Stage.mk hid hl

theorem stages_eq_of_bands_toJson_eq {row row' : Nat} {s t : List Stage}
    (h : (bands row s).map Panel.toJson = (bands row' t).map Panel.toJson) : s = t := by
  induction s generalizing row row' t with
  | nil =>
    cases t with
    | nil => rfl
    | cons stage t => cases h
  | cons stage s ih =>
    cases t with
    | nil => cases h
    | cons stage' t =>
      rw [bands, bands, List.map_append, List.map_append] at h
      obtain ⟨hb, hbs⟩ := List.append_inj h (by simp [length_band])
      rw [stage_eq_of_toJson_eq (List.cons.inj hb).1, ih hbs]

namespace Dashboard

theorem stages_eq_of_toJson_eq {s t : List Stage} (h : (ofBands s).toJson = (ofBands t).toJson) :
    s = t := by
  simp only [toJson, object.injEq, array.injEq, List.cons.injEq, Prod.mk.injEq, true_and,
    and_true] at h
  exact stages_eq_of_bands_toJson_eq h.1

theorem inRange_toJson {stages : List Stage} (h : stages.length < (2 ^ 32 - 1) / 3) :
    (ofBands stages).toJson.InRange := by
  refine inRange_of_fits _ fun panel hp => ?_
  obtain ⟨i, hi⟩ := List.mem_iff_getElem?.mp hp
  obtain ⟨stage, family, hs, -, rfl⟩ := exists_chart_of_getElem? hi
  have hrow : i / panelsPerStage < stages.length := (List.getElem?_eq_some_iff.mp hs).1
  have hc := family.column_lt
  simp only [Panel.Fits, Family.chart, GridPosition.panelHeight, GridPosition.panelWidth,
    panelsPerStage] at *
  omega

end Dashboard

end StageMonitor

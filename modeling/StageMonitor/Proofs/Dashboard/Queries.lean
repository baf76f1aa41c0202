import StageMonitor.Proofs.Dashboard.Bands
import StageMonitor.Proofs.Query

/-! # Queries of a dashboard

The panels of a stage ask only for the series of that stage, whatever its id is, if nothing is
reported of the catalog.
-/

namespace StageMonitor

theorem Family.confined_chart {stage : Stage} (family : Family) (row : Nat)
    (hid : stage.id.toList.all isIdChar = true) :
    ∀ target ∈ (family.chart row stage).targets, Query.Confined stage.id target.expression := by
  intro target ht
  obtain ⟨s, hs, he⟩ := exists_series_of_mem_targetsAt ht
  exact he ▸ family.confined_series hid s hs

/-- No query of a stage matches another stage, and no id changes the structure of a query. -/
theorem queries_confined {catalog : Catalog} (h : catalog.report? = none) :
    ∃ dashboard : Dashboard, Dashboard.ofStages catalog.stages = .ok dashboard ∧
      ∀ i panel, dashboard.panels[i]? = some panel →
        ∃ stage, catalog.stages[i / panelsPerStage]? = some stage ∧
          ∀ target ∈ panel.targets, Query.Confined stage.id target.expression := by
  refine ⟨.ofBands catalog.stages, Dashboard.ofStages_eq_ok catalog.stages, ?_⟩
  intro i panel hi
  obtain ⟨stage, family, hs, -, rfl⟩ := exists_chart_of_getElem? hi
  have hr := (Catalog.report?_eq_none_iff.mp h).2 stage (List.mem_of_getElem? hs)
  exact ⟨stage, hs, family.confined_chart _ (Stage.report?_eq_none_iff.mp hr).1.2⟩

theorem queries_confined_tricky_ids :
    (Catalog.mk [⟨"stage", "A"⟩, ⟨"le", "B"⟩, ⟨"stage_le", "C"⟩]).report? = none ∧
      ∃ dashboard : Dashboard,
        Dashboard.ofStages [⟨"stage", "A"⟩, ⟨"le", "B"⟩, ⟨"stage_le", "C"⟩] = .ok dashboard ∧
        ∀ i panel, dashboard.panels[i]? = some panel →
          ∃ stage, [Stage.mk "stage" "A", ⟨"le", "B"⟩, ⟨"stage_le", "C"⟩][i / panelsPerStage]? =
            some stage ∧
          ∀ target ∈ panel.targets, Query.Confined stage.id target.expression :=
  ⟨by decide,
    @queries_confined ⟨[⟨"stage", "A"⟩, ⟨"le", "B"⟩, ⟨"stage_le", "C"⟩]⟩ (by decide)⟩

end StageMonitor

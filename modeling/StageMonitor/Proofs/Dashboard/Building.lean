import Mathlib.Tactic.Ring
import StageMonitor.Proofs.Dashboard.Bands
import StageMonitor.Proofs.Session

/-! # Building the dashboard of a catalog

The panels are numbered from one and placed in the order of the stages, three to a stage. The log
tells of every stage and then of the whole, whether the panels of a stage are made before the next
one is told of or not. As long as the number after the last panel fits into 32 bits, no number and no
coordinate passes its machine word.
-/

namespace StageMonitor

theorem length_bands (row : Nat) (stages : List Stage) :
    (bands row stages).length = panelsPerStage * stages.length := by
  simpa using congrArg List.length (ids_bands row stages)

theorem Family.column_of_getElem? {i : Nat} {family : Family} (h : all[i]? = some family) :
    family.column = i := by
  match i, h with
  | 0, h => cases h; rfl
  | 1, h => cases h; rfl
  | 2, h => cases h; rfl

/-- Every panel is one panel height below the one before it. -/
theorem Family.position_chart (family : Family) (row : Nat) (stage : Stage) :
    (family.chart row stage).position =
      ⟨GridPosition.panelHeight, GridPosition.panelWidth, GridPosition.panelWidth * family.column,
        GridPosition.panelHeight * (panelsPerStage * row + family.column)⟩ := by
  have hy : row * (GridPosition.panelHeight * panelsPerStage) +
      family.column * GridPosition.panelHeight =
        GridPosition.panelHeight * (panelsPerStage * row + family.column) := by ring
  rw [chart, hy, Nat.mul_comm family.column]

/-- The panel at an index, by the stage in its row and the family of its column. -/
theorem exists_panel_of_lt {stages : List Stage} {i : Nat}
    (h : i < panelsPerStage * stages.length) :
    ∃ stage family panel, stages[i / panelsPerStage]? = some stage ∧
      Family.all[i % panelsPerStage]? = some family ∧ (bands 0 stages)[i]? = some panel ∧
      family.panel (i / panelsPerStage) stage (i + 1) = .ok panel ∧ panel.id = i + 1 ∧
      panel.position = ⟨GridPosition.panelHeight, GridPosition.panelWidth,
        GridPosition.panelWidth * (i % panelsPerStage), GridPosition.panelHeight * i⟩ := by
  have hp := List.getElem?_eq_getElem (show i < (bands 0 stages).length by rwa [length_bands])
  obtain ⟨stage, family, hs, hf, hc⟩ := exists_chart_of_getElem? hp
  rw [hc, Nat.zero_add] at hp
  have hcol := Family.column_of_getElem? hf
  have hi : panelsPerStage * (i / panelsPerStage) + family.column = i := by
    rw [hcol, Nat.div_add_mod]
  have hok := family.panel_eq_ok (i / panelsPerStage) stage
  have hpos := family.position_chart (i / panelsPerStage) stage
  rw [hi] at hok hpos
  rw [hcol] at hpos
  exact ⟨stage, family, _, hs, hf, hp, hok, congrArg (· + 1) hi, hpos⟩

theorem id_position_of_getElem? {stages : List Stage} {i : Nat} {panel : Panel}
    (h : (bands 0 stages)[i]? = some panel) :
    i < panelsPerStage * stages.length ∧ panel.id = i + 1 ∧
      panel.position = ⟨GridPosition.panelHeight, GridPosition.panelWidth,
        GridPosition.panelWidth * (i % panelsPerStage), GridPosition.panelHeight * i⟩ := by
  have hi : i < panelsPerStage * stages.length := by
    rw [← length_bands 0]
    exact (List.getElem?_eq_some_iff.mp h).1
  obtain ⟨_, _, _, -, -, hp, -, hid, hpos⟩ := exists_panel_of_lt hi
  cases h.symm.trans hp
  exact ⟨hi, hid, hpos⟩

namespace Session

/-- The events of a build, one for each stage and one for the whole. -/
def buildEvents (stages : List Stage) : List Event :=
  (stages.zipIdx.map fun (stage, row) => .addingStage stage row) ++
    [.built (panelsPerStage * stages.length) stages.length]

theorem run_build (stages : List Stage) (world : World) :
    (build ⟨stages⟩).run world =
      .ok (.ofBands stages) { world with log := world.log ++ buildEvents stages } := by
  have hn : (Dashboard.ofBands stages).panels.length = panelsPerStage * stages.length :=
    length_bands 0 stages
  simp only [build, EStateM.run_bind, run_recordAll, Dashboard.ofStages_eq_ok, run_ofExcept_ok,
    run_record, hn, buildEvents, List.append_assoc]
  rfl

/-- The panels of some stages, the first in the given row and with the given id. Each stage is told
of just before its panels are made. -/
def panelsInTurn (row id : Nat) : List Stage → Session (List Panel)
  | [] => pure []
  | stage :: stages => do
    record (.addingStage stage row)
    let band ← ofExcept .violation (bandPanels row stage id Family.all)
    let panels ← panelsInTurn (row + 1) (id + band.length) stages
    return band ++ panels

/-- Builds a dashboard stage by stage, and tells of the whole before its ids are looked at. -/
def buildInTurn (catalog : Catalog) : Session Dashboard := do
  let panels ← panelsInTurn 0 1 catalog.stages
  record (.built panels.length catalog.stages.length)
  ofExcept .violation (Dashboard.create .stages panels)

theorem run_panelsInTurn (row : Nat) (stages : List Stage) (world : World) :
    (panelsInTurn row (panelsPerStage * row + 1) stages).run world =
      .ok (bands row stages) { world with
        log := world.log ++ (stages.zipIdx row).map
          fun (stage, row) => .addingStage stage row } := by
  induction stages generalizing row world with
  | nil => simp [panelsInTurn, bands]
  | cons stage stages ih =>
    rw [panelsInTurn]
    simp only [EStateM.run_bind, run_record, bandPanels_eq_ok, run_ofExcept_ok, add_length_band, ih,
      EStateM.run_pure, bands, List.zipIdx_cons, List.map_cons, List.append_assoc,
      List.singleton_append]

/-- A build tells of the stages as if their panels were made in between. -/
theorem build_eq_buildInTurn (catalog : Catalog) : build catalog = buildInTurn catalog := by
  funext world
  have hc : Dashboard.create .stages (bands 0 catalog.stages) =
      .ok (.ofBands catalog.stages) := Dashboard.create_eq_ok _
  have hp : (panelsInTurn 0 1 catalog.stages).run world = _ :=
    run_panelsInTurn 0 catalog.stages world
  have hrun : (buildInTurn catalog).run world =
      .ok (.ofBands catalog.stages)
        { world with log := world.log ++ buildEvents catalog.stages } := by
    rw [buildInTurn, EStateM.run_bind, hp]
    simp only [EStateM.run_bind, run_record, hc, run_ofExcept_ok, length_bands, buildEvents,
      List.append_assoc]
  exact (run_build catalog.stages world).trans hrun.symm

theorem severity_buildEvents (stages : List Stage) :
    (buildEvents stages).map Event.severity = List.replicate stages.length .debug ++ [.info] := by
  have hd : (stages.zipIdx.map fun (stage, row) => Event.addingStage stage row).map Event.severity =
      List.replicate stages.length .debug := by
    rw [List.map_map, List.eq_replicate_iff]
    refine ⟨by simp, fun severity hs => ?_⟩
    obtain ⟨_, -, rfl⟩ := List.mem_map.mp hs
    rfl
  rw [buildEvents, List.map_append, hd]
  rfl

theorem getElem?_buildEvents {stages : List Stage} {row : Nat} {stage : Stage}
    (h : stages[row]? = some stage) :
    (buildEvents stages)[row]? = some (.addingStage stage row) := by
  have hl : row < stages.length := (List.getElem?_eq_some_iff.mp h).1
  rw [buildEvents, List.getElem?_append_left (by simpa using hl)]
  simp [h]

theorem getElem?_buildEvents_length (stages : List Stage) :
    (buildEvents stages)[stages.length]? =
      some (.built (panelsPerStage * stages.length) stages.length) := by
  rw [buildEvents, List.getElem?_append_right (by simp)]
  simp

/-- Whatever the ids and labels are, a dashboard is built, its panels stand in order, and no number
or coordinate is too large. The number after the last one is counted in. -/
theorem build_in_order {stages : List Stage} (h : 3 * stages.length < 2 ^ 32 - 1) (world : World) :
    ∃ (dashboard : Dashboard) (events : List Event),
      (build ⟨stages⟩).run world =
        .ok dashboard { world with log := world.log ++ events } ∧
      dashboard.panels.length = 3 * stages.length ∧
      (∀ i < 3 * stages.length, ∃ stage family panel,
        stages[i / 3]? = some stage ∧
        [Family.latency, .payload, .issues][i % 3]? = some family ∧
        dashboard.panels[i]? = some panel ∧
        family.panel (i / 3) stage (i + 1) = .ok panel ∧
        panel.id = i + 1 ∧
        panel.position = { height := 6, width := 8, x := 8 * (i % 3), y := 6 * i } ∧
        panel.id + 1 < 2 ^ 32 ∧ panel.position.y < 2 ^ 64) ∧
      events.map Event.severity = List.replicate stages.length .debug ++ [.info] ∧
      (∀ row stage, stages[row]? = some stage → events[row]? = some (Event.addingStage stage row)) ∧
      events[stages.length]? = some (Event.built (3 * stages.length) stages.length) := by
  refine ⟨.ofBands stages, buildEvents stages, run_build stages world, length_bands 0 stages, ?_,
    severity_buildEvents stages, fun row stage => getElem?_buildEvents,
    getElem?_buildEvents_length stages⟩
  intro i hi
  obtain ⟨stage, family, panel, hs, hf, hp, hok, hid, hpos⟩ := exists_panel_of_lt hi
  refine ⟨stage, family, panel, hs, hf, hp, hok, hid, hpos, ?_, ?_⟩
  · rw [hid]; omega
  · rw [hpos]; simp only [GridPosition.panelHeight]; omega

/-- An id that no query should hold and an empty label are no obstacle. -/
theorem build_in_order_odd_stages :
    ∃ (dashboard : Dashboard) (events : List Event),
      (build ⟨[⟨"", ""⟩, ⟨"a\"b", "x"⟩]⟩).run ⟨.empty, []⟩ = .ok dashboard ⟨.empty, events⟩ ∧
      (∃ panel, dashboard.panels[4]? = some panel ∧
        Family.payload.panel 1 ⟨"a\"b", "x"⟩ 5 = .ok panel ∧
        panel.position = { height := 6, width := 8, x := 8, y := 24 }) ∧
      events[1]? = some (Event.addingStage ⟨"a\"b", "x"⟩ 1) ∧
      events[2]? = some (Event.built 6 2) := by
  obtain ⟨dashboard, events, hrun, -, hpanels, -, hstages, hbuilt⟩ :=
    @build_in_order [⟨"", ""⟩, ⟨"a\"b", "x"⟩] (by decide) ⟨.empty, []⟩
  obtain ⟨stage, family, panel, hs, hf, hp, hok, -, hpos, -, -⟩ := hpanels 4 (by decide)
  cases hs
  cases hf
  exact ⟨dashboard, events, hrun, ⟨panel, hp, hok, hpos⟩, hstages 1 _ rfl, hbuilt⟩

end Session

end StageMonitor

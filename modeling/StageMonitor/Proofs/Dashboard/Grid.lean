import StageMonitor.Proofs.Dashboard.Building

/-! # Panels on the grid

A cell of the grid tells the slot of a panel that covers it, so panels in different slots have no
cell in common. The rows of cells fall into bands, one for each stage, and the panels of a stage stay
inside its band.
-/

namespace StageMonitor

namespace GridPosition

/-- Two rectangles that share an area. -/
def Overlaps (p q : GridPosition) : Prop :=
  p.x < q.x + q.width ∧ q.x < p.x + p.width ∧ p.y < q.y + q.height ∧ q.y < p.y + p.height

instance (p q : GridPosition) : Decidable (p.Overlaps q) :=
  inferInstanceAs (Decidable (_ ∧ _))

/-- The cells of a rectangle. -/
def Covers (p : GridPosition) (x y : Nat) : Prop :=
  (p.x ≤ x ∧ x < p.x + p.width) ∧ p.y ≤ y ∧ y < p.y + p.height

theorem exists_between_iff {a b m n : Nat} (hm : 0 < m) (hn : 0 < n) :
    (∃ x, (a ≤ x ∧ x < a + m) ∧ b ≤ x ∧ x < b + n) ↔ a < b + n ∧ b < a + m := by
  constructor
  · rintro ⟨x, ha, hb⟩
    omega
  · rintro ⟨hab, hba⟩
    exact ⟨max a b, by omega⟩

/-- Rectangles overlap if they have a cell in common, unless one of them is empty. -/
theorem overlaps_iff {p q : GridPosition} (hp : 0 < p.width ∧ 0 < p.height)
    (hq : 0 < q.width ∧ 0 < q.height) :
    p.Overlaps q ↔ ∃ x y, p.Covers x y ∧ q.Covers x y := by
  have hx := @exists_between_iff p.x q.x _ _ hp.1 hq.1
  have hy := @exists_between_iff p.y q.y _ _ hp.2 hq.2
  constructor
  · rintro ⟨hpx, hqx, hpy, hqy⟩
    obtain ⟨x, hpx, hqx⟩ := hx.mpr ⟨hpx, hqx⟩
    obtain ⟨y, hpy, hqy⟩ := hy.mpr ⟨hpy, hqy⟩
    exact ⟨x, y, ⟨hpx, hpy⟩, hqx, hqy⟩
  · rintro ⟨x, y, ⟨hpx, hpy⟩, hqx, hqy⟩
    have hx := hx.mp ⟨x, hpx, hqx⟩
    have hy := hy.mp ⟨y, hpy, hqy⟩
    exact ⟨hx.1, hx.2, hy⟩

section Slots

variable {row column row' column' : Nat} {p q : GridPosition}

/-- What the position of a slot is. -/
theorem ofSlot_eq_ok_iff :
    ofSlot row column = .ok p ↔ column < panelsPerStage ∧
      p = ⟨panelHeight, panelWidth, column * panelWidth,
        row * (panelHeight * panelsPerStage) + column * panelHeight⟩ := by
  unfold ofSlot
  split
  next h => simp [h, eq_comm]
  next h => simp [h]

theorem size_pos_of_ofSlot (h : ofSlot row column = .ok p) : 0 < p.width ∧ 0 < p.height := by
  obtain ⟨-, rfl⟩ := ofSlot_eq_ok_iff.mp h
  simp [panelWidth, panelHeight]

/-- A cell tells the slot in which it is covered. -/
theorem slot_of_covers (h : ofSlot row column = .ok p) {x y : Nat} (hc : p.Covers x y) :
    row = y / (panelHeight * panelsPerStage) ∧ column = x / panelWidth := by
  obtain ⟨hcol, rfl⟩ := ofSlot_eq_ok_iff.mp h
  obtain ⟨hx, hy⟩ := hc
  simp only [panelHeight, panelWidth, panelsPerStage] at *
  omega

/-- Different slots do not overlap. -/
theorem slot_eq_of_overlaps (hp : ofSlot row column = .ok p) (hq : ofSlot row' column' = .ok q)
    (h : p.Overlaps q) : row = row' ∧ column = column' := by
  obtain ⟨x, y, hcp, hcq⟩ :=
    (overlaps_iff (size_pos_of_ofSlot hp) (size_pos_of_ofSlot hq)).mp h
  obtain ⟨hr, hc⟩ := slot_of_covers hp hcp
  obtain ⟨hr', hc'⟩ := slot_of_covers hq hcq
  exact ⟨hr.trans hr'.symm, hc.trans hc'.symm⟩

end Slots

end GridPosition

/-- The rows of cells that a stage has for itself. -/
def InBand (row y : Nat) : Prop :=
  18 * row ≤ y ∧ y < 18 * (row + 1)

instance (row y : Nat) : Decidable (InBand row y) :=
  inferInstanceAs (Decidable (_ ∧ _))

theorem InBand.eq {row row' y : Nat} (h : InBand row y) (h' : InBand row' y) : row = row' := by
  unfold InBand at h h'
  omega

namespace Family

variable (family : Family) (row : Nat) (stage : Stage)

theorem ofSlot_chart :
    GridPosition.ofSlot row family.column = .ok (family.chart row stage).position :=
  GridPosition.ofSlot_eq_ok_iff.mpr ⟨family.column_lt, rfl⟩

/-- A panel stays inside the grid and inside the band of its row. -/
theorem position_chart_within :
    (family.chart row stage).position.x + (family.chart row stage).position.width ≤ 24 ∧
      18 * row ≤ (family.chart row stage).position.y ∧
      (family.chart row stage).position.y + (family.chart row stage).position.height ≤
        18 * (row + 1) := by
  have hc := family.column_lt
  rw [position_chart]
  simp only [GridPosition.panelHeight, GridPosition.panelWidth, panelsPerStage] at *
  omega

theorem inBand_chart_iff {r : Nat} :
    InBand r (family.chart row stage).position.y ↔ r = row := by
  obtain ⟨-, htop, hbottom⟩ := family.position_chart_within row stage
  have hh := (GridPosition.size_pos_of_ofSlot (family.ofSlot_chart row stage)).2
  have hb : InBand row (family.chart row stage).position.y := by
    unfold InBand
    omega
  constructor
  · intro h
    exact h.eq hb
  · rintro rfl
    exact hb

end Family

section Bands

variable {row r : Nat} {stage : Stage} {stages : List Stage}

theorem filter_band_self (row : Nat) (stage : Stage) :
    (band row stage).filter (fun panel => InBand row panel.position.y) = band row stage := by
  rw [band, List.filter_eq_self, List.forall_mem_map]
  intro family _
  exact decide_eq_true ((family.inBand_chart_iff row stage).mpr rfl)

theorem filter_band_of_ne (h : r ≠ row) :
    (band row stage).filter (fun panel => InBand r panel.position.y) = [] := by
  rw [band, List.filter_eq_nil_iff, List.forall_mem_map]
  intro family _ hb
  exact h ((family.inBand_chart_iff row stage).mp (of_decide_eq_true hb))

theorem filter_bands_of_lt (h : r < row) :
    (bands row stages).filter (fun panel => InBand r panel.position.y) = [] := by
  induction stages generalizing row with
  | nil => rfl
  | cons stage stages ih =>
    rw [bands, List.filter_append, filter_band_of_ne h.ne, ih (Nat.lt_succ_of_lt h),
      List.nil_append]

/-- The panels in the band of a stage are its own. -/
theorem filter_bands {i : Nat} (h : stages[i]? = some stage) :
    (bands row stages).filter (fun panel => InBand (row + i) panel.position.y) =
      band (row + i) stage := by
  induction stages generalizing row i with
  | nil => cases h
  | cons first stages ih =>
    rw [bands, List.filter_append]
    cases i with
    | zero =>
      cases h
      rw [Nat.add_zero, filter_band_self, filter_bands_of_lt (Nat.lt_succ_self row),
        List.append_nil]
    | succ i =>
      have hi : row + (i + 1) = row + 1 + i := by omega
      rw [filter_band_of_ne (by omega), List.nil_append, hi]
      exact ih h

/-- The panel at an index stands in the slot of the index. -/
theorem ofSlot_of_getElem? {i : Nat} {panel : Panel} (h : (bands 0 stages)[i]? = some panel) :
    GridPosition.ofSlot (i / panelsPerStage) (i % panelsPerStage) = .ok panel.position := by
  obtain ⟨stage, family, -, hf, rfl⟩ := exists_chart_of_getElem? h
  rw [← Family.column_of_getElem? hf, Nat.zero_add]
  exact family.ofSlot_chart _ stage

end Bands

/-- No two panels of a catalog overlap, each stays inside the grid and the band of its stage, and the
panels in a band stand side by side. The same holds of any two slots. No coordinate is too large. -/
theorem panels_apart_in_bands :
    (∀ stages : List Stage, 3 * stages.length < 2 ^ 32 - 1 →
      ∃ dashboard : Dashboard, Dashboard.ofStages stages = .ok dashboard ∧
        (∀ (i j : Nat) (p q : Panel), dashboard.panels[i]? = some p →
          dashboard.panels[j]? = some q → i ≠ j → ¬ p.position.Overlaps q.position) ∧
        (∀ (i : Nat) (panel : Panel), dashboard.panels[i]? = some panel →
          ∃ (row : Nat) (stage : Stage) (family : Family), stages[row]? = some stage ∧
            family.panel row stage panel.id = .ok panel ∧
            panel.position.x + panel.position.width ≤ 24 ∧
            18 * row ≤ panel.position.y ∧
            panel.position.y + panel.position.height ≤ 18 * (row + 1) ∧
            panel.position.y + panel.position.height < 2 ^ 64) ∧
        (∀ row row' y : Nat, row ≠ row' → InBand row y → ¬ InBand row' y) ∧
        ∀ row < stages.length,
          (dashboard.panels.filter fun panel => InBand row panel.position.y).map
            (fun panel => panel.position.x) = [0, 8, 16]) ∧
    ∀ row column row' column' : Nat, column < 3 → column' < 3 → row * 18 + 12 < 2 ^ 64 →
      row' * 18 + 12 < 2 ^ 64 → (row, column) ≠ (row', column') →
      ∃ p q : GridPosition, GridPosition.ofSlot row column = .ok p ∧
        GridPosition.ofSlot row' column' = .ok q ∧ p.y < 2 ^ 64 ∧ q.y < 2 ^ 64 ∧
        ¬ p.Overlaps q := by
  constructor
  · intro stages hsize
    refine ⟨.ofBands stages, Dashboard.ofStages_eq_ok stages, ?_, ?_, ?_, ?_⟩
    · intro i j p q hp hq hne ho
      obtain ⟨hr, hc⟩ :=
        GridPosition.slot_eq_of_overlaps (ofSlot_of_getElem? hp) (ofSlot_of_getElem? hq) ho
      apply hne
      rw [← Nat.div_add_mod i panelsPerStage, ← Nat.div_add_mod j panelsPerStage, hr, hc]
    · intro i panel hp
      obtain ⟨stage, family, hs, -, rfl⟩ := exists_chart_of_getElem? hp
      rw [Nat.zero_add]
      obtain ⟨hx, htop, hbottom⟩ := family.position_chart_within (i / panelsPerStage) stage
      have hrow : i / panelsPerStage < stages.length := (List.getElem?_eq_some_iff.mp hs).1
      exact ⟨_, stage, family, hs, family.panel_eq_ok _ stage, hx, htop, hbottom, by omega⟩
    · intro row row' y hne h h'
      exact hne (h.eq h')
    · intro row hrow
      have h := @filter_bands 0 _ _ row (List.getElem?_eq_getElem hrow)
      rw [Nat.zero_add] at h
      exact congrArg (List.map fun panel => panel.position.x) h
  · intro row column row' column' hcol hcol' hrow hrow' hne
    have hp := (@GridPosition.ofSlot_eq_ok_iff row column _).mpr ⟨hcol, rfl⟩
    have hq := (@GridPosition.ofSlot_eq_ok_iff row' column' _).mpr ⟨hcol', rfl⟩
    refine ⟨_, _, hp, hq, ?_, ?_, ?_⟩
    · simp only [GridPosition.panelHeight, panelsPerStage]; omega
    · simp only [GridPosition.panelHeight, panelsPerStage]; omega
    · intro ho
      obtain ⟨hr, hc⟩ := GridPosition.slot_eq_of_overlaps hp hq ho
      exact hne (Prod.ext hr hc)

/-- The last panel of a stage and the first one of the next, and the lowest slots of all. -/
theorem panels_apart_in_bands_neighbours :
    (∃ (dashboard : Dashboard) (p q : Panel),
      Dashboard.ofStages [⟨"a", "A"⟩, ⟨"", ""⟩] = .ok dashboard ∧
        dashboard.panels[2]? = some p ∧ dashboard.panels[3]? = some q ∧
        ¬ p.position.Overlaps q.position ∧
        (dashboard.panels.filter fun panel => InBand 1 panel.position.y).map
          (fun panel => panel.position.x) = [0, 8, 16]) ∧
    ∃ p q : GridPosition, GridPosition.ofSlot 1024819115206086199 2 = .ok p ∧
      GridPosition.ofSlot 1024819115206086200 1 = .ok q ∧ q.y < 2 ^ 64 ∧ ¬ p.Overlaps q := by
  obtain ⟨hpanels, hslots⟩ := panels_apart_in_bands
  constructor
  · obtain ⟨dashboard, hd, hapart, -, -, hxs⟩ := hpanels [⟨"a", "A"⟩, ⟨"", ""⟩] (by decide)
    have hb := hd
    rw [Dashboard.ofStages_eq_ok] at hb
    cases hb
    exact ⟨_, _, _, hd, rfl, rfl, hapart 2 3 _ _ rfl rfl (by decide), hxs 1 (by decide)⟩
  · obtain ⟨p, q, hp, hq, -, hy, ho⟩ := hslots 1024819115206086199 2 1024819115206086200 1
      (by decide) (by decide) (by decide) (by decide) (by decide)
    exact ⟨p, q, hp, hq, hy, ho⟩

end StageMonitor

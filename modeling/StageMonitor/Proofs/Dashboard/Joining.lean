import StageMonitor.Proofs.Dashboard.Building

/-! # Catalogs that are joined

The row of a stage decides where its panels stand and which ids they have, and nothing else. So the
dashboard of two catalogs in a row is that of the first one, followed by that of the second one
further down and with larger ids.
-/

namespace StageMonitor

open Json

/-- A panel with a larger id and further down, and otherwise as it was. -/
def Panel.shift (ids rows : Nat) (panel : Panel) : Panel :=
  { panel with
    id := panel.id + ids
    position := { panel.position with y := panel.position.y + rows }
    id_pos := Nat.add_pos_left panel.id_pos ids }

theorem Family.chart_add (family : Family) (row n : Nat) (stage : Stage) :
    family.chart (row + n) stage =
      (family.chart row stage).shift (panelsPerStage * n)
        (GridPosition.panelHeight * panelsPerStage * n) := by
  simp only [chart, Panel.shift, Panel.mk.injEq, GridPosition.mk.injEq, true_and, and_true,
    panelsPerStage, GridPosition.panelHeight]
  omega

section Bands

variable {row i k : Nat}

theorem bands_add (row n : Nat) (stages : List Stage) :
    bands (row + n) stages =
      (bands row stages).map
        (Panel.shift (panelsPerStage * n) (GridPosition.panelHeight * panelsPerStage * n)) := by
  induction stages generalizing row with
  | nil => rfl
  | cons stage stages ih =>
    have hb : band (row + n) stage = (band row stage).map
        (Panel.shift (panelsPerStage * n) (GridPosition.panelHeight * panelsPerStage * n)) := by
      rw [band, band, List.map_map]
      exact List.map_congr_left fun family _ => family.chart_add row n stage
    rw [bands, bands, List.map_append, hb, Nat.add_right_comm, ih]

theorem bands_append (row : Nat) (s t : List Stage) :
    bands row (s ++ t) = bands row s ++ bands (row + s.length) t := by
  induction s generalizing row with
  | nil => rfl
  | cons stage s ih =>
    rw [List.cons_append, bands, bands, ih, List.append_assoc, List.length_cons, Nat.add_assoc,
      Nat.add_comm 1]

/-- Another stage in the place of one changes no panel of the others. -/
theorem getElem?_bands_set {stages : List Stage} (stage : Stage) (hi : i / panelsPerStage ≠ k) :
    (bands row (stages.set k stage))[i]? = (bands row stages)[i]? := by
  rcases Nat.lt_or_ge k stages.length with hk | hk
  · have hl : (stages.take k).length = k := List.length_take_of_le hk.le
    have hsplit : stages = stages.take k ++ stages[k] :: stages.drop (k + 1) := by
      rw [← List.drop_eq_getElem_cons hk, List.take_append_drop]
    conv_rhs => rw [hsplit]
    rw [List.set_eq_take_append_cons_drop, if_pos hk, bands_append, bands_append, hl]
    rcases Nat.lt_or_ge i (panelsPerStage * k) with hlt | hge
    · rw [List.getElem?_append_left (by rwa [length_bands, hl]),
        List.getElem?_append_left (by rwa [length_bands, hl])]
    · rw [List.getElem?_append_right (by rwa [length_bands, hl]),
        List.getElem?_append_right (by rwa [length_bands, hl]), length_bands, hl, bands, bands]
      have hb : panelsPerStage ≤ i - panelsPerStage * k := by
        unfold panelsPerStage at *
        omega
      rw [List.getElem?_append_right (by rwa [length_band]),
        List.getElem?_append_right (by rwa [length_band]), length_band, length_band]
  · rw [List.set_eq_of_length_le hk]

end Bands

namespace Dashboard

/-- The members of a document with no panels. -/
def bareMembers (metadata : Metadata) : List Member :=
  match (Dashboard.mk metadata [] List.nodup_nil).toJson with
  | .object ms => ms
  | _ => []

/-- Dashboards with the same metadata have the same document but for the panels. -/
theorem toJson_eq (dashboard : Dashboard) :
    dashboard.toJson = .object ((bareMembers dashboard.metadata).take 6 ++
      ("panels", .array (dashboard.panels.map Panel.toJson)) ::
        (bareMembers dashboard.metadata).drop 7) := rfl

end Dashboard

/-- The panels of a catalog stay as they are when stages are added behind it, and the added ones
have the panels that they have alone, only with larger ids and further down. Another stage in the
place of one leaves the panels of all others as they are. Besides the panels, all documents are the
same. -/
theorem stages_independent :
    (∀ s t : List Stage, 3 * (s.length + t.length) < 2 ^ 32 - 1 →
      ∃ first second joined : Dashboard, Dashboard.ofStages s = .ok first ∧
        Dashboard.ofStages t = .ok second ∧ Dashboard.ofStages (s ++ t) = .ok joined ∧
        joined.panels = first.panels ++
          second.panels.map (Panel.shift (3 * s.length) (18 * s.length)) ∧
        (∀ (i : Nat) (panel : Panel), first.panels[i]? = some panel →
          joined.panels[i]? = some panel) ∧
        (∃ before after : List Member, "panels" ∉ Association.keys (before ++ after) ∧
          ∀ dashboard ∈ [first, second, joined], dashboard.toJson = .object
            (before ++ ("panels", .array (dashboard.panels.map Panel.toJson)) :: after)) ∧
        ∀ panel ∈ joined.panels, panel.id + 1 < 2 ^ 32 ∧ panel.position.y < 2 ^ 64) ∧
    ∀ (stages : List Stage) (k : Nat) (stage : Stage), 3 * stages.length < 2 ^ 32 - 1 →
      ∃ dashboard changed : Dashboard, Dashboard.ofStages stages = .ok dashboard ∧
        Dashboard.ofStages (stages.set k stage) = .ok changed ∧
        changed.panels.length = dashboard.panels.length ∧
        ∀ i : Nat, i / 3 ≠ k → changed.panels[i]? = dashboard.panels[i]? := by
  constructor
  · intro s t hsize
    have hpanels : bands 0 (s ++ t) = bands 0 s ++
        (bands 0 t).map (Panel.shift (3 * s.length) (18 * s.length)) := by
      rw [bands_append, bands_add]
      rfl
    refine ⟨.ofBands s, .ofBands t, .ofBands (s ++ t), Dashboard.ofStages_eq_ok s,
      Dashboard.ofStages_eq_ok t, Dashboard.ofStages_eq_ok (s ++ t), hpanels, ?_,
      ⟨(Dashboard.bareMembers .stages).take 6, (Dashboard.bareMembers .stages).drop 7, by decide,
        ?_⟩, ?_⟩
    · intro i panel hp
      rw [Dashboard.panels_ofBands] at hp
      have hi : i < (bands 0 s).length := (List.getElem?_eq_some_iff.mp hp).1
      rwa [Dashboard.panels_ofBands, hpanels, List.getElem?_append_left hi]
    · simp only [List.forall_mem_cons]
      exact ⟨Dashboard.toJson_eq _, Dashboard.toJson_eq _, Dashboard.toJson_eq _,
        fun _ h => nomatch h⟩
    · intro panel hp
      obtain ⟨i, hi⟩ := List.mem_iff_getElem?.mp hp
      obtain ⟨hlt, hid, hpos⟩ := id_position_of_getElem? hi
      rw [List.length_append] at hlt
      rw [hid, hpos]
      simp only [panelsPerStage, GridPosition.panelHeight] at *
      omega
  · intro stages k stage hsize
    refine ⟨.ofBands stages, .ofBands (stages.set k stage), Dashboard.ofStages_eq_ok stages,
      Dashboard.ofStages_eq_ok _, ?_, fun i => getElem?_bands_set stage⟩
    simp only [Dashboard.panels_ofBands, length_bands, List.length_set]

/-- Stages that could not be in a valid catalog: one is put behind another, and then replaced. -/
theorem stages_independent_odd_stages :
    (∃ first second joined : Dashboard, Dashboard.ofStages [⟨"a", "A"⟩] = .ok first ∧
      Dashboard.ofStages [⟨"\"", ""⟩] = .ok second ∧
      Dashboard.ofStages [⟨"a", "A"⟩, ⟨"\"", ""⟩] = .ok joined ∧
      joined.panels = first.panels ++ second.panels.map (Panel.shift 3 18)) ∧
    ∃ dashboard changed : Dashboard, Dashboard.ofStages [⟨"a", "A"⟩, ⟨"\"", ""⟩] = .ok dashboard ∧
      Dashboard.ofStages [⟨"a", "A"⟩, ⟨"a", "A"⟩] = .ok changed ∧
      changed.panels[2]? = dashboard.panels[2]? := by
  obtain ⟨hjoin, hreplace⟩ := stages_independent
  constructor
  · obtain ⟨first, second, joined, hs, ht, hst, hpanels, -⟩ :=
      hjoin [⟨"a", "A"⟩] [⟨"\"", ""⟩] (by decide)
    exact ⟨first, second, joined, hs, ht, hst, hpanels⟩
  · obtain ⟨dashboard, changed, hd, hc, -, hsame⟩ :=
      hreplace [⟨"a", "A"⟩, ⟨"\"", ""⟩] 1 ⟨"a", "A"⟩ (by decide)
    exact ⟨dashboard, changed, hd, hc, hsame 2 (by decide)⟩

end StageMonitor

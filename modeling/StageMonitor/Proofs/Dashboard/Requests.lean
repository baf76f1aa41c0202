import Mathlib.Data.List.Forall2
import StageMonitor.Proofs.Dashboard.Grid
import StageMonitor.Proofs.Panel.Style

/-! # Dashboards of requests

Every request is looked at by five rules, and the first request that breaks one decides the refusal.
Ids are compared only when there is nothing else to say. What is granted is granted as it was asked
for, in the same order.
-/

namespace StageMonitor

/-- What is wrong with a change. -/
def StyleChange.fault? : StyleChange → Option Violation
  | fill n => if n ≤ 100 then none else some (.notPercentage n)
  | _ => none

/-- The first change that is refused decides, and without one no change is lost. -/
theorem Style.changeAll_eq (style : Style) (changes : List StyleChange) :
    style.changeAll changes =
      match changes.findSome? StyleChange.fault? with
      | some violation => .error violation
      | none => .ok (changes.foldl changeOrKeep style) := by
  induction changes generalizing style with
  | nil => rfl
  | cons c changes ih =>
    rw [changeAll, List.findSome?_cons, List.foldl_cons]
    cases c with
    | fill n =>
      rw [changeOrKeep_fill, change, StyleChange.fault?]
      by_cases h : n ≤ 100
      · simp only [dif_pos h, if_pos h, ih]
      · simp only [dif_neg h, if_neg h]
    | linear => exact ih _
    | stacked => exact ih _
    | color series color => exact ih _

namespace PanelRequest

/-- A request that keeps all rules. -/
structure Sound (request : PanelRequest) : Prop where
  fill_le : ∀ n, .fill n ∈ request.changes → n ≤ 100
  title_ne : request.title ≠ ""
  id_pos : 0 < request.id
  targets_ne : request.targets ≠ []
  column_lt : request.column < 3

/-- All that is wrong with a request, in the order of the rules. -/
def faults (request : PanelRequest) : List Violation :=
  request.changes.filterMap StyleChange.fault? ++
    (if request.title = "" then [.emptyTitle request.id] else []) ++
    (if request.id = 0 then [.zeroId request.title] else []) ++
    (if request.targets = [] then [.noTargets request.title] else []) ++
    if request.column < 3 then [] else [.columnOutOfRange request.column]

/-- A panel that is all that a request asks for. -/
structure Granted (request : PanelRequest) (panel : Panel) : Prop where
  id_eq : panel.id = request.id
  title_eq : panel.title = request.title
  position_eq : panel.position = ⟨6, 8, 8 * request.column, 18 * request.row + 6 * request.column⟩
  unit_eq : panel.unit = request.unit
  style_eq : panel.style = .ofChanges request.changes
  targets_eq : panel.targets = request.targets

variable {request : PanelRequest}

theorem faults_eq_nil_iff : request.faults = [] ↔ request.Sound := by
  have hfill : request.changes.filterMap StyleChange.fault? = [] ↔
      ∀ n, .fill n ∈ request.changes → n ≤ 100 := by
    rw [List.filterMap_eq_nil_iff]
    constructor
    · intro h n hn
      simpa [StyleChange.fault?] using h _ hn
    · intro h c hc
      cases c with
      | fill n => exact if_pos (h n hc)
      | _ => rfl
  simp only [faults, List.append_eq_nil_iff, hfill]
  constructor
  · rintro ⟨⟨⟨⟨hf, ht⟩, hi⟩, hts⟩, hc⟩
    exact ⟨hf, by simpa using ht, by simpa [Nat.pos_iff_ne_zero] using hi, by simpa using hts,
      by simpa using hc⟩
  · rintro ⟨hf, ht, hi, hts, hc⟩
    exact ⟨⟨⟨⟨hf, if_neg ht⟩, if_neg hi.ne'⟩, if_neg hts⟩, if_pos hc⟩

theorem head?_faults_eq_none_iff : request.faults.head? = none ↔ request.Sound := by
  rw [List.head?_eq_none_iff, faults_eq_nil_iff]

/-- A rule that is broken decides before all that follows it. -/
theorem dite_error_of_head? {α : Type} {p : Prop} [Decidable p] {own violation : Violation}
    {rest : List Violation} {next : ¬ p → Except Violation α}
    (h : ((if p then [own] else []) ++ rest).head? = some violation)
    (hn : ∀ hp : ¬ p, rest.head? = some violation → next hp = .error violation) :
    (if hp : p then .error own else next hp) = .error violation := by
  by_cases hp : p
  · rw [if_pos hp] at h
    rw [dif_pos hp, Option.some.inj h]
  · rw [if_neg hp] at h
    rw [dif_neg hp]
    exact hn hp h

/-- A request is refused for the first thing that is wrong with it. -/
theorem panel_of_fault {violation : Violation} (h : request.faults.head? = some violation) :
    request.panel = .error violation := by
  simp only [faults, List.append_assoc] at h
  rw [List.head?_append, List.head?_filterMap] at h
  unfold PanelRequest.panel
  rw [Style.changeAll_eq]
  cases hf : request.changes.findSome? StyleChange.fault? with
  | some v =>
    rw [hf] at h
    exact congrArg Except.error (Option.some.inj h)
  | none =>
    rw [hf, Option.none_or] at h
    apply dite_error_of_head? h
    intro _ h
    apply dite_error_of_head? h
    intro _ h
    apply dite_error_of_head? h
    intro _ h
    by_cases hc : request.column < 3
    · rw [if_pos hc] at h
      cases h
    · rw [if_neg hc] at h
      rw [GridPosition.ofSlot, if_neg (show ¬ request.column < panelsPerStage from hc)]
      exact congrArg Except.error (Option.some.inj h)

theorem Sound.exists_panel (h : request.Sound) :
    ∃ panel, request.panel = .ok panel ∧ request.Granted panel := by
  have hf : request.changes.findSome? StyleChange.fault? = none := by
    have hn := head?_faults_eq_none_iff.mpr h
    simp only [faults, List.append_assoc, List.head?_append, List.head?_filterMap,
      Option.or_eq_none_iff] at hn
    exact hn.1
  let position : GridPosition := ⟨6, 8, 8 * request.column, 18 * request.row + 6 * request.column⟩
  have hp : GridPosition.ofSlot request.row request.column = .ok position := by
    simp only [GridPosition.ofSlot_eq_ok_iff, GridPosition.panelHeight, GridPosition.panelWidth,
      panelsPerStage, position, GridPosition.mk.injEq, true_and]
    exact ⟨h.column_lt, by omega, by omega⟩
  refine ⟨⟨request.id, request.title, position, request.unit, .ofChanges request.changes,
    request.targets, h.id_pos, h.title_ne, h.targets_ne⟩, ?_, rfl, rfl, rfl, rfl, rfl, rfl⟩
  simp only [PanelRequest.panel, Style.changeAll_eq, hf, Panel.create, dif_neg h.title_ne,
    dif_neg h.id_pos.ne', dif_neg h.targets_ne, hp]
  rfl

end PanelRequest

section Creation

variable {requests : List PanelRequest}

/-- The requests are granted in turn until the first one with a fault. -/
theorem createPanels_eq_error_iff {violation : Violation} :
    createPanels requests = .error violation ↔
      requests.findSome? (fun request => request.faults.head?) = some violation := by
  induction requests with
  | nil => simp [createPanels]
  | cons request requests ih =>
    rw [createPanels, List.findSome?_cons]
    cases hf : request.faults.head? with
    | some v => simp [PanelRequest.panel_of_fault hf]
    | none =>
      obtain ⟨panel, hp, -⟩ := (PanelRequest.head?_faults_eq_none_iff.mp hf).exists_panel
      rw [hp]
      simp only [← ih]
      cases createPanels requests <;> simp

theorem createPanels_of_sound (h : ∀ request ∈ requests, request.Sound) :
    ∃ panels, createPanels requests = .ok panels ∧
      List.Forall₂ PanelRequest.Granted requests panels := by
  induction requests with
  | nil => exact ⟨[], rfl, .nil⟩
  | cons request requests ih =>
    obtain ⟨hs, hrest⟩ := List.forall_mem_cons.mp h
    obtain ⟨panel, hp, hg⟩ := hs.exists_panel
    obtain ⟨panels, hps, hgs⟩ := ih hrest
    exact ⟨panel :: panels, by rw [createPanels, hp, hps], .cons hg hgs⟩

/-- The first request with a fault, which comes after sound ones. -/
theorem findSome?_fault_eq_some_iff {violation : Violation} :
    requests.findSome? (fun request => request.faults.head?) = some violation ↔
      ∃ before request after, requests = before ++ request :: after ∧
        (∀ earlier ∈ before, earlier.Sound) ∧ request.faults.head? = some violation := by
  rw [List.findSome?_eq_some_iff]
  simp only [PanelRequest.head?_faults_eq_none_iff, and_comm]

theorem findSome?_fault_eq_none_iff :
    requests.findSome? (fun request => request.faults.head?) = none ↔
      ∀ request ∈ requests, request.Sound := by
  simp only [List.findSome?_eq_none_iff, PanelRequest.head?_faults_eq_none_iff]

theorem ids_of_granted {panels : List Panel}
    (h : List.Forall₂ PanelRequest.Granted requests panels) :
    panels.map Panel.id = requests.map PanelRequest.id := by
  induction h with
  | nil => rfl
  | cons hg _ ih => rw [List.map_cons, List.map_cons, hg.id_eq, ih]

theorem exists_request_of_granted {panels : List Panel} {panel : Panel}
    (h : List.Forall₂ PanelRequest.Granted requests panels) (hp : panel ∈ panels) :
    ∃ request ∈ requests, request.Granted panel := by
  induction h with
  | nil => cases hp
  | @cons request _ _ _ hg _ ih =>
    rcases List.mem_cons.mp hp with rfl | hp
    · exact ⟨request, List.mem_cons_self, hg⟩
    · obtain ⟨other, ho, hg⟩ := ih hp
      exact ⟨other, List.mem_cons_of_mem _ ho, hg⟩

end Creation

namespace Dashboard

variable {metadata : Metadata} {requests : List PanelRequest}

theorem create_eq_error_iff {panels : List Panel} {violation : Violation} :
    create metadata panels = .error violation ↔
      ∃ id, repeated? [] (panels.map Panel.id) = some id ∧
        violation = .repeatedPanel id metadata.title := by
  unfold create
  split
  next id hr => simp [hr, eq_comm]
  next hr => simp [hr]

theorem ofRequests_of_sound (metadata : Metadata) (h : ∀ request ∈ requests, request.Sound) :
    ∃ panels, List.Forall₂ PanelRequest.Granted requests panels ∧
      ofRequests metadata requests = create metadata panels := by
  obtain ⟨panels, hp, hg⟩ := createPanels_of_sound h
  exact ⟨panels, hg, by rw [ofRequests, hp]⟩

theorem ofRequests_eq_ok (metadata : Metadata) (h : ∀ request ∈ requests, request.Sound)
    (hn : (requests.map PanelRequest.id).Nodup) :
    ∃ dashboard : Dashboard, ofRequests metadata requests = .ok dashboard ∧
      dashboard.metadata = metadata ∧
      List.Forall₂ PanelRequest.Granted requests dashboard.panels := by
  obtain ⟨panels, hg, ho⟩ := ofRequests_of_sound metadata h
  rw [← ids_of_granted hg] at hn
  exact ⟨_, ho.trans (create_eq_ok hn), rfl, hg⟩

/-- A fault of a request comes before a repeated id. -/
theorem ofRequests_eq_error_iff {violation : Violation} :
    ofRequests metadata requests = .error violation ↔
      requests.findSome? (fun request => request.faults.head?) = some violation ∨
      (∀ request ∈ requests, request.Sound) ∧
        ∃ id, repeated? [] (requests.map PanelRequest.id) = some id ∧
          violation = .repeatedPanel id metadata.title := by
  cases hf : requests.findSome? (fun request => request.faults.head?) with
  | some v =>
    have hns : ¬ ∀ request ∈ requests, request.Sound := fun h => by
      rw [findSome?_fault_eq_none_iff.mpr h] at hf
      cases hf
    rw [ofRequests, createPanels_eq_error_iff.mpr hf]
    simp [hns]
  | none =>
    have hs := findSome?_fault_eq_none_iff.mp hf
    obtain ⟨panels, hg, ho⟩ := ofRequests_of_sound metadata hs
    rw [ho, create_eq_error_iff, ids_of_granted hg]
    constructor
    · exact fun h => Or.inr ⟨hs, h⟩
    · rintro (h | ⟨-, h⟩)
      · cases h
      · exact h

/-- When a dashboard can be made of some requests, and what it is refused for otherwise. -/
theorem ofRequests_first_fault (metadata : Metadata) (requests : List PanelRequest) :
    ((∃ dashboard, ofRequests metadata requests = .ok dashboard) ↔
      (∀ request ∈ requests, request.Sound) ∧ (requests.map PanelRequest.id).Nodup) ∧
    (∀ dashboard, ofRequests metadata requests = .ok dashboard →
      dashboard.metadata = metadata ∧
      List.Forall₂ PanelRequest.Granted requests dashboard.panels ∧
      ((∀ request ∈ requests, request.row * 18 + 12 < 2 ^ 64) →
        ∀ panel ∈ dashboard.panels, panel.position.y < 2 ^ 64)) ∧
    ∀ violation, ofRequests metadata requests = .error violation ↔
      (∃ before request after, requests = before ++ request :: after ∧
        (∀ earlier ∈ before, earlier.Sound) ∧ request.faults.head? = some violation) ∨
      (∀ request ∈ requests, request.Sound) ∧
        ∃ before request after, requests = before ++ request :: after ∧
          (before.map PanelRequest.id).Nodup ∧ request.id ∈ before.map PanelRequest.id ∧
          violation = .repeatedPanel request.id metadata.title := by
  have hok : (∃ dashboard, ofRequests metadata requests = .ok dashboard) ↔
      (∀ request ∈ requests, request.Sound) ∧ (requests.map PanelRequest.id).Nodup := by
    constructor
    · rintro ⟨dashboard, hd⟩
      have hne (violation : Violation) : ofRequests metadata requests ≠ .error violation := by
        rw [hd]
        exact nofun
      have hs : ∀ request ∈ requests, request.Sound := by
        rw [← findSome?_fault_eq_none_iff, Option.eq_none_iff_forall_ne_some]
        exact fun violation hf => hne violation (ofRequests_eq_error_iff.mpr (Or.inl hf))
      refine ⟨hs, nodup_of_repeated? (Option.eq_none_iff_forall_ne_some.mpr fun id hr => ?_)⟩
      exact hne _ (ofRequests_eq_error_iff.mpr (Or.inr ⟨hs, id, hr, rfl⟩))
    · rintro ⟨hs, hn⟩
      obtain ⟨dashboard, hd, -⟩ := ofRequests_eq_ok metadata hs hn
      exact ⟨dashboard, hd⟩
  refine ⟨hok, fun dashboard hd => ?_, fun violation => ?_⟩
  · obtain ⟨hs, hn⟩ := hok.mp ⟨dashboard, hd⟩
    obtain ⟨granted, hg, h⟩ := ofRequests_eq_ok metadata hs hn
    cases hd.symm.trans hg
    refine ⟨h.1, h.2, fun hrow panel hp => ?_⟩
    obtain ⟨request, hr, hg⟩ := exists_request_of_granted h.2 hp
    have hcol := (hs request hr).column_lt
    have hy := hrow request hr
    rw [hg.position_eq]
    change 18 * request.row + 6 * request.column < 2 ^ 64
    omega
  · rw [ofRequests_eq_error_iff, findSome?_fault_eq_some_iff]
    refine or_congr_right (and_congr_right fun _ => ?_)
    constructor
    · rintro ⟨id, hr, rfl⟩
      obtain ⟨before, request, after, hsplit, hn, hm, rfl⟩ := repeated?_map_eq_some_iff.mp hr
      exact ⟨before, request, after, hsplit, hn, hm, rfl⟩
    · rintro ⟨before, request, after, hsplit, hn, hm, rfl⟩
      exact ⟨_, repeated?_map_eq_some_iff.mpr ⟨before, request, after, hsplit, hn, hm, rfl⟩, rfl⟩

/-- Repeated ids are not told of before a later panel without targets, whose column is not looked
at. Of two repeated ids the one that is repeated first is named. -/
theorem ofRequests_first_fault_several :
    let sound (id : Nat) : PanelRequest :=
      ⟨id, 2, "Load", [⟨"up", "up", "A"⟩], .count, id, [.fill 100, .linear]⟩
    let broken : PanelRequest := ⟨1, 7, "Load", [], .count, 9, [.stacked]⟩
    ofRequests .stages [sound 4, sound 4, broken] = .error (.noTargets "Load") ∧
      ofRequests .stages [sound 2, sound 1, sound 3, sound 1, sound 2] =
        .error (.repeatedPanel 1 Metadata.stages.title) ∧
      ∃ dashboard : Dashboard, ofRequests .stages [sound 2, sound 1] = .ok dashboard ∧
        List.Forall₂ PanelRequest.Granted [sound 2, sound 1] dashboard.panels := by
  intro sound broken
  have hsound (id : Nat) (h : 0 < id) : (sound id).Sound :=
    ⟨by simp [sound], by simp [sound], h, List.cons_ne_nil _ _, by simp [sound]⟩
  refine ⟨?_, ?_, ?_⟩
  · obtain ⟨-, -, h⟩ := ofRequests_first_fault .stages [sound 4, sound 4, broken]
    refine (h _).mpr (Or.inl ⟨[sound 4, sound 4], broken, [], rfl, ?_, rfl⟩)
    simp [hsound]
  · obtain ⟨-, -, h⟩ :=
      ofRequests_first_fault .stages [sound 2, sound 1, sound 3, sound 1, sound 2]
    refine (h _).mpr (Or.inr ⟨by simp [hsound], [sound 2, sound 1, sound 3], sound 1, [sound 2],
      rfl, by decide, by decide, rfl⟩)
  · obtain ⟨hok, hkept, -⟩ := ofRequests_first_fault .stages [sound 2, sound 1]
    obtain ⟨dashboard, hd⟩ := hok.mpr ⟨by simp [hsound], by decide⟩
    exact ⟨dashboard, hd, (hkept dashboard hd).2.1⟩

end Dashboard

end StageMonitor

import Mathlib.Data.List.Induction
import StageMonitor.Proofs.Dashboard.Decoding

/-! # Styles by their changes

The last percentage that is asked for stays, lines that are straight or stacked remain so, and every
series keeps the place of its first pin and the colour of its last. So a style is told from the list
of its changes.
-/

namespace StageMonitor

open Json

namespace StyleChange

/-- The percentage that a change asks for, if it is one. -/
def fill? : StyleChange → Option Nat
  | fill n => if n ≤ 100 then some n else none
  | _ => none

/-- The series that a change pins. -/
def series? : StyleChange → Option String
  | color series _ => some series
  | _ => none

/-- The colour to which a change pins a series. -/
def colorOf? (series : String) : StyleChange → Option Color
  | color s c => if s = series then some c else none
  | _ => none

end StyleChange

section Last

variable {α β : Type} (f : α → Option β)

theorem getLast?_filterMap_concat (as : List α) (a : α) :
    ((as ++ [a]).filterMap f).getLast? = (f a).or (as.filterMap f).getLast? := by
  rw [List.filterMap_append, List.getLast?_append, List.filterMap_cons]
  cases f a <;> rfl

variable [BEq α] [LawfulBEq α]

theorem eraseDups_concat (as : List α) (a : α) :
    (as ++ [a]).eraseDups = if a ∈ as then as.eraseDups else as.eraseDups ++ [a] := by
  rw [List.eraseDups_append, List.cons_removeAll]
  by_cases h : a ∈ as
  · simp [h]
  · simp [h, List.eraseDups_cons]

end Last

namespace Style

section Step

variable (style : Style) (c : StyleChange)

theorem changeOrKeep_fill (n : Nat) :
    style.changeOrKeep (.fill n) = if h : n ≤ 100 then style.withFill n h else style := by
  by_cases h : n ≤ 100
  · simp only [changeOrKeep, change, dif_pos h]
  · simp only [changeOrKeep, change, dif_neg h]

theorem fill_changeOrKeep : (style.changeOrKeep c).fill = c.fill?.getD style.fill := by
  cases c with
  | fill n =>
    rw [changeOrKeep_fill, StyleChange.fill?]
    split <;> rfl
  | _ => rfl

theorem interpolation_changeOrKeep :
    (style.changeOrKeep c).interpolation = .linear ↔
      style.interpolation = .linear ∨ c = .linear := by
  cases c with
  | fill n =>
    rw [changeOrKeep_fill]
    split <;> simp [withFill]
  | _ => simp [changeOrKeep, change, linear, stacked, withColor]

theorem stacking_changeOrKeep :
    (style.changeOrKeep c).stacking = .normal ↔ style.stacking = .normal ∨ c = .stacked := by
  cases c with
  | fill n =>
    rw [changeOrKeep_fill]
    split <;> simp [withFill]
  | _ => simp [changeOrKeep, change, linear, stacked, withColor]

theorem get?_changeOrKeep (series : String) :
    Association.get? series (style.changeOrKeep c).colors =
      (c.colorOf? series).or (Association.get? series style.colors) := by
  cases c with
  | fill n =>
    rw [changeOrKeep_fill]
    split <;> rfl
  | color s color =>
    change Association.get? series (Association.put s color style.colors) = _
    by_cases h : s = series
    · rw [StyleChange.colorOf?, if_pos h, h, Association.get?_put_self, Option.some_or]
    · rw [StyleChange.colorOf?, if_neg h, Association.get?_put_of_ne (Ne.symm h), Option.none_or]
  | _ => rfl

theorem keys_changeOrKeep {names : List String}
    (h : Association.keys style.colors = names.eraseDups) :
    Association.keys (style.changeOrKeep c).colors = (names ++ c.series?.toList).eraseDups := by
  cases c with
  | fill n =>
    rw [changeOrKeep_fill]
    split <;> exact h.trans (congrArg List.eraseDups (List.append_nil names).symm)
  | color series color =>
    change Association.keys (Association.put series color style.colors) =
      (names ++ [series]).eraseDups
    rw [Association.keys_put, h, eraseDups_concat]
    simp only [List.mem_eraseDups]
  | _ => exact h.trans (congrArg List.eraseDups (List.append_nil names).symm)

/-- Only a fill that is no percentage is refused. -/
theorem change_eq_error_iff {violation : Violation} :
    style.change c = .error violation ↔
      ∃ n, c = .fill n ∧ 100 < n ∧ violation = .notPercentage n := by
  cases c with
  | fill n =>
    rw [change]
    split
    next h => simp [Nat.not_lt.mpr h]
    next h => simp [Nat.lt_of_not_ge h, eq_comm]
  | _ => simp [change]

end Step

section Run

variable (changes : List StyleChange)

/-- The style after some changes, without those that are refused. -/
def ofChanges : Style :=
  changes.foldl changeOrKeep initial

theorem ofChanges_concat (c : StyleChange) :
    ofChanges (changes ++ [c]) = (ofChanges changes).changeOrKeep c :=
  List.foldl_concat _ _ _ _

theorem fill_ofChanges :
    (ofChanges changes).fill = (changes.filterMap StyleChange.fill?).getLast?.getD 20 := by
  induction changes using List.reverseRecOn with
  | nil => rfl
  | append_singleton changes c ih =>
    rw [ofChanges_concat, fill_changeOrKeep, ih, getLast?_filterMap_concat, Option.getD_or]

theorem interpolation_ofChanges :
    (ofChanges changes).interpolation = .linear ↔ .linear ∈ changes := by
  induction changes using List.reverseRecOn with
  | nil => simp [ofChanges, initial]
  | append_singleton changes c ih =>
    rw [ofChanges_concat, interpolation_changeOrKeep, ih, List.mem_append, List.mem_singleton,
      eq_comm]

theorem stacking_ofChanges :
    (ofChanges changes).stacking = .normal ↔ .stacked ∈ changes := by
  induction changes using List.reverseRecOn with
  | nil => simp [ofChanges, initial]
  | append_singleton changes c ih =>
    rw [ofChanges_concat, stacking_changeOrKeep, ih, List.mem_append, List.mem_singleton, eq_comm]

theorem keys_ofChanges :
    Association.keys (ofChanges changes).colors =
      (changes.filterMap StyleChange.series?).eraseDups := by
  induction changes using List.reverseRecOn with
  | nil => rfl
  | append_singleton changes c ih =>
    rw [ofChanges_concat, keys_changeOrKeep _ c ih, List.filterMap_append]
    cases c <;> rfl

theorem get?_ofChanges (series : String) :
    Association.get? series (ofChanges changes).colors =
      (changes.filterMap (StyleChange.colorOf? series)).getLast? := by
  induction changes using List.reverseRecOn with
  | nil => rfl
  | append_singleton changes c ih =>
    rw [ofChanges_concat, get?_changeOrKeep, ih, getLast?_filterMap_concat]

end Run

/-- A style in terms of the changes that made it, and what a panel writes of its colours. -/
theorem ofChanges_closed_form (changes : List StyleChange) :
    let style := ofChanges changes
    (∀ (before : Style) c violation, before.change c = .error violation ↔
      ∃ n, c = .fill n ∧ 100 < n ∧ violation = .notPercentage n) ∧
    style.fill = (changes.filterMap StyleChange.fill?).getLast?.getD 20 ∧ style.fill ≤ 100 ∧
    (style.interpolation = .linear ↔ .linear ∈ changes) ∧
    (style.stacking = .normal ↔ .stacked ∈ changes) ∧
    (style.colors.map Prod.fst = (changes.filterMap StyleChange.series?).eraseDups ∧
      (style.colors.map Prod.fst).Nodup ∧
      ∀ series color, (series, color) ∈ style.colors →
        (changes.filterMap (StyleChange.colorOf? series)).getLast? = some color) ∧
    ∀ panel : Panel, panel.style = style →
      (panel.toJson.field? "fieldConfig" >>= Value.field? "overrides") =
        some (.array (style.colors.map fun (series, color) => colorJson series color)) := by
  intro style
  refine ⟨fun before c violation => before.change_eq_error_iff c, fill_ofChanges changes,
    style.fill_le, interpolation_ofChanges changes, stacking_ofChanges changes,
    ⟨keys_ofChanges changes, style.colors_nodup, ?_⟩, ?_⟩
  · intro series color h
    rw [← get?_ofChanges, Association.get?_of_mem style.colors_nodup h]
  · intro panel h
    rw [← h]
    rfl

/-- Two refused fills around one that counts, and a series that is pinned again. -/
theorem ofChanges_closed_form_repinned :
    let changes : List StyleChange :=
      [.color "p90" .orange, .fill 101, .color "p50" .darkBlue, .fill 30, .linear,
        .color "p90" .lightRed, .fill 255]
    let style := ofChanges changes
    let panel : Panel := ⟨7, "Latency", ⟨6, 8, 0, 0⟩, .count, style, [⟨"up", "up", "A"⟩],
      by decide, by decide, by decide⟩
    style.change (.fill 255) = .error (.notPercentage 255) ∧ style.fill = 30 ∧
      style.interpolation = .linear ∧ style.stacking ≠ .normal ∧
      style.colors.map Prod.fst = ["p90", "p50"] ∧
      (panel.toJson.field? "fieldConfig" >>= Value.field? "overrides") =
        some (.array [colorJson "p90" .lightRed, colorJson "p50" .darkBlue]) := by
  intro changes style panel
  obtain ⟨hrefused, hfill, -, hlinear, hstacked, ⟨hnames, -, -⟩, hpanel⟩ :=
    ofChanges_closed_form changes
  refine ⟨(hrefused _ _ _).mpr ⟨255, rfl, by decide, rfl⟩, hfill, hlinear.mpr (by decide),
    fun h => ?_, hnames, hpanel panel rfl⟩
  have hnot : .stacked ∉ changes := by decide
  exact hnot (hstacked.mp h)

end Style

end StageMonitor

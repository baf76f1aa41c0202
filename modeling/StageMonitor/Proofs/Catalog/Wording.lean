import Mathlib.Data.List.Permutation
import StageMonitor.Catalog.Report

/-! # Wordings of a report

A wording leaves little open. An empty text is told of in one of two ways, the two lines about a
stage come in one of two orders, and everything else is told in one way. If nothing is empty, there
is nothing left to be chosen. Apart from that each choice is made by some wording.
-/

namespace StageMonitor

theorem join_pair (first second : String) : String.join [first, second] = first ++ second := by
  rw [String.join_cons, String.join_cons, String.join_nil, String.append_empty]

namespace Arrangement

variable (arrangement : Arrangement)

theorem list_nil : arrangement.list [] = [] :=
  List.perm_nil.mp (arrangement.perm [])

/-- A single line has only one order. -/
theorem join_list_singleton (line : String) : String.join (arrangement.list [line]) = line := by
  rw [List.perm_singleton.mp (arrangement.perm [line]), String.join_cons, String.join_nil,
    String.append_empty]

theorem list_pair (first second : String) :
    arrangement.list [first, second] = [first, second] ∨
      arrangement.list [first, second] = [second, first] :=
  List.pair_perm.mp (arrangement.perm [first, second]).symm

theorem join_list_pair (first second : String) :
    String.join (arrangement.list [first, second]) = first ++ second ∨
      String.join (arrangement.list [first, second]) = second ++ first := by
  rw [← join_pair, ← join_pair]
  exact (arrangement.list_pair first second).imp (congrArg String.join) (congrArg String.join)

def reversed : Arrangement :=
  ⟨List.reverse, List.reverse_perm⟩

end Arrangement

/-- Everything the other way round. -/
def Wording.reversed : Wording :=
  ⟨fun _ => .reversed, fun _ => .reversed, fun _ => .reversed⟩

/-- The ways to tell of an empty text. -/
def EmptyWorded (text : String) : Prop :=
  text = "Validation error: length [\x7b\"min\": Number(1), \"value\": String(\"\")\x7d]" ∨
    text = "Validation error: length [\x7b\"value\": String(\"\"), \"min\": Number(1)\x7d]"

theorem emptyWorded_iff {text : String} :
    EmptyWorded text ↔ ∃ parameters, emptyMessage parameters = text := by
  constructor
  · rintro (rfl | rfl)
    · exact ⟨.asWritten, rfl⟩
    · exact ⟨.reversed, rfl⟩
  · rintro ⟨parameters, rfl⟩
    unfold emptyMessage emptyParameters
    rcases parameters.list_pair "\"min\": Number(1)" "\"value\": String(\"\")" with h | h
    · exact Or.inl (by rw [h]; rfl)
    · exact Or.inr (by rw [h]; rfl)

/-- The ways to tell what is wrong with an id. -/
inductive IdFault.Worded : IdFault → String → Prop
  | empty {text : String} : EmptyWorded text → Worded .empty text
  | forbidden (id : String) : Worded (.forbidden id) ("Invalid stage id: " ++ id)

theorem IdFault.worded_iff {fault : IdFault} {text : String} :
    fault.Worded text ↔ ∃ parameters, fault.message parameters = text := by
  constructor
  · rintro (h | id)
    · exact emptyWorded_iff.mp h
    · exact ⟨.asWritten, rfl⟩
  · rintro ⟨parameters, rfl⟩
    cases fault with
    | empty => exact .empty (emptyWorded_iff.mpr ⟨parameters, rfl⟩)
    | forbidden id => exact .forbidden id

namespace StageReport

/-- The ways to tell of the stage at an index. -/
inductive Worded (index : Nat) : StageReport → String → Prop
  | sound : Worded index ⟨none, false⟩ ""
  | id {fault : IdFault} {text : String} : fault.Worded text →
      Worded index ⟨some fault, false⟩ ("stages[" ++ toString index ++ "]." ++ "id: " ++ text)
  | label {text : String} : EmptyWorded text →
      Worded index ⟨none, true⟩ ("stages[" ++ toString index ++ "]." ++ "label: " ++ text)
  | idFirst {fault : IdFault} {text labelText : String} : fault.Worded text →
      EmptyWorded labelText →
      Worded index ⟨some fault, true⟩
        ("stages[" ++ toString index ++ "]." ++ "id: " ++ text ++
          ("stages[" ++ toString index ++ "]." ++ "label: " ++ labelText))
  | labelFirst {fault : IdFault} {text labelText : String} : fault.Worded text →
      EmptyWorded labelText →
      Worded index ⟨some fault, true⟩
        ("stages[" ++ toString index ++ "]." ++ "label: " ++ labelText ++
          ("stages[" ++ toString index ++ "]." ++ "id: " ++ text))

theorem worded_message (wording : Wording) (index : Nat) (report : StageReport) :
    report.Worded index (report.message wording index) := by
  have he := emptyWorded_iff.mpr ⟨wording.labelParameters index, rfl⟩
  obtain ⟨fault, label⟩ := report
  unfold message
  cases fault with
  | none =>
    cases label with
    | false =>
      have hl : lines wording index ⟨none, false⟩ = [] := rfl
      rw [hl, Arrangement.list_nil]
      exact .sound
    | true =>
      have hl : lines wording index ⟨none, true⟩ = [_] := rfl
      rw [hl, Arrangement.join_list_singleton]
      exact .label he
  | some fault =>
    have hf := IdFault.worded_iff.mpr ⟨wording.idParameters index, Eq.refl (fault.message _)⟩
    cases label with
    | false =>
      have hl : lines wording index ⟨some fault, false⟩ = [_] := rfl
      rw [hl, Arrangement.join_list_singleton]
      exact .id hf
    | true =>
      have hl : lines wording index ⟨some fault, true⟩ = [_, _] := rfl
      rw [hl]
      rcases (wording.lines index).join_list_pair _ _ with h | h
      · rw [h]
        exact .idFirst hf he
      · rw [h]
        exact .labelFirst hf he

theorem Worded.exists_wording {index : Nat} {report : StageReport} {text : String}
    (h : report.Worded index text) : ∃ wording, report.message wording index = text := by
  cases h with
  | sound => exact ⟨.plain, rfl⟩
  | id hf =>
    obtain ⟨parameters, rfl⟩ := IdFault.worded_iff.mp hf
    exact ⟨⟨fun _ => .asWritten, fun _ => parameters, fun _ => .asWritten⟩,
      Arrangement.join_list_singleton ..⟩
  | label he =>
    obtain ⟨parameters, rfl⟩ := emptyWorded_iff.mp he
    exact ⟨⟨fun _ => .asWritten, fun _ => .asWritten, fun _ => parameters⟩,
      Arrangement.join_list_singleton ..⟩
  | idFirst hf he =>
    obtain ⟨parameters, rfl⟩ := IdFault.worded_iff.mp hf
    obtain ⟨labelParameters, rfl⟩ := emptyWorded_iff.mp he
    exact ⟨⟨fun _ => .asWritten, fun _ => parameters, fun _ => labelParameters⟩, join_pair ..⟩
  | labelFirst hf he =>
    obtain ⟨parameters, rfl⟩ := IdFault.worded_iff.mp hf
    obtain ⟨labelParameters, rfl⟩ := emptyWorded_iff.mp he
    exact ⟨⟨fun _ => .reversed, fun _ => parameters, fun _ => labelParameters⟩, join_pair ..⟩

theorem Worded.unique {index : Nat} {report : StageReport} {text text' : String}
    (he : report.hasEmpty = false) (h : report.Worded index text) (h' : report.Worded index text') :
    text = text' := by
  cases h with
  | sound => cases h'; rfl
  | id hf =>
    cases hf with
    | empty => cases he
    | forbidden id =>
      cases h' with
      | id hf' => cases hf'; rfl
  | label => cases he
  | idFirst => simp [hasEmpty] at he
  | labelFirst => simp [hasEmpty] at he

section Faulty

variable {faulty : List (Nat × StageReport)} {texts texts' : List String}

/-- The ways to tell of some stages in turn. -/
def AllWorded (faulty : List (Nat × StageReport)) (texts : List String) : Prop :=
  List.Forall₂ (fun entry text => entry.2.Worded entry.1 text) faulty texts

theorem AllWorded.unique (he : ∀ entry ∈ faulty, entry.2.hasEmpty = false)
    (h : AllWorded faulty texts) (h' : AllWorded faulty texts') : texts = texts' := by
  induction h generalizing texts' with
  | nil => cases h'; rfl
  | cons hr _ ih =>
    cases h' with
    | cons hr' ht' =>
      obtain ⟨hentry, hfaulty⟩ := List.forall_mem_cons.mp he
      rw [hr.unique hentry hr', ih hfaulty ht']

/-- Each stage has its own wording, so the ways to tell of several stages can be combined. -/
theorem AllWorded.exists_wording (hn : (faulty.map Prod.fst).Nodup) (h : AllWorded faulty texts) :
    ∃ wording, faulty.map (fun entry => entry.2.message wording entry.1) = texts := by
  induction h with
  | nil => exact ⟨.plain, rfl⟩
  | @cons entry text faulty texts hr _ ih =>
    rw [List.map_cons, List.nodup_cons] at hn
    obtain ⟨wording, hw⟩ := hr.exists_wording
    obtain ⟨rest, hrest⟩ := ih hn.2
    refine ⟨⟨fun i => if i = entry.1 then wording.lines i else rest.lines i,
      fun i => if i = entry.1 then wording.idParameters i else rest.idParameters i,
      fun i => if i = entry.1 then wording.labelParameters i else rest.labelParameters i⟩, ?_⟩
    rw [List.map_cons, ← hw, ← hrest]
    congr 1
    · simp only [message, lines, if_true]
    · refine List.map_congr_left fun other hm => ?_
      have hne : other.1 ≠ entry.1 := fun he => hn.1 (he ▸ List.mem_map_of_mem hm)
      simp only [message, lines, if_neg hne]

end Faulty

end StageReport

namespace Report

/-- The ways to tell of a report. -/
inductive Worded : Report → String → Prop
  | repeatedId (id : String) : Worded (.repeatedId id) ("stages: Repeated stage id: " ++ id)
  | stages {faulty : List (Nat × StageReport)} {texts : List String} :
      StageReport.AllWorded faulty texts → Worded (.stages faulty) (String.join texts)

theorem worded_message (wording : Wording) (report : Report) :
    report.Worded (report.message wording) := by
  cases report with
  | repeatedId id => exact .repeatedId id
  | stages faulty =>
    refine .stages (List.forall₂_map_right_iff.mpr (List.forall₂_same.mpr fun entry _ => ?_))
    exact entry.2.worded_message wording entry.1

theorem Worded.unique {report : Report} {text text' : String} (he : report.hasEmpty = false)
    (h : report.Worded text) (h' : report.Worded text') : text = text' := by
  cases h with
  | repeatedId => cases h'; rfl
  | stages ht =>
    cases h' with
    | stages ht' => rw [StageReport.AllWorded.unique (by simpa [hasEmpty] using he) ht ht']

theorem message_eq_of_hasEmpty {report : Report} (he : report.hasEmpty = false)
    (wording wording' : Wording) : report.message wording = report.message wording' :=
  (report.worded_message wording).unique he (report.worded_message wording')

theorem worded_stages_iff {faulty : List (Nat × StageReport)} {text : String}
    (hn : (faulty.map Prod.fst).Nodup) :
    (stages faulty).Worded text ↔ ∃ wording, (stages faulty).message wording = text := by
  constructor
  · intro h
    cases h with
    | stages ht =>
      obtain ⟨wording, hw⟩ := ht.exists_wording hn
      exact ⟨wording, congrArg String.join hw⟩
  · rintro ⟨wording, rfl⟩
    exact worded_message wording _

end Report

end StageMonitor

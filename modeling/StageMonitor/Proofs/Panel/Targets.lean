import Mathlib.Data.List.Nodup
import StageMonitor.Panel.Family

/-! # Targets of series

Series are told apart by the capital letters in turn. So a panel has room for as many series as
there are letters, and of more series it is always the first one without a letter that is refused.
-/

namespace StageMonitor

namespace Query

/-- The reference of the target at an index. -/
def letter (index : Nat) : String :=
  String.singleton (Char.ofNat ('A'.toNat + index))

/-- The alphabet of references. -/
def capitals : List Char :=
  "ABCDEFGHIJKLMNOPQRSTUVWXYZ".toList

theorem length_capitals : capitals.length = maxQueries := by
  decide

theorem nodup_capitals : capitals.Nodup := by
  decide

/-- Counting on from the first letter goes through the alphabet. -/
theorem getElem?_capitals {index : Nat} (h : index < maxQueries) :
    capitals[index]? = some (Char.ofNat ('A'.toNat + index)) := by
  decide +revert

theorem letter_inj {i j : Nat} (hi : i < maxQueries) (hj : j < maxQueries)
    (h : letter i = letter j) : i = j := by
  have hc : capitals[i]? = capitals[j]? := by
    rw [getElem?_capitals hi, getElem?_capitals hj, String.singleton_inj.mp h]
  rw [← length_capitals] at hi
  exact (List.getElem?_inj hi nodup_capitals).mp hc

theorem reference_of_lt {index : Nat} (h : index < maxQueries) :
    reference index = .ok (letter index) :=
  if_pos h

theorem reference_of_le {index : Nat} (h : maxQueries ≤ index) :
    reference index = .error (.tooManyQueries index) :=
  if_neg (Nat.not_lt.mpr h)

end Query

def targetsAt (index : Nat) : List Series → List Target
  | [] => []
  | s :: rest => ⟨s.expression, s.legend, Query.letter index⟩ :: targetsAt (index + 1) rest

theorem targetsFrom_eq_ok {index : Nat} {series : List Series}
    (h : index + series.length ≤ maxQueries) :
    targetsFrom index series = .ok (targetsAt index series) := by
  induction series generalizing index with
  | nil => rfl
  | cons s rest ih =>
    rw [List.length_cons] at h
    rw [targetsFrom, Query.reference_of_lt (by omega), ih (by omega)]
    rfl

/-- However many series follow, the letters run out at the same index. -/
theorem targetsFrom_eq_error {index : Nat} {series : List Series} (hi : index ≤ maxQueries)
    (h : maxQueries < index + series.length) :
    targetsFrom index series = .error (.tooManyQueries maxQueries) := by
  induction series generalizing index with
  | nil => exact absurd hi (Nat.not_le.mpr h)
  | cons s rest ih =>
    rw [List.length_cons] at h
    rw [targetsFrom]
    -- Either a letter is left and the rest is refused, or this series is the first without one.
    rcases Nat.lt_or_eq_of_le hi with hlt | rfl
    · rw [Query.reference_of_lt hlt, ih hlt (by omega)]
    · rw [Query.reference_of_le (Nat.le_refl _)]

@[simp] theorem map_expression_targetsAt (index : Nat) (series : List Series) :
    (targetsAt index series).map Target.expression = series.map Series.expression := by
  induction series generalizing index with
  | nil => rfl
  | cons s rest ih => exact congrArg (s.expression :: ·) (ih (index + 1))

theorem exists_series_of_mem_targetsAt {index : Nat} {series : List Series} {target : Target}
    (h : target ∈ targetsAt index series) : ∃ s ∈ series, target.expression = s.expression := by
  have hm := List.mem_map_of_mem (f := Target.expression) h
  rw [map_expression_targetsAt] at hm
  obtain ⟨s, hs, he⟩ := List.mem_map.mp hm
  exact ⟨s, hs, he.symm⟩

theorem length_targetsAt (index : Nat) (series : List Series) :
    (targetsAt index series).length = series.length := by
  have h := congrArg List.length (map_expression_targetsAt index series)
  rwa [List.length_map, List.length_map] at h

theorem getElem?_targetsAt (index i : Nat) (series : List Series) :
    (targetsAt index series)[i]? =
      series[i]?.map fun s => ⟨s.expression, s.legend, Query.letter (index + i)⟩ := by
  induction series generalizing index i with
  | nil => rfl
  | cons s rest ih =>
    cases i with
    | zero => rfl
    | succ i => rw [targetsAt, List.getElem?_cons_succ, List.getElem?_cons_succ, ih,
        Nat.add_right_comm, Nat.add_assoc]

theorem map_reference_targetsAt (index : Nat) (series : List Series) :
    (targetsAt index series).map Target.reference =
      (List.range' index series.length).map Query.letter := by
  induction series generalizing index with
  | nil => rfl
  | cons s rest ih =>
    rw [targetsAt, List.map_cons, ih, List.length_cons, List.range'_succ, List.map_cons]

theorem nodup_references {index : Nat} {series : List Series}
    (h : index + series.length ≤ maxQueries) :
    ((targetsAt index series).map Target.reference).Nodup := by
  rw [map_reference_targetsAt]
  refine List.Nodup.map_on (fun i hi j hj heq => ?_) List.nodup_range'
  rw [List.mem_range'_1] at hi hj
  exact Query.letter_inj (by omega) (by omega) heq

theorem targetsOf_eq (series : List Series) :
    targetsOf series =
      if series.length ≤ maxQueries then .ok (targetsAt 0 series)
      else .error (.tooManyQueries maxQueries) := by
  split
  next h => exact targetsFrom_eq_ok (by rwa [Nat.zero_add])
  next h => exact targetsFrom_eq_error (Nat.zero_le _) (by rwa [Nat.zero_add, ← Nat.not_le])

theorem targetsOf_eq_ok_iff {series : List Series} {targets : List Target} :
    targetsOf series = .ok targets ↔
      series.length ≤ maxQueries ∧ targets = targetsAt 0 series := by
  rw [targetsOf_eq]
  split
  next h => simp [h, eq_comm]
  next h => simp [h]

theorem targetsOf_eq_error_iff {series : List Series} {violation : Violation} :
    targetsOf series = .error violation ↔
      maxQueries < series.length ∧ violation = .tooManyQueries maxQueries := by
  rw [targetsOf_eq]
  split
  next h => simp [Nat.not_lt.mpr h]
  next h => simp [Nat.lt_of_not_le h, eq_comm]

/-- Series have targets as long as there is a letter for each of them, and then they have them
under the letters in turn. Otherwise the index after the last letter is named, whatever the series
are. -/
theorem targetsOf_lettered (series : List Series) :
    ((∃ targets, targetsOf series = .ok targets) ↔ series.length ≤ 26) ∧
    (∀ targets, targetsOf series = .ok targets →
      targets.length = series.length ∧
      (∀ (i : Nat) (s : Series), series[i]? = some s →
        ∃ letter, Query.capitals[i]? = some letter ∧
          targets[i]? = some ⟨s.expression, s.legend, String.singleton letter⟩) ∧
      (targets.map Target.reference).Nodup) ∧
    (∀ violation, targetsOf series = .error violation ↔
      26 < series.length ∧ violation = .tooManyQueries 26) ∧
    (Violation.tooManyQueries 26).message = "Query index 26 exceeds the 26 reference ids." := by
  refine ⟨?_, ?_, fun _ => targetsOf_eq_error_iff, rfl⟩
  · simp only [targetsOf_eq_ok_iff]
    constructor
    · rintro ⟨_, h, -⟩
      exact h
    · exact fun h => ⟨_, h, rfl⟩
  · intro targets hok
    obtain ⟨h, rfl⟩ := targetsOf_eq_ok_iff.mp hok
    refine ⟨length_targetsAt 0 series, fun i s hs => ?_, nodup_references (by rwa [Nat.zero_add])⟩
    have hi : i < maxQueries := Nat.lt_of_lt_of_le (List.getElem?_eq_some_iff.mp hs).1 h
    refine ⟨_, Query.getElem?_capitals hi, ?_⟩
    rw [getElem?_targetsAt, hs, Nat.zero_add]
    rfl

/-- The last letter is still given, and a thousand series are refused like one too many. -/
theorem targetsOf_lettered_to_the_end :
    let load : Series := ⟨"load", "up"⟩
    (∃ targets, targetsOf (List.replicate 25 load ++ [⟨"", "\""⟩]) = .ok targets ∧
      targets.length = 26 ∧ targets[0]? = some ⟨"up", "load", "A"⟩ ∧
      targets[25]? = some ⟨"\"", "", "Z"⟩ ∧ (targets.map Target.reference).Nodup) ∧
    targetsOf (List.replicate 27 load) = .error (.tooManyQueries 26) ∧
    targetsOf (List.replicate 1000 load) = .error (.tooManyQueries 26) := by
  intro load
  obtain ⟨hok, hgiven, -, -⟩ := targetsOf_lettered (List.replicate 25 load ++ [⟨"", "\""⟩])
  obtain ⟨targets, ht⟩ := hok.mpr (by decide)
  obtain ⟨hlength, hat, hnodup⟩ := hgiven targets ht
  obtain ⟨a, ha, hfirst⟩ := hat 0 load rfl
  obtain ⟨z, hz, hlast⟩ := hat 25 ⟨"", "\""⟩ rfl
  cases ha
  cases hz
  obtain ⟨-, -, hmany, -⟩ := targetsOf_lettered (List.replicate 27 load)
  obtain ⟨-, -, hmore, -⟩ := targetsOf_lettered (List.replicate 1000 load)
  refine ⟨⟨targets, ht, hlength, hfirst, hlast, hnodup⟩, (hmany _).mpr ⟨?_, rfl⟩,
    (hmore _).mpr ⟨?_, rfl⟩⟩
  · rw [List.length_replicate]
    decide
  · rw [List.length_replicate]
    decide

end StageMonitor

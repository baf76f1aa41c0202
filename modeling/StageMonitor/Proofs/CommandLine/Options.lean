import StageMonitor.CommandLine.Options

/-! # Asking for a comparison

A command line that asks for no comparison asks for one if the option is put in front of it, and for
nothing else that is new.
-/

namespace StageMonitor

namespace Given

variable {given given' : Given} {value : String} {option : Valued}

theorem check_of_set? (h : given.set? value option = some given') : given'.check = given.check := by
  cases option
  all_goals
    simp only [set?] at h
    split at h
    · cases h
    · obtain ⟨_, -, rfl⟩ := Option.map_eq_some_iff.mp h
      rfl

theorem set?_check (given : Given) (value : String) (option : Valued) :
    set? { given with check := true } value option =
      (given.set? value option).map fun given => { given with check := true } := by
  cases option
  all_goals
    simp only [set?]
    split
    · rfl
    · rw [Option.map_map]
      rfl

end Given

namespace CommandLine

variable {given : Given} {arguments : List String} {options : Options}

theorem check_of_parseFrom (h : parseFrom given arguments = .run options)
    (hg : given.check = true) : options.check = true := by
  fun_induction parseFrom given arguments with
  | case1 => cases h; exact hg
  | case2 _ _ _ _ _ _ _ hs ih => exact ih h (by rw [Given.check_of_set? hs, hg])
  | case5 _ _ _ _ _ _ _ _ hs ih => exact ih h (by rw [Given.check_of_set? hs, hg])
  | case9 _ _ _ _ _ ih => exact ih h rfl
  | case11 => cases h; exact hg
  | _ => cases h

theorem parseFrom_check (h : parseFrom given arguments = .run options)
    (hc : options.check = false) :
    parseFrom { given with check := true } arguments = .run { options with check := true } := by
  fun_induction parseFrom given arguments with
  | case1 => cases h; rfl
  | case2 given argument arguments option value ha given' hs ih =>
    rw [parseFrom, ha]
    simp only [Given.set?_check, hs, Option.map_some]
    exact ih h
  | case5 given argument option ha value arguments hv given' hs ih =>
    rw [parseFrom, ha]
    simp only [hv, if_true, Given.set?_check, hs, Option.map_some]
    exact ih h
  | case9 =>
    rw [check_of_parseFrom h rfl] at hc
    cases hc
  | case11 given argument ha =>
    cases h
    rw [parseFrom, ha]
    rfl
  | _ => cases h

/-- The same command again, with a comparison instead of a new file. -/
theorem parse_check (h : parse arguments = .run options) (hc : options.check = false) :
    parse ("--check" :: arguments) = .run { options with check := true } :=
  parseFrom_check h hc

end CommandLine

end StageMonitor

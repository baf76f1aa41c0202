import Mathlib.Data.List.Perm.Basic
import StageMonitor.CommandLine.Options

/-! # Settings

A setting is an option with its value. What settings ask for together is told by which of them there
are, as long as no option comes twice, and so are the options that have been met while a command line
is read.
-/

namespace StageMonitor

/-- An option with its value. -/
inductive Setting
  | valued (option : Valued) (value : String)
  | check
  deriving DecidableEq, Repr

namespace Setting

/-- The option of a setting; a comparison is asked for by an option without a value. -/
def option? : Setting → Option Valued
  | valued option _ => some option
  | check => none

/-- A path is not empty, and a level is one. -/
def Valid : Setting → Prop
  | valued .level value => (Level.ofString? value).isSome
  | valued _ value => value ≠ ""
  | check => True

instance : (setting : Setting) → Decidable setting.Valid
  | valued .output _ => inferInstanceAs (Decidable (_ ≠ ""))
  | valued .catalog _ => inferInstanceAs (Decidable (_ ≠ ""))
  | valued .level _ => inferInstanceAs (Decidable (_ = true))
  | check => inferInstanceAs (Decidable True)

/-- Settings that can be asked for together: all are valid, and no option comes twice. -/
structure Consistent (settings : List Setting) : Prop where
  valid : ∀ setting ∈ settings, setting.Valid
  nodup : (settings.map option?).Nodup

section Consistent

variable {settings settings' : List Setting}

theorem Consistent.concat {setting : Setting} (h : Consistent settings) (hv : setting.Valid)
    (hn : setting.option? ∉ settings.map option?) : Consistent (settings ++ [setting]) := by
  constructor
  · intro s hs
    rcases List.mem_append.mp hs with hs | hs
    · exact h.valid s hs
    · rwa [List.mem_singleton.mp hs]
  · rw [List.map_append, List.map_singleton]
    exact List.nodup_append.mpr ⟨h.nodup, List.pairwise_singleton _ _, by simpa using hn⟩

theorem Consistent.of_concat {setting : Setting} (h : Consistent (settings ++ [setting])) :
    setting.Valid ∧ setting.option? ∉ settings.map option? := by
  have hn := h.nodup
  rw [List.map_append, List.map_singleton] at hn
  refine ⟨h.valid setting (List.mem_append_right _ List.mem_cons_self), fun hm => ?_⟩
  exact (List.nodup_append.mp hn).2.2 _ hm _ List.mem_cons_self rfl

theorem Consistent.perm (h : Consistent settings) (hp : settings'.Perm settings) :
    Consistent settings' :=
  ⟨fun s hs => h.valid s (hp.mem_iff.mp hs), (hp.map option?).nodup_iff.mpr h.nodup⟩

theorem Consistent.of_append_left (h : Consistent (settings ++ settings')) :
    Consistent settings := by
  constructor
  · exact fun s hs => h.valid s (List.mem_append_left _ hs)
  · exact h.nodup.sublist ((List.sublist_append_left settings settings').map option?)

end Consistent

end Setting

/-- Options that are given by some settings, and by default where there is none. -/
structure Options.Follows (options : Options) (settings : List Setting) : Prop where
  output_iff : ∀ path, options.output = some path ↔ .valued .output path ∈ settings
  catalog_iff : ∀ path, options.catalog = some path ↔ .valued .catalog path ∈ settings
  check_iff : options.check = true ↔ .check ∈ settings
  level_iff : ∀ level, options.level = level ↔
    (∃ text, .valued .level text ∈ settings ∧ Level.ofString? text = some level) ∨
      level = .upTo .info ∧ ∀ text, .valued .level text ∉ settings

namespace Options

variable {options options' : Options} {settings settings' : List Setting}

theorem Follows.unique (h : options.Follows settings) (h' : options'.Follows settings) :
    options = options' := by
  have ho : options.output = options'.output :=
    Option.ext fun path => (h.output_iff path).trans (h'.output_iff path).symm
  have hc : options.catalog = options'.catalog :=
    Option.ext fun path => (h.catalog_iff path).trans (h'.catalog_iff path).symm
  have hk : options.check = options'.check :=
    Bool.eq_iff_iff.mpr (h.check_iff.trans h'.check_iff.symm)
  have hl : options.level = options'.level :=
    (h.level_iff _).mpr ((h'.level_iff _).mp rfl)
  cases options
  cases options'
  simp_all

theorem Follows.perm (h : options.Follows settings) (hp : settings.Perm settings') :
    options.Follows settings' := by
  have hm (setting : Setting) : setting ∈ settings' ↔ setting ∈ settings := hp.mem_iff.symm
  refine ⟨?_, ?_, ?_, ?_⟩
  · simpa only [hm] using h.output_iff
  · simpa only [hm] using h.catalog_iff
  · simpa only [hm] using h.check_iff
  · simpa only [hm] using h.level_iff

end Options

namespace Given

variable {given given' : Given} {settings : List Setting} {setting : Setting}

/-- Takes a setting whose option is not given yet. -/
def take? (given : Given) : Setting → Option Given
  | .valued option value => given.set? value option
  | .check => if given.check then none else some { given with check := true }

/-- Whether an option is given. -/
def has (given : Given) : Option Valued → Bool
  | some .output => given.output.isSome
  | some .catalog => given.catalog.isSome
  | some .level => given.level.isSome
  | none => given.check

/-- What is given is what some settings say. -/
structure Reflects (given : Given) (settings : List Setting) : Prop
    extends Setting.Consistent settings where
  output_iff : ∀ path, given.output = some path ↔ .valued .output path ∈ settings
  catalog_iff : ∀ path, given.catalog = some path ↔ .valued .catalog path ∈ settings
  check_iff : given.check = true ↔ .check ∈ settings
  level_iff : ∀ level, given.level = some level ↔
    ∃ text, .valued .level text ∈ settings ∧ Level.ofString? text = some level

theorem reflects_nothing : nothing.Reflects [] where
  output_iff := by simp [nothing]
  catalog_iff := by simp [nothing]
  check_iff := by simp [nothing]
  level_iff := by simp [nothing]
  valid := nofun
  nodup := List.nodup_nil

theorem Reflects.has_iff (h : given.Reflects settings) (option : Option Valued) :
    given.has option = true ↔ option ∈ settings.map Setting.option? := by
  rw [List.mem_map]
  constructor
  · intro hh
    cases option with
    | none => exact ⟨_, h.check_iff.mp hh, rfl⟩
    | some option =>
      cases option with
      | output =>
        obtain ⟨path, hp⟩ := Option.isSome_iff_exists.mp hh
        exact ⟨_, (h.output_iff path).mp hp, rfl⟩
      | catalog =>
        obtain ⟨path, hp⟩ := Option.isSome_iff_exists.mp hh
        exact ⟨_, (h.catalog_iff path).mp hp, rfl⟩
      | level =>
        obtain ⟨level, hl⟩ := Option.isSome_iff_exists.mp hh
        obtain ⟨text, ht, -⟩ := (h.level_iff level).mp hl
        exact ⟨_, ht, rfl⟩
  · rintro ⟨setting, hs, rfl⟩
    cases setting with
    | check => exact h.check_iff.mpr hs
    | valued option value =>
      cases option with
      | output => exact Option.isSome_iff_exists.mpr ⟨value, (h.output_iff value).mpr hs⟩
      | catalog => exact Option.isSome_iff_exists.mpr ⟨value, (h.catalog_iff value).mpr hs⟩
      | level =>
        obtain ⟨level, hl⟩ := Option.isSome_iff_exists.mp (h.valid _ hs)
        exact Option.isSome_iff_exists.mpr ⟨level, (h.level_iff level).mpr ⟨value, hs, hl⟩⟩

theorem take?_of_has (h : given.has setting.option? = true) : given.take? setting = none := by
  cases setting with
  | check => exact if_pos h
  | valued option value => cases option <;> exact if_pos h

theorem take?_of_not_valid (h : ¬ setting.Valid) : given.take? setting = none := by
  cases setting with
  | check => exact absurd trivial h
  | valued option value =>
    cases option with
    | output =>
      have hv : path? value = none := if_pos (not_not.mp h)
      simp only [take?, set?, hv, Option.map_none, ite_self]
    | catalog =>
      have hv : path? value = none := if_pos (not_not.mp h)
      simp only [take?, set?, hv, Option.map_none, ite_self]
    | level =>
      have hv : Level.ofString? value = none := Option.not_isSome_iff_eq_none.mp h
      simp only [take?, set?, hv, Option.map_none, ite_self]

/-- A valid setting of a new option is taken. -/
theorem Reflects.exists_take? (h : given.Reflects settings) (hv : setting.Valid)
    (hn : setting.option? ∉ settings.map Setting.option?) :
    ∃ given', given.take? setting = some given' ∧ given'.Reflects (settings ++ [setting]) := by
  have hcons := h.toConsistent.concat hv hn
  have hnot : ¬ given.has setting.option? := fun hh => hn ((h.has_iff _).mp hh)
  cases setting with
  | check =>
    refine ⟨_, if_neg hnot, hcons, ?_, ?_, ?_, ?_⟩
    · simp [h.output_iff]
    · simp [h.catalog_iff]
    · simp
    · simp [h.level_iff]
  | valued option value =>
    cases option with
    | output =>
      have hp : path? value = some value := if_neg hv
      have ho : given.output = none := Option.not_isSome_iff_eq_none.mp hnot
      refine ⟨_, (if_neg hnot).trans (congrArg _ hp), hcons, ?_, ?_, ?_, ?_⟩
      · simp [← h.output_iff, ho, eq_comm]
      · simp [h.catalog_iff]
      · simp [h.check_iff]
      · simp [h.level_iff]
    | catalog =>
      have hp : path? value = some value := if_neg hv
      have hc : given.catalog = none := Option.not_isSome_iff_eq_none.mp hnot
      refine ⟨_, (if_neg hnot).trans (congrArg _ hp), hcons, ?_, ?_, ?_, ?_⟩
      · simp [h.output_iff]
      · simp [← h.catalog_iff, hc, eq_comm]
      · simp [h.check_iff]
      · simp [h.level_iff]
    | level =>
      obtain ⟨level, hl⟩ := Option.isSome_iff_exists.mp hv
      have hg : given.level = none := Option.not_isSome_iff_eq_none.mp hnot
      refine ⟨_, (if_neg hnot).trans (congrArg _ hl), hcons, ?_, ?_, ?_, ?_⟩
      · simp [h.output_iff]
      · simp [h.catalog_iff]
      · simp [h.check_iff]
      · intro l
        constructor
        · rintro ⟨rfl⟩
          exact ⟨value, List.mem_append_right _ List.mem_cons_self, hl⟩
        · rintro ⟨text, ht, hx⟩
          rcases List.mem_append.mp ht with ht | ht
          · have hold := (h.level_iff l).mpr ⟨text, ht, hx⟩
            rw [hg] at hold
            cases hold
          · cases List.mem_singleton.mp ht
            exact hl.symm.trans hx

theorem Reflects.follows (h : given.Reflects settings) : given.options.Follows settings := by
  refine ⟨h.output_iff, h.catalog_iff, h.check_iff, fun level => ?_⟩
  change given.level.getD (.upTo .info) = level ↔ _
  cases hg : given.level with
  | some l =>
    constructor
    · rintro rfl
      exact Or.inl ((h.level_iff l).mp hg)
    · rintro (ht | ⟨-, hnone⟩)
      · exact Option.some.inj (hg.symm.trans ((h.level_iff level).mpr ht))
      · obtain ⟨text, ht, -⟩ := (h.level_iff l).mp hg
        exact absurd ht (hnone text)
  | none =>
    constructor
    · rintro rfl
      refine Or.inr ⟨rfl, fun text ht => ?_⟩
      obtain ⟨l, hl⟩ := Option.isSome_iff_exists.mp (h.valid _ ht)
      cases hg.symm.trans ((h.level_iff l).mpr ⟨text, ht, hl⟩)
    · rintro (ht | ⟨rfl, -⟩)
      · cases hg.symm.trans ((h.level_iff level).mpr ht)
      · rfl

end Given

end StageMonitor

import StageMonitor.Proofs.CommandLine.Printing
import StageMonitor.Proofs.CommandLine.Run
import StageMonitor.Proofs.CommandLine.Settings

/-! # Spellings of settings

A command line spells settings one after the other. Each is taken whole before the next one is
looked at, however it is spelled and whatever its value looks like. So a command line means what its
settings say, and it is refused if they cannot be asked for together. Only the wording of a report
is left to the single run.
-/

namespace StageMonitor

def Valued.longName : Valued → String
  | output => "output-path"
  | catalog => "catalog-path"
  | level => "log-level"

namespace Setting

/-- The ways to write a setting. -/
inductive Spelled : Setting → List String → Prop
  | apart {option : Valued} {value : String} : value.toList.head? ≠ some '-' →
      Spelled (valued option value) ["--" ++ option.longName, value]
  | joined {option : Valued} {value : String} :
      Spelled (valued option value) ["--" ++ option.longName ++ "=" ++ value]
  | shortApart {path : String} : path.toList.head? ≠ some '-' →
      Spelled (valued .output path) ["-o", path]
  | shortJoined {path : String} : Spelled (valued .output path) ["-o=" ++ path]
  | attached {path : String} : path ≠ "" → path.toList.head? ≠ some '=' →
      Spelled (valued .output path) ["-o" ++ path]
  | check : Spelled check ["--check"]

/-- The ways to write some settings in turn. -/
inductive AllSpelled : List Setting → List String → Prop
  | nil : AllSpelled [] []
  | cons {setting : Setting} {settings : List Setting} {words arguments : List String} :
      setting.Spelled words → AllSpelled settings arguments →
      AllSpelled (setting :: settings) (words ++ arguments)

theorem AllSpelled.append {settings more : List Setting} {arguments words : List String}
    (h : AllSpelled settings arguments) (hm : AllSpelled more words) :
    AllSpelled (settings ++ more) (arguments ++ words) := by
  induction h with
  | nil => exact hm
  | cons hs _ ih =>
    rw [List.append_assoc]
    exact .cons hs ih

theorem exists_allSpelled (settings : List Setting) :
    ∃ arguments, AllSpelled settings arguments := by
  induction settings with
  | nil => exact ⟨[], .nil⟩
  | cons setting settings ih =>
    obtain ⟨arguments, h⟩ := ih
    cases setting with
    | valued option value => exact ⟨_, .cons .joined h⟩
    | check => exact ⟨_, .cons .check h⟩

end Setting

namespace Argument

theorem ofChars_apart (option : Valued) :
    ofChars ("--" ++ option.longName).toList = .valued option none := by
  cases option <;> rfl

theorem ofChars_joined (option : Valued) (value : String) :
    ofChars ("--" ++ option.longName ++ "=" ++ value).toList = .valued option (some value) := by
  have h : ofChars (("--" ++ option.longName ++ "=").toList ++ value.toList) =
      .valued option (some (String.ofList value.toList)) := by
    cases option <;> rfl
  rw [String.toList_append, h, String.ofList_toList]

theorem ofChars_shortJoined (path : String) :
    ofChars ("-o=" ++ path).toList = .valued .output (some path) := by
  have h : ofChars ("-o=".toList ++ path.toList) =
      .valued .output (some (String.ofList path.toList)) := rfl
  rw [String.toList_append, h, String.ofList_toList]

theorem ofChars_attached {path : String} (hne : path ≠ "") (h : path.toList.head? ≠ some '=') :
    ofChars ("-o" ++ path).toList = .valued .output (some path) := by
  have ho : ofChars ("-o".toList ++ path.toList) = .valued .output (attached path.toList) := rfl
  have ha : attached path.toList = some path := by
    unfold attached
    split
    next hl => exact absurd (String.toList_eq_nil_iff.mp hl) hne
    next hl => simp [hl] at h
    · rw [String.ofList_toList]
  rw [String.toList_append, ho, ha]

/-- An argument that starts with no dash is no option. -/
theorem ofChars_of_head?_ne {s : List Char} (h : s.head? ≠ some '-') : ofChars s = .other := by
  unfold ofChars
  split <;> simp_all

end Argument

namespace CommandLine

open Setting

variable {given : Given} {setting : Setting} {settings told : List Setting}
  {words arguments : List String}

/-- However a setting is spelled, it is taken, and reading goes on behind it. -/
theorem parseFrom_spelled (h : setting.Spelled words) (given : Given) (rest : List String) :
    parseFrom given (words ++ rest) =
      match given.take? setting with
      | some given' => parseFrom given' rest
      | none => .misuse := by
  have hvalue {value : String} (hd : value.toList.head? ≠ some '-') : isValue value = true := by
    simp [isValue, hd]
  cases h with
  | apart hd =>
    rw [List.cons_append, parseFrom, Argument.ofChars_apart]
    simp only [List.cons_append, List.nil_append, hvalue hd, if_true]
    rfl
  | joined =>
    rw [List.cons_append, parseFrom, Argument.ofChars_joined]
    rfl
  | @shortApart path hd =>
    have ho : Argument.ofChars "-o".toList = .valued .output none := rfl
    rw [List.cons_append, parseFrom, ho]
    simp only [List.cons_append, List.nil_append, hvalue hd, if_true]
    rfl
  | shortJoined =>
    rw [List.cons_append, parseFrom, Argument.ofChars_shortJoined]
    rfl
  | attached hne hd =>
    rw [List.cons_append, parseFrom, Argument.ofChars_attached hne hd]
    rfl
  | check =>
    have hc : Argument.ofChars "--check".toList = .check := rfl
    rw [List.cons_append, parseFrom, hc, Given.take?]
    by_cases hg : given.check
    · simp only [hg, if_true]
    · simp only [hg]
      rfl

/-- Settings are all taken, in whatever way they are spelled, unless they are inconsistent. -/
theorem parseFrom_allSpelled (h : AllSpelled settings arguments) (hg : given.Reflects told) :
    (∃ given', given'.Reflects (told ++ settings) ∧
      ∀ rest, parseFrom given (arguments ++ rest) = parseFrom given' rest) ∨
    ¬ Consistent (told ++ settings) ∧
      ∀ rest, parseFrom given (arguments ++ rest) = .misuse := by
  induction h generalizing given told with
  | nil => exact Or.inl ⟨given, by rwa [List.append_nil], fun rest => rfl⟩
  | @cons setting settings words arguments hs _ ih =>
    have hstep := parseFrom_spelled hs given
    simp only [List.append_assoc]
    -- Whether the first setting is taken depends on what was told before, not on what follows.
    by_cases hc : setting.Valid ∧ setting.option? ∉ told.map option?
    · obtain ⟨given₁, ht, hg₁⟩ := hg.exists_take? hc.1 hc.2
      simp only [hstep, ht]
      simpa only [List.append_assoc, List.singleton_append] using ih hg₁
    · have ht : given.take? setting = none := by
        by_cases hv : setting.Valid
        · exact Given.take?_of_has ((hg.has_iff _).mpr (not_not.mp fun hn => hc ⟨hv, hn⟩))
        · exact Given.take?_of_not_valid hv
      refine Or.inr ⟨fun h => hc ?_, fun rest => by rw [hstep, ht]⟩
      exact (List.append_cons told setting settings ▸ h).of_append_left.of_concat

theorem parse_of_allSpelled (h : AllSpelled settings arguments) (hc : Consistent settings) :
    ∃ options : Options, options.Follows settings ∧ parse arguments = .run options := by
  rcases parseFrom_allSpelled h Given.reflects_nothing with ⟨given, hg, hp⟩ | ⟨hn, -⟩
  · refine ⟨given.options, hg.follows, ?_⟩
    have hrun := hp []
    rwa [List.append_nil] at hrun
  · exact absurd hc hn

theorem parse_of_inconsistent (h : AllSpelled settings arguments) (hn : ¬ Consistent settings) :
    parse arguments = .misuse := by
  rcases parseFrom_allSpelled h Given.reflects_nothing with ⟨given, hg, -⟩ | ⟨-, hp⟩
  · exact absurd hg.toConsistent hn
  · have hmisuse := hp []
    rwa [List.append_nil] at hmisuse

/-- An argument that is neither an option nor the value of one is not accepted. -/
theorem parse_stray (h : AllSpelled settings arguments) {stray : String}
    (hs : stray.toList.head? ≠ some '-') (more : List String) :
    parse (arguments ++ stray :: more) = .misuse := by
  rcases parseFrom_allSpelled h Given.reflects_nothing with ⟨given, -, hp⟩ | ⟨-, hp⟩
  · refine (hp (stray :: more)).trans ?_
    rw [parseFrom, Argument.ofChars_of_head?_ne hs]
  · exact hp (stray :: more)

end CommandLine

theorem runProgram_of_misuse {arguments : List String} (h : CommandLine.parse arguments = .misuse)
    (root : Path) (files : FileSystem) : runProgram root arguments files = ⟨2, [], files⟩ := by
  rw [runProgram, h]
  rfl

open Setting

/-- A command line means what its settings say. It does not matter how they are spelled and in what
order they come. All of these command lines print the same, each in its own wording. If an option
comes again, or something that is no option, nothing is done. -/
theorem runProgram_by_settings {settings : List Setting} (hc : Consistent settings) :
    (∃ options : Options, options.Follows settings ∧
      ∀ order arguments, order.Perm settings → AllSpelled order arguments →
        ∀ root files, runProgram root arguments files = options.ending root files ∧
          ∀ wording wording' : Wording,
            List.Forall₂ Reworded ((runProgram root arguments files).lines wording)
              ((options.ending root files).lines wording')) ∧
    ∀ before after arguments more, (before ++ after).Perm settings →
      AllSpelled before arguments → AllSpelled after more →
      (∀ (again : Setting) words, again.Spelled words → again.option? ∈ settings.map option? →
        ∀ root files, runProgram root (arguments ++ words ++ more) files = ⟨2, [], files⟩) ∧
      ∀ stray : String, stray.toList.head? ≠ some '-' →
        ∀ root files, runProgram root (arguments ++ stray :: more) files = ⟨2, [], files⟩ := by
  constructor
  · obtain ⟨_, hs⟩ := exists_allSpelled settings
    obtain ⟨options, hf, -⟩ := CommandLine.parse_of_allSpelled hs hc
    refine ⟨options, hf, fun order arguments hp ha root files => ?_⟩
    obtain ⟨_, hf', hparse⟩ := CommandLine.parse_of_allSpelled ha (hc.perm hp)
    have hrun := @runProgram_eq root arguments _ hparse files
    rw [hf'.unique (hf.perm hp.symm)] at hrun
    refine ⟨hrun, fun wording wording' => ?_⟩
    rw [hrun]
    exact Event.forall₂_reworded_line ..
  · intro before after arguments more hp hb ha
    refine ⟨fun again words hw hm root files => ?_, fun stray hs root files => ?_⟩
    · have hn : ¬ Consistent (before ++ again :: after) := by
        intro h
        have hmoved : (before ++ after ++ [again]).Perm (before ++ again :: after) :=
          (List.perm_append_singleton ..).trans List.perm_middle.symm
        exact (h.perm hmoved).of_concat.2 ((hp.map option?).mem_iff.mpr hm)
      rw [List.append_assoc]
      exact runProgram_of_misuse (CommandLine.parse_of_inconsistent (hb.append (.cons hw ha)) hn) ..
    · exact runProgram_of_misuse (CommandLine.parse_stray hb hs more) ..

/-- Values that look like options, and that start with an equals sign. -/
theorem runProgram_by_settings_lookalikes :
    runProgram "/" ["-o=--check", "--log-level", "3", "--check", "--catalog-path==o"] .empty =
        runProgram "/" ["--catalog-path", "=o", "--check", "-o--check", "--log-level=3"] .empty ∧
      runProgram "/" ["-o=--check", "--log-level", "3", "--output-path", "o", "--check",
        "--catalog-path==o"] .empty = ⟨2, [], .empty⟩ ∧
      runProgram "/" ["-o=--check", "--log-level", "3", "check", "--check",
        "--catalog-path==o"] .empty = ⟨2, [], .empty⟩ := by
  have hout : (Setting.valued .output "--check").Spelled ["-o=--check"] := .shortJoined
  have hlevel : (Setting.valued .level "3").Spelled ["--log-level", "3"] := .apart (by decide)
  have hcat : (Setting.valued .catalog "=o").Spelled ["--catalog-path==o"] := .joined
  have hbefore := AllSpelled.cons hout (.cons hlevel .nil)
  have hafter := AllSpelled.cons .check (.cons hcat .nil)
  have hout' : (Setting.valued .output "--check").Spelled ["-o--check"] :=
    .attached (by decide) (by decide)
  have hlevel' : (Setting.valued .level "3").Spelled ["--log-level=3"] := .joined
  have hcat' : (Setting.valued .catalog "=o").Spelled ["--catalog-path", "=o"] :=
    .apart (by decide)
  have hother := AllSpelled.cons hcat' (.cons .check (.cons hout' (.cons hlevel' .nil)))
  have hc : Consistent [.valued .output "--check", .valued .level "3", .check,
      .valued .catalog "=o"] := ⟨by decide, by decide⟩
  obtain ⟨⟨options, -, hsame⟩, htwice⟩ := runProgram_by_settings hc
  obtain ⟨hagain, hstray⟩ := htwice _ _ _ _ (.refl _) hbefore hafter
  refine ⟨?_, ?_, ?_⟩
  · have hone := (hsame _ _ (.refl _) (hbefore.append hafter) "/" .empty).1
    have htwo := (hsame _ _ (by decide) hother "/" .empty).1
    exact hone.trans htwo.symm
  · exact hagain (.valued .output "o") ["--output-path", "o"] (.apart (by decide)) (by decide) ..
  · exact hstray "check" (by decide) ..

/-- The line about an empty label need not come out the same again. -/
theorem runProgram_by_settings_reordered :
    let files := (Session.holding (Catalog.toJson ⟨[⟨"a", ""⟩]⟩).compactText).files
    let ending := runProgram "/" ["-o", "out.json", "--catalog-path=d.json", "--log-level=1"] files
    let ending' := runProgram "/" ["--log-level=1", "--catalog-path", "d.json", "-oout.json"] files
    ending.lines .plain = ["ERROR stages[0].label: Validation error: length " ++
        "[\x7b\"min\": Number(1), \"value\": String(\"\")\x7d]"] ∧
      ending'.lines .reversed ≠ ending.lines .plain := by
  intro files ending ending'
  let catalog : Catalog := ⟨[⟨"a", ""⟩]⟩
  let report : Report := .stages [(0, ⟨none, true⟩)]
  let options : Options := ⟨some "out.json", some "d.json", false, .upTo .error⟩
  have ht : catalog.toJson.compactText ∈ catalog.texts := by simp [Catalog.texts]
  have hr : catalog.report? = some report := by decide
  have hlog {arguments : List String} (hp : CommandLine.parse arguments = .run options) :
      (runProgram "/" arguments files).log = [.failed (.invalidCatalog catalog report)] :=
    congrArg Ending.log (runProgram_of_report hp rfl ht rfl hr)
  have hone : ending.log = [.failed (.invalidCatalog catalog report)] := hlog (by decide)
  have htwo : ending'.log = [.failed (.invalidCatalog catalog report)] := hlog (by decide)
  unfold Ending.lines
  rw [hone, htwo]
  exact ⟨by decide, by decide⟩

end StageMonitor

import StageMonitor.Proofs.CommandLine.Run

/-! # What failing runs leave behind

Files are written at the very end of a run only, and nothing but the directories for them is made
before. So a run that fails earlier, or only compares, leaves everything as it was.
-/

namespace StageMonitor

variable {options : Options} {root : Path} {files files' : FileSystem}

namespace Options

theorem exitCode_ne_two : (options.ending root files).exitCode ≠ 2 := by
  obtain ⟨result, files', -, h, -⟩ := exists_course options root files
  cases result with
  | ok => rw [exitCode_eq_zero_iff.mpr ⟨files', h⟩]; decide
  | error failure => rw [(ending_of_error h).1]; decide

/-- Nothing is written to get the catalog, to build the dashboard or to compare it. -/
theorem Course.files_eq_of_check {result : Except Failure Unit} (hc : options.check = true)
    (h : options.Course root files result files') : files' = files := by
  cases h with
  | unsupplied => rfl
  | @delivered catalog _ _ _ _ hd =>
    rw [Session.deliver_ends_iff, if_pos hc] at hd
    rcases Session.check_ends catalog.document (options.destination root) files with
      ⟨failure, -, he⟩ | he
    · exact (hd.unique he).2.1
    · exact (hd.unique he).2.1

theorem course_of_load {path : Path} {failure : Failure} {events : List Event}
    (hc : options.catalog = some path)
    (h : (Session.load path).Ends files (.error failure) files' events) :
    options.Course root files (.error failure) files := by
  rcases Session.load_ends path files with ⟨_, -, hl⟩ | ⟨_, _, -, -, -, hl⟩
  · obtain ⟨he, -, rfl⟩ := h.unique hl
    cases he
    refine @Course.unsupplied _ _ _ failure [.loading path] ?_
    rw [Session.supply_of_catalog hc]
    exact hl
  · cases (h.unique hl).1

end Options

/-- What is there before a run is left as it is by a wrong command line, by a comparison and by a
catalog that cannot be loaded. If the dashboard cannot be stored, some of the directories in which it
should be were added, and there are no files in them. -/
theorem runProgram_leaves (root : Path) (arguments : List String) (files : FileSystem) :
    let ending := runProgram root arguments files
    (ending.exitCode = 2 ↔ CommandLine.parse arguments = .misuse) ∧
    (ending.exitCode = 2 → ending.files = files) ∧
    ∀ options, CommandLine.parse arguments = .run options →
      (options.check = true → ending.files = files) ∧
      (∀ path failure files' events, options.catalog = some path →
        (Session.load path).Ends files (.error failure) files' events →
        ending.exitCode = 1 ∧ ending.files = files) ∧
      ∀ catalog dashboard failure files' events, options.check = false →
        options.Supplies files catalog → Dashboard.ofStages catalog.stages = .ok dashboard →
        (Session.dump dashboard.toJson (options.destination root)).Ends files (.error failure)
          files' events →
        ending.exitCode = 1 ∧
          files.Grows (Path.directories (options.destination root)) ending.files ∧
          (files.Nested → ∀ location, files.entry? location = none →
            ∀ names content, ending.files.entry? (location ++ names) ≠ some (.file content)) := by
  intro ending
  have hmisuse (h : CommandLine.parse arguments = .misuse) : ending = ⟨2, [], files⟩ := by
    simp only [ending, runProgram, h, CommandLine.ending]
  have htwo : ending.exitCode = 2 ↔ CommandLine.parse arguments = .misuse := by
    constructor
    · intro h
      cases hp : CommandLine.parse arguments with
      | run options =>
        simp only [ending, runProgram_eq hp] at h
        exact absurd h Options.exitCode_ne_two
      | help =>
        simp only [ending, runProgram, hp, CommandLine.ending] at h
        cases h
      | misuse => rfl
    · intro h
      rw [hmisuse h]
  refine ⟨htwo, fun h => ?_, fun options hp => ?_⟩
  · rw [hmisuse (htwo.mp h)]
  have he : ending = options.ending root files := runProgram_eq hp files
  rw [he]
  refine ⟨?_, ?_, ?_⟩
  · intro hc
    obtain ⟨result, files', -, h, -⟩ := Options.exists_course options root files
    rw [h.files_eq, h.files_eq_of_check hc]
  · intro path failure files' events hc hl
    have h : options.Course root files (.error failure) files := Options.course_of_load hc hl
    exact ⟨(Options.ending_of_error h).1, h.files_eq⟩
  · intro catalog dashboard failure files' events hc hs ho hd
    cases (Dashboard.ofStages_eq_ok catalog.stages).symm.trans ho
    have h : options.Course root files (.error failure) files' :=
      .delivered hs (Session.deliver_ends_iff.mpr (by rwa [if_neg (by simp [hc])]))
    have hg := Session.grows_of_dump hd
    rw [h.files_eq]
    exact ⟨(Options.ending_of_error h).1, hg, fun hn _ hl => hg.entry?_ne_file hn hl⟩

/-- One directory is made before it turns out that a file cannot be written as a directory. -/
theorem runProgram_leaves_directory :
    let ending := runProgram "/" ["-o", "made/in/"] .empty
    ending.exitCode = 1 ∧ ending.files.entry? ["work", "made"] = some .directory ∧
      FileSystem.empty.Grows ["made", ""] ending.files ∧
      ∀ names content, ending.files.entry? (["work", "made"] ++ names) ≠ some (.file content) := by
  intro ending
  let options : Options := ⟨some "made/in/", none, false, .upTo .info⟩
  have hp : CommandLine.parse ["-o", "made/in/"] = .run options := by decide
  have hs : options.Supplies .empty Catalog.production := ⟨[], fun log => by simp; rfl⟩
  have ho := Dashboard.ofStages_eq_ok Catalog.production.stages
  have hd : (Session.dump Catalog.production.document "made/in/").Ends .empty
      (.error (.storage .create "made/in/" .isDirectory))
      (FileSystem.empty.put ["work", "made"] .directory) [] := fun log => by simp; rfl
  obtain ⟨-, -, h⟩ := runProgram_leaves "/" ["-o", "made/in/"] .empty
  obtain ⟨-, -, hdump⟩ := h options hp
  obtain ⟨hcode, hg, hempty⟩ := hdump _ _ _ _ _ rfl hs ho hd
  have hw : Path.directories (options.destination "/") = ["made", ""] := by decide
  rw [hw] at hg
  refine ⟨hcode, ?_, hg, hempty FileSystem.nested_empty _ rfl⟩
  have hc : options.Course "/" .empty _ _ := .delivered hs hd
  simp only [ending, runProgram_eq hp, hc.files_eq]
  rfl

end StageMonitor

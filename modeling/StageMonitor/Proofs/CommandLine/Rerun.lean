import StageMonitor.Proofs.CommandLine.Options
import StageMonitor.Proofs.CommandLine.Run

/-! # Running the program again

A run that stored a document left the files as a second run needs them. Its directories and the file
are there, and the catalog is the same unless the document was written in its place. So the second
run has nothing to do, and a comparison agrees.
-/

namespace StageMonitor

open Json

namespace Session

variable {document : Value} {path : Path} {files files' : FileSystem} {events : List Event}

theorem readText_of_dump (h : (dump document path).Ends files (.ok ()) files' events) :
    files'.readText path = .ok document.fileText :=
  readText_of_run_dump (h [])

theorem dump_again (h : (dump document path).Ends files (.ok ()) files' events) :
    (dump document path).Ends files' (.ok ()) files' [.wrote path] := by
  have hr := run_dump_again (h [])
  obtain ⟨made, -, ⟨operation, place, obstacle, hd⟩ | ⟨files'', -, hd⟩⟩ :=
    dump_ends document path files'
  · rw [hd] at hr
    cases hr
  · have hf := (hd _).symm.trans hr
    simp only [EStateM.Result.ok.injEq, World.mk.injEq, true_and, and_true] at hf
    rwa [hf] at hd

/-- A stored dashboard is up to date. -/
theorem check_of_dump {stages : List Stage} (hs : stages.length < (2 ^ 32 - 1) / 3)
    (h : (dump (Dashboard.ofBands stages).toJson path).Ends files (.ok ()) files' events) :
    (check (Dashboard.ofBands stages).toJson path).Ends files' (.ok ()) files' [.upToDate path] := by
  have hv := Value.isDocument_fileText (Dashboard.inRange_toJson hs)
    (Dashboard.depth_toJson_le_depthLimit _)
  intro log
  exact (@run_check_of_isDocument _ _ path _ ⟨files', log⟩ (readText_of_dump h)
    (Dashboard.integral_canonical_toJson _) hv).1 rfl

end Session

/-- The program succeeds and leaves the files as they are. -/
def Settled (root : Path) (arguments : List String) (files : FileSystem) : Prop :=
  (runProgram root arguments files).exitCode = 0 ∧ (runProgram root arguments files).files = files

namespace Options

variable {options : Options} {root : Path} {files files' : FileSystem} {catalog : Catalog}
  {document : Value} {path : Path} {events : List Event}

/-- The catalog is still there after a document was stored somewhere else. -/
theorem Supplies.of_dump (hs : options.Supplies files catalog)
    (hd : (Session.dump document path).Ends files (.ok ()) files' events)
    (hne : ∀ place, options.catalog = some place → files'.locate path ≠ files'.locate place) :
    options.Supplies files' catalog := by
  obtain ⟨told, hs⟩ := hs
  unfold Supplies
  unfold Session.supply at hs ⊢
  cases hc : options.catalog with
  | none =>
    simp only [hc] at hs ⊢
    obtain ⟨hr, -⟩ := hs.unique (Session.ends_pure Catalog.production files)
    cases hr
    exact ⟨[], Session.ends_pure Catalog.production files'⟩
  | some place =>
    simp only [hc] at hs ⊢
    rcases Session.load_ends place files with ⟨failure, -, hl⟩ | ⟨text, loaded, ht, ho, hn, hl⟩
    · cases (hs.unique hl).1
    cases (hs.unique hl).1
    -- making the directories takes nothing away, so the catalog is there when the file is written
    obtain ⟨made, hg, hw⟩ := Session.writeFile_of_dump hd
    have hf := FileSystem.readFile_of_writeFile_of_ne hw
      (hg.readFile (FileSystem.readText_eq_ok_iff.mp ht)) (hne place hc)
    exact ⟨_, Session.ends_load_of_readText (FileSystem.readText_eq_ok_iff.mpr hf) ho hn⟩

theorem course_ok_iff :
    options.Course root files (.ok ()) files' ↔
      ∃ catalog events, options.Supplies files catalog ∧
        (Session.deliver options catalog.document (options.destination root)).Ends files (.ok ())
          files' events := by
  constructor
  · rintro (_ | ⟨hs, hd⟩)
    exact ⟨_, _, hs, hd⟩
  · rintro ⟨catalog, events, hs, hd⟩
    exact .delivered hs hd

theorem Course.settled {arguments : List String} (hp : CommandLine.parse arguments = .run options)
    (h : options.Course root files (.ok ()) files) : Settled root arguments files := by
  unfold Settled
  rw [runProgram_eq hp]
  exact ⟨exitCode_eq_zero_iff.mpr ⟨files, h⟩, h.files_eq⟩

/-- With the catalog in place, a second run and a comparison have nothing to do. -/
theorem Supplies.course_again (hs : options.Supplies files' catalog) (hc : options.check = false)
    (hd : (Session.dump catalog.document (options.destination root)).Ends files (.ok ()) files'
      events) :
    options.Course root files' (.ok ()) files' ∧
      (catalog.stages.length < (2 ^ 32 - 1) / 3 →
        Course { options with check := true } root files' (.ok ()) files') := by
  constructor
  · have hd' := Session.dump_again hd
    exact .delivered hs (by rwa [Session.deliver, if_neg (by simp [hc])])
  · intro hl
    have hs' : Supplies { options with check := true } files' catalog := hs
    exact .delivered hs' (Session.check_of_dump hl hd)

end Options

/-- A run of the program does what the operations on its catalog do. It succeeds if they do, and
otherwise tells of one failure at the end, which is none of the program itself. A run that stored the
dashboard can be repeated, with a comparison or without. The place of the file is looked up after the
run, since a path may lead to the catalog through directories that the run had to make. -/
theorem runProgram_carries_pipeline {root : Path} {arguments : List String} {options : Options}
    {files : FileSystem} (hp : CommandLine.parse arguments = .run options)
    (hs : ∀ catalog, options.Supplies files catalog → catalog.stages.length < (2 ^ 32 - 1) / 3) :
    let output := options.destination root
    let ending := runProgram root arguments files
    (ending.exitCode = 0 ↔
      ∃ catalog dashboard files' events, options.Supplies files catalog ∧
        Dashboard.ofStages catalog.stages = .ok dashboard ∧
        if options.check then
          (Session.check dashboard.toJson output).Ends files (.ok ()) files' events
        else (Session.dump dashboard.toJson output).Ends files (.ok ()) files' events) ∧
    (ending.exitCode ≠ 0 →
      ending.exitCode = 1 ∧ ∃ events failure, Quiet events ∧ failure.Regular ∧
        (options.perform root files).2.log = events ++ [Event.failed failure] ∧
        ending.log = events.filter (fun event => options.level.shows event.severity) ++
          if options.level = .off then [] else [Event.failed failure]) ∧
    (options.check = false → ending.exitCode = 0 →
      ∃ catalog dashboard, options.Supplies files catalog ∧
        Dashboard.ofStages catalog.stages = .ok dashboard ∧
        ending.files.readFile output =
          .ok (String.ofList (dashboard.toJson.pretty ++ ['\n'])).toUTF8 ∧
        ((∀ path, options.catalog = some path →
            ending.files.locate output ≠ ending.files.locate path) →
          Settled root arguments ending.files ∧
          CommandLine.parse ("--check" :: arguments) = .run { options with check := true } ∧
          ∀ again, CommandLine.parse again = .run { options with check := true } →
            Settled root again ending.files)) := by
  intro output ending
  have he : ending = options.ending root files := runProgram_eq hp files
  rw [he]
  refine ⟨?_, ?_, ?_⟩
  · rw [Options.exitCode_eq_zero_iff]
    constructor
    · rintro ⟨files', h⟩
      obtain ⟨catalog, events, hc, hd⟩ := Options.course_ok_iff.mp h
      exact ⟨catalog, _, files', events, hc, Dashboard.ofStages_eq_ok catalog.stages,
        Session.deliver_ends_iff.mp hd⟩
    · rintro ⟨catalog, dashboard, files', events, hc, ho, hd⟩
      cases (Dashboard.ofStages_eq_ok catalog.stages).symm.trans ho
      exact ⟨files', Options.course_ok_iff.mpr
        ⟨catalog, events, hc, Session.deliver_ends_iff.mpr hd⟩⟩
  · intro hne
    obtain ⟨result, files', -, h, -⟩ := Options.exists_course options root files
    cases result with
    | ok => exact absurd (Options.exitCode_eq_zero_iff.mpr ⟨files', h⟩) hne
    | error failure =>
      obtain ⟨hcode, hr, events, hq, hl⟩ := Options.ending_of_error h
      exact ⟨hcode, events, failure, hq, hr, hl⟩
  · intro hcheck hcode
    obtain ⟨files', h⟩ := Options.exitCode_eq_zero_iff.mp hcode
    obtain ⟨catalog, events, hc, hd⟩ := Options.course_ok_iff.mp h
    rw [Session.deliver, if_neg (by simp [hcheck])] at hd
    rw [h.files_eq]
    refine ⟨catalog, _, hc, Dashboard.ofStages_eq_ok catalog.stages,
      FileSystem.readText_eq_ok_iff.mp (Session.readText_of_dump hd), fun hne => ?_⟩
    obtain ⟨hstore, hcompare⟩ := (hc.of_dump hd hne).course_again hcheck hd
    refine ⟨hstore.settled hp, CommandLine.parse_check hp hcheck, fun again ha => ?_⟩
    exact (hcompare (hs catalog hc)).settled ha

/-- A catalog file is read, and a directory is made for the dashboard. -/
theorem runProgram_carries_pipeline_twice :
    let catalog : Catalog := ⟨[⟨"gather", "Gather"⟩]⟩
    let files := (Session.holding catalog.toJson.compactText).files
    let arguments := ["-o", "made/out.json", "--catalog-path=d.json"]
    let ending := runProgram "/" arguments files
    ending.exitCode = 0 ∧ Settled "/" arguments ending.files ∧
      Settled "/" ("--check" :: arguments) ending.files := by
  intro catalog files arguments ending
  let options : Options := ⟨some "made/out.json", some "d.json", false, .upTo .info⟩
  have hp : CommandLine.parse arguments = .run options := by decide
  have hload : (Session.load "d.json").Ends files (.ok catalog) files
      [.loading "d.json", .loaded 1 "d.json"] := by
    obtain ⟨t, ht, hs⟩ := @Catalog.exists_isDocument_of_mem_texts catalog catalog.toJson.compactText
      (by simp [Catalog.texts])
    intro log
    exact (@Session.run_load_of_shape "d.json" _ ⟨files, log⟩ catalog t ht rfl hs).1 (by decide)
  have hsupplied : options.Supplies files catalog := ⟨_, hload⟩
  let files' := (files.put ["work", "made"] .directory).put ["work", "made", "out.json"]
    (.file catalog.document.fileText.toUTF8)
  have hdump : (Session.dump catalog.document "made/out.json").Ends files (.ok ()) files'
      [.wrote "made/out.json"] := fun log => rfl
  have hout : files'.locate "made/out.json" = .ok ["work", "made", "out.json"] := rfl
  have hcat : files'.locate "d.json" = .ok ["work", "d.json"] := rfl
  have hs (other : Catalog) (ho : options.Supplies files other) :
      other.stages.length < (2 ^ 32 - 1) / 3 := by
    cases ho.unique hsupplied
    decide
  obtain ⟨hzero, -, hagain⟩ := @runProgram_carries_pipeline "/" arguments options files hp hs
  have hcode := hzero.mpr
    ⟨catalog, _, files', _, hsupplied, Dashboard.ofStages_eq_ok catalog.stages, hdump⟩
  obtain ⟨-, -, -, -, -, hsettled⟩ := hagain rfl hcode
  have hfiles : ending.files = files' := by
    have hc : options.Course "/" files (.ok ()) files' := .delivered hsupplied hdump
    exact (congrArg Ending.files (runProgram_eq hp files)).trans hc.files_eq
  obtain ⟨hstore, hparse, hcompare⟩ := hsettled (by
    rintro _ ⟨⟩
    change ending.files.locate "made/out.json" ≠ ending.files.locate "d.json"
    rw [hfiles, hout, hcat]
    simp)
  exact ⟨hcode, hstore, hcompare _ hparse⟩

end StageMonitor

import StageMonitor.Proofs.CommandLine.Printing
import StageMonitor.Proofs.CommandLine.Run

/-! # Levels

A level decides what is shown of a run and nothing else. The run is the same at every level, but for
the event in which it tells of its options. Only the wording of a report is left to the single run.
-/

namespace StageMonitor

/-- The severities that are shown at a level. -/
def Level.shown : Level → List Severity
  | off => []
  | upTo .error => [.error]
  | upTo .warn => [.error, .warn]
  | upTo .info => [.error, .warn, .info]
  | upTo .debug => [.error, .warn, .info, .debug]
  | upTo .trace => [.error, .warn, .info, .debug, .trace]

theorem Level.shows_iff {level : Level} {severity : Severity} :
    level.shows severity = true ↔ severity ∈ level.shown := by
  cases level with
  | off => simp [shows, shown]
  | upTo least => cases least <;> cases severity <;> decide

theorem Level.mem_shown_trace (severity : Severity) : severity ∈ (upTo .trace).shown := by
  cases severity <;> decide

namespace Options

variable (options : Options) (root : Path) (files : FileSystem)

/-- Before anything is filtered, runs at different levels differ in one event. -/
theorem exists_perform_eq :
    ∃ (succeeds : Bool) (files' : FileSystem) (rest : List Event), ∀ level,
      perform { options with level } root files =
        (succeeds, ⟨files', .ready :: .starting { options with level } :: rest⟩) := by
  obtain ⟨result, files', events, -, -, -, hg⟩ := exists_course options root files
  exact ⟨result.toBool, files', _, fun level => perform_of_generate_ends hg⟩

theorem ending_of_perform {options : Options} {succeeds : Bool} {world : World}
    (h : options.perform root files = (succeeds, world)) :
    options.ending root files =
      ⟨if succeeds then 0 else 1,
        world.log.filter fun event => event.severity ∈ options.level.shown, world.files⟩ := by
  have hl : (fun event : Event => options.level.shows event.severity) =
      fun event => decide (event.severity ∈ options.level.shown) := by
    funext event
    rw [Bool.eq_iff_iff, Level.shows_iff, decide_eq_true_iff]
  rw [ending, h, hl]

/-- Only the name of the level changes in what a run tells of its options. -/
theorem exists_starting_message_eq :
    ∃ opening closing, ∀ (wording : Wording) (level : Level),
      (Event.starting { options with level }).message wording =
        opening ++ level.name ++ closing := by
  refine ⟨"Starting stage dashboard generator with args: " ++
    ("Args \x7b output_path: " ++ pathText options.output ++ ", catalog_path: " ++
      pathText options.catalog ++ ", check: " ++ toString options.check ++
      ", log_level: LevelFilter::"), " \x7d", fun _ level => ?_⟩
  rw [String.append_assoc, String.append_assoc]
  refine congrArg ("Starting stage dashboard generator with args: " ++ ·) ?_
  unfold text
  exact String.append_assoc

end Options

/-- Two runs that differ in their levels do the same, whatever is shown of them. Each shows what is
severe enough of the events of the most talkative run, apart from the level in the second event. It
prints them as that run does, each in its own wording. -/
theorem runProgram_filtered_by_level {options : Options} {level : Level}
    {arguments arguments' : List String} (hp : CommandLine.parse arguments = .run options)
    (hp' : CommandLine.parse arguments' = .run { options with level }) (root : Path)
    (files : FileSystem) :
    let ending := runProgram root arguments files
    let ending' := runProgram root arguments' files
    let talkative : Options := { options with level := .upTo .trace }
    (ending'.exitCode = ending.exitCode ∧ ending'.files = ending.files) ∧
    (∃ opening closing, ∀ (wording : Wording) (other : Level),
      (Event.starting { options with level := other }).message wording =
        opening ++ other.name ++ closing) ∧
    ∃ succeeds files' rest,
      (∀ other : Level, Options.perform { options with level := other } root files =
        (succeeds, ⟨files', .ready :: .starting { options with level := other } :: rest⟩)) ∧
      (talkative.ending root files).log = .ready :: .starting talkative :: rest ∧
      ending.log = (Event.ready :: .starting options :: rest).filter
        (fun event => event.severity ∈ options.level.shown) ∧
      ending'.log = (Event.ready :: .starting { options with level } :: rest).filter
        (fun event => event.severity ∈ level.shown) ∧
      ∀ wording told : Wording,
        List.Forall₂ Reworded (ending.lines wording)
          (((Event.ready :: .starting options :: rest).filter
            (fun event => event.severity ∈ options.level.shown)).map (Event.line told)) ∧
        List.Forall₂ Reworded (ending'.lines wording)
          (((Event.ready :: .starting { options with level } :: rest).filter
            (fun event => event.severity ∈ level.shown)).map (Event.line told)) := by
  intro ending ending' talkative
  obtain ⟨succeeds, files', rest, h⟩ := options.exists_perform_eq root files
  have he := (runProgram_eq hp files).trans (Options.ending_of_perform root files (h options.level))
  have he' := (runProgram_eq hp' files).trans (Options.ending_of_perform root files (h level))
  have ht := Options.ending_of_perform root files (h (.upTo .trace))
  have hlog := congrArg Ending.log he
  have hlog' := congrArg Ending.log he'
  refine ⟨?_, options.exists_starting_message_eq, succeeds, files', rest, h, ?_, hlog, hlog', ?_⟩
  · simp only [ending, ending', he, he', and_self]
  · rw [ht]
    exact List.filter_eq_self.mpr fun event _ =>
      decide_eq_true (Level.mem_shown_trace event.severity)
  · intro wording told
    simp only [Ending.lines, ending, ending', hlog, hlog']
    exact ⟨Event.forall₂_reworded_line .., Event.forall₂_reworded_line ..⟩

/-- A failing run tells of its failure only, or of nothing. -/
theorem runProgram_filtered_by_level_off :
    let ending := runProgram "/" ["--check", "-o", "missing.json", "--log-level=1"] .empty
    let ending' := runProgram "/" ["--log-level", "0", "-omissing.json", "--check"] .empty
    ending'.exitCode = ending.exitCode ∧ ending'.files = ending.files ∧
      (∀ wording, ending'.lines wording = []) ∧ ∀ event ∈ ending.log, event.severity = .error := by
  intro ending ending'
  let options : Options := ⟨some "missing.json", none, true, .upTo .error⟩
  have hp : CommandLine.parse ["--check", "-o", "missing.json", "--log-level=1"] =
      .run options := by decide
  have hp' : CommandLine.parse ["--log-level", "0", "-omissing.json", "--check"] =
      .run { options with level := .off } := by decide
  obtain ⟨⟨hcode, hfiles⟩, -, _, _, rest, -, -, hlog, -, hlines⟩ :=
    runProgram_filtered_by_level hp hp' "/" .empty
  refine ⟨hcode, hfiles, fun wording => ?_, fun event he => ?_⟩
  · have hnone : (Event.ready :: .starting { options with level := .off } :: rest).filter
        (fun event => event.severity ∈ Level.off.shown) = [] :=
      List.filter_eq_nil_iff.mpr fun event _ => by simp [Level.shown]
    have hw := (hlines wording wording).2
    rw [hnone] at hw
    exact List.forall₂_nil_right_iff.mp hw
  · rw [hlog] at he
    simpa [options, Level.shown] using (List.mem_filter.mp he).2

/-- The line about an empty id need not come out as the most talkative run prints it. -/
theorem runProgram_filtered_by_level_reordered :
    let files := (Session.holding (Catalog.toJson ⟨[⟨"", "x"⟩]⟩).compactText).files
    let ending (level : String) := runProgram "/"
      ["-o", "out.json", "--catalog-path", "d.json", "--log-level", level] files
    (ending "error").lines .plain = ["ERROR stages[0].id: Validation error: length " ++
        "[\x7b\"min\": Number(1), \"value\": String(\"\")\x7d]"] ∧
      ¬ ((ending "error").lines .plain).Sublist ((ending "trace").lines .reversed) := by
  intro files ending
  let catalog : Catalog := ⟨[⟨"", "x"⟩]⟩
  let report : Report := .stages [(0, ⟨some .empty, false⟩)]
  let options (level : Level) : Options := ⟨some "out.json", some "d.json", false, level⟩
  have ht : catalog.toJson.compactText ∈ catalog.texts := by simp [Catalog.texts]
  have hr : catalog.report? = some report := by decide
  have hlog {level : String} {shown : Level} (hp : CommandLine.parse
      ["-o", "out.json", "--catalog-path", "d.json", "--log-level", level] =
        .run (options shown)) :
      (ending level).log = [Event.ready, .starting (options shown), .loading "d.json",
        .failed (.invalidCatalog catalog report)].filter fun event => shown.shows event.severity :=
    congrArg Ending.log (runProgram_of_report hp rfl ht rfl hr)
  have herror : (ending "error").log = [.failed (.invalidCatalog catalog report)] :=
    @hlog "error" (.upTo .error) (by decide +kernel)
  have htrace : (ending "trace").log = [.ready, .starting (options (.upTo .trace)),
      .loading "d.json", .failed (.invalidCatalog catalog report)] :=
    @hlog "trace" (.upTo .trace) (by decide +kernel)
  unfold Ending.lines
  rw [herror, htrace]
  refine ⟨by decide, fun h => ?_⟩
  have hm := h.subset List.mem_cons_self
  revert hm
  decide

end StageMonitor

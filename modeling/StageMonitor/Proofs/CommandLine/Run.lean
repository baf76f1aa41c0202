import StageMonitor.CommandLine.Run
import StageMonitor.Proofs.Outcome

/-! # Runs of the program

A run first gets its catalog and builds the dashboard, which leaves all files as they are. Then it
either stores the document or compares it. It fails if getting the catalog or the last step fails,
and tells of the failure at the end.
-/

namespace StageMonitor

open Json

/-- Errors are shown unless nothing is. -/
theorem Level.shows_error {level : Level} (h : level ≠ .off) : level.shows .error = true := by
  cases level with
  | off => exact absurd rfl h
  | upTo severity => cases severity <;> rfl

namespace Options

/-- Where a run stores the document, or looks for it. -/
def destination (options : Options) (root : Path) : Path :=
  options.output.getD (projectPath root committedPath)

end Options

namespace Session

/-- Gets the catalog of a run. -/
def supply (options : Options) : Session Catalog :=
  match options.catalog with
  | some path => load path
  | none => pure Catalog.production

theorem supply_of_catalog {options : Options} {path : Path} (hc : options.catalog = some path) :
    supply options = load path := by
  rw [supply, hc]

/-- Compares a document with the stored one, or stores it. -/
def deliver (options : Options) (document : Value) (path : Path) : Session Unit :=
  if options.check then check document path else dump document path

theorem deliver_ends_iff {options : Options} {document : Value} {path : Path}
    {files files' : FileSystem} {result : Except Failure Unit} {events : List Event} :
    (deliver options document path).Ends files result files' events ↔
      if options.check then (check document path).Ends files result files' events
      else (dump document path).Ends files result files' events := by
  unfold deliver
  split <;> rfl

/-- What a run tells at the end. -/
def farewell (options : Options) (path : Path) : Event :=
  if options.check then .confirmed path else .generated path

theorem generate_eq (root : Path) (options : Options) :
    generate root options =
      supply options >>= fun catalog => build catalog >>= fun dashboard =>
        deliver options dashboard.toJson (options.destination root) >>= fun _ =>
          record (farewell options (options.destination root)) := by
  obtain ⟨output, catalog, check, level⟩ := options
  cases catalog <;> cases check <;> rfl

theorem supply_ends (options : Options) (files : FileSystem) :
    ∃ events, Quiet events ∧
      ((∃ failure : Failure, failure.Regular ∧
        (supply options).Ends files (.error failure) files events) ∨
      ∃ catalog, (supply options).Ends files (.ok catalog) files events) := by
  unfold supply
  cases options.catalog with
  | none => exact ⟨[], nofun, Or.inr ⟨Catalog.production, ends_pure Catalog.production files⟩⟩
  | some path =>
    rcases load_ends path files with ⟨failure, hf, h⟩ | ⟨_, catalog, -, -, -, h⟩
    · refine ⟨_, ?_, Or.inl ⟨failure, hf, h⟩⟩
      simp [Quiet, Event.severity]
    · refine ⟨_, ?_, Or.inr ⟨catalog, h⟩⟩
      simp [Quiet, Event.severity]

theorem deliver_ends (options : Options) (document : Value) (path : Path) (files : FileSystem) :
    ∃ files' events, Quiet events ∧
      ((∃ failure : Failure, failure.Regular ∧
        (deliver options document path).Ends files (.error failure) files' events) ∨
      (deliver options document path).Ends files (.ok ()) files' events) := by
  unfold deliver
  split
  · rcases check_ends document path files with ⟨failure, hf, h⟩ | h
    · exact ⟨files, [], nofun, Or.inl ⟨failure, hf, h⟩⟩
    · refine ⟨files, _, ?_, Or.inr h⟩
      simp [Quiet, Event.severity]
  · obtain ⟨made, -, ⟨operation, place, obstacle, h⟩ | ⟨files', -, h⟩⟩ :=
      dump_ends document path files
    · exact ⟨made, [], nofun, Or.inl ⟨.storage operation place obstacle, trivial, h⟩⟩
    · refine ⟨files', _, ?_, Or.inr h⟩
      simp [Quiet, Event.severity]

end Session

/-- The document of the dashboard of a catalog. -/
def Catalog.document (catalog : Catalog) : Value :=
  (Dashboard.ofBands catalog.stages).toJson

namespace Options

variable {options : Options} {root : Path} {files files' : FileSystem}

/-- The catalog with which a run works: that of the catalog file, or the production one. -/
def Supplies (options : Options) (files : FileSystem) (catalog : Catalog) : Prop :=
  ∃ events, (Session.supply options).Ends files (.ok catalog) files events

theorem Supplies.unique {catalog catalog' : Catalog} (h : options.Supplies files catalog)
    (h' : options.Supplies files catalog') : catalog = catalog' := by
  obtain ⟨_, h⟩ := h
  obtain ⟨_, h'⟩ := h'
  exact Except.ok.inj (h.unique h').1

/-- The ways that a run can take, with its result and the files that it leaves. -/
inductive Course (options : Options) (root : Path) (files : FileSystem) :
    Except Failure Unit → FileSystem → Prop where
  | unsupplied {failure : Failure} {events : List Event} :
      (Session.supply options).Ends files (.error failure) files events →
      Course options root files (.error failure) files
  | delivered {catalog : Catalog} {result : Except Failure Unit} {files' : FileSystem}
      {events : List Event} :
      options.Supplies files catalog →
      (Session.deliver options catalog.document (options.destination root)).Ends files result files'
        events →
      Course options root files result files'

/-- Every run takes one of the ways, and fails only as its operations do. -/
theorem exists_course (options : Options) (root : Path) (files : FileSystem) :
    ∃ result files' events, options.Course root files result files' ∧ Quiet events ∧
      (∀ failure : Failure, result = .error failure → failure.Regular) ∧
      (Session.generate root options).Ends files result files' events := by
  rw [Session.generate_eq]
  obtain ⟨told, hq, ⟨failure, hr, hs⟩ | ⟨catalog, hs⟩⟩ := Session.supply_ends options files
  · refine ⟨_, files, told, .unsupplied hs, hq, ?_, hs.bind_error⟩
    rintro _ ⟨⟩
    exact hr
  have hb := Session.ends_build catalog files
  have hqb := hq.append (Session.quiet_buildEvents catalog.stages)
  obtain ⟨files', more, hm, ⟨failure, hr, hd⟩ | hd⟩ :=
    Session.deliver_ends options catalog.document (options.destination root) files
  · refine ⟨_, files', told ++ Session.buildEvents catalog.stages ++ more, .delivered ⟨told, hs⟩ hd,
      hqb.append hm, ?_, ?_⟩
    · rintro _ ⟨⟩
      exact hr
    · rw [List.append_assoc]
      exact hs.bind (hb.bind hd.bind_error)
  · have hf := Session.ends_record (Session.farewell options (options.destination root)) files'
    have hqf : Quiet [Session.farewell options (options.destination root)] := by
      unfold Session.farewell
      split <;> simp [Quiet, Event.severity]
    refine ⟨_, files', told ++ Session.buildEvents catalog.stages ++ (more ++ [_]),
      .delivered ⟨told, hs⟩ hd, hqb.append (hm.append hqf), nofun, ?_⟩
    rw [List.append_assoc]
    exact hs.bind (hb.bind (hd.bind hf))

theorem Course.unique {result result' : Except Failure Unit} {files'' : FileSystem}
    (h : options.Course root files result files') (h' : options.Course root files result' files'') :
    result = result' ∧ files' = files'' := by
  cases h with
  | unsupplied hs =>
    cases h' with
    | unsupplied hs' => exact ⟨congrArg _ (Except.error.inj (hs.unique hs').1), rfl⟩
    | delivered hs' =>
      obtain ⟨_, hs'⟩ := hs'
      cases (hs.unique hs').1
  | delivered hs hd =>
    cases h' with
    | unsupplied hs' =>
      obtain ⟨_, hs⟩ := hs
      cases (hs.unique hs').1
    | delivered hs' hd' =>
      cases hs.unique hs'
      obtain ⟨hr, hf, -⟩ := hd.unique hd'
      exact ⟨hr, hf⟩

/-- What is told when a run ends. -/
def closing : Except Failure Unit → List Event
  | .ok () => []
  | .error failure => [.failed failure]

/-- What a run does with its operations, and what it tells around them. -/
theorem perform_of_generate_ends {result : Except Failure Unit} {events : List Event}
    (h : (Session.generate root options).Ends files result files' events) :
    options.perform root files =
      (result.toBool, ⟨files', .ready :: .starting options :: (events ++ closing result)⟩) := by
  unfold perform
  rw [h]
  cases result with
  | ok => rw [closing, List.append_nil]; rfl
  | error failure => rfl

/-- Nothing else is done if the catalog cannot be loaded. -/
theorem perform_of_load_error {path : Path} {failure : Failure} {events : List Event}
    (hc : options.catalog = some path)
    (h : (Session.load path).Ends files (.error failure) files events) :
    options.perform root files =
      (false, ⟨files, .ready :: .starting options :: (events ++ [.failed failure])⟩) := by
  have hs : (Session.supply options).Ends files (.error failure) files events := by
    rwa [Session.supply_of_catalog hc]
  have hg : (Session.generate root options).Ends files (.error failure) files events := by
    rw [Session.generate_eq]
    exact hs.bind_error
  exact perform_of_generate_ends hg

/-- The course of a run decides how it ends. What it tells on the way is not severe. -/
theorem Course.perform_eq {result : Except Failure Unit}
    (h : options.Course root files result files') :
    (∀ failure : Failure, result = .error failure → failure.Regular) ∧
      ∃ events, Quiet events ∧
        options.perform root files = (result.toBool, ⟨files', events ++ closing result⟩) := by
  obtain ⟨result, files', events, hc, hq, hr, hg⟩ := exists_course options root files
  obtain ⟨rfl, rfl⟩ := h.unique hc
  have hs : Quiet [.ready, .starting options] := by simp [Quiet, Event.severity]
  exact ⟨hr, _, hs.append hq, perform_of_generate_ends hg⟩

theorem Course.files_eq {result : Except Failure Unit}
    (h : options.Course root files result files') : (options.ending root files).files = files' := by
  obtain ⟨-, events, -, hp⟩ := h.perform_eq
  rw [ending, hp]

/-- A run succeeds if all of its operations do. -/
theorem exitCode_eq_zero_iff :
    (options.ending root files).exitCode = 0 ↔
      ∃ files', options.Course root files (.ok ()) files' := by
  obtain ⟨result, files', -, hc, -⟩ := exists_course options root files
  obtain ⟨-, events, -, hp⟩ := hc.perform_eq
  rw [ending, hp]
  constructor
  · intro h
    cases result with
    | ok => exact ⟨files', hc⟩
    | error failure => cases h
  · rintro ⟨_, hc'⟩
    obtain ⟨rfl, -⟩ := hc.unique hc'
    rfl

/-- A run that does not succeed tells of one failure at the end. -/
theorem ending_of_error {failure : Failure}
    (h : options.Course root files (.error failure) files') :
    (options.ending root files).exitCode = 1 ∧ failure.Regular ∧
      ∃ events, Quiet events ∧
        (options.perform root files).2.log = events ++ [Event.failed failure] ∧
        (options.ending root files).log =
          events.filter (fun event => options.level.shows event.severity) ++
            if options.level = .off then [] else [Event.failed failure] := by
  obtain ⟨hr, events, hq, hp⟩ := h.perform_eq
  rw [ending, hp]
  refine ⟨rfl, hr failure rfl, events, hq, rfl, ?_⟩
  simp only [closing, List.filter_append]
  congr 1
  split
  next hl => rw [hl]; rfl
  next hl => simp [Event.severity, Level.shows_error hl]

end Options

theorem runProgram_eq {root : Path} {arguments : List String} {options : Options}
    (hp : CommandLine.parse arguments = .run options) (files : FileSystem) :
    runProgram root arguments files = options.ending root files := by
  rw [runProgram, hp]
  rfl

/-- A run on a stored catalog with faults reports them and does nothing. -/
theorem runProgram_of_report {root path : Path} {arguments : List String} {options : Options}
    {files : FileSystem} {catalog : Catalog} {report : Report} {text : String}
    (hp : CommandLine.parse arguments = .run options) (hc : options.catalog = some path)
    (ht : text ∈ catalog.texts) (hf : files.readFile path = .ok text.toUTF8)
    (hr : catalog.report? = some report) :
    runProgram root arguments files =
      ⟨1, [.ready, .starting options, .loading path,
        .failed (.invalidCatalog catalog report)].filter fun event =>
          options.level.shows event.severity, files⟩ := by
  have hl := Session.ends_load_of_report ht hf hr
  rw [runProgram_eq hp, Options.ending, Options.perform_of_load_error hc hl]
  rfl

end StageMonitor

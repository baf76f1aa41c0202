import StageMonitor.Proofs.Catalog.Loading
import StageMonitor.Proofs.Dashboard.Building
import StageMonitor.Proofs.Storage.Growth

/-! # How sessions end

What a session does depends on the files alone: to the log it only adds. A session of several steps
ends as its first failing step does, or else as its last one. Each operation ends in one of two ways.
-/

namespace StageMonitor

open Json

/-- Not the breach of a rule that a program has to keep. -/
def Failure.Regular : Failure → Prop
  | violation _ => False
  | _ => True

/-- No failure is told. -/
def Quiet (events : List Event) : Prop :=
  ∀ event ∈ events, event.severity ≠ .error

theorem Quiet.append {events more : List Event} (h : Quiet events) (h' : Quiet more) :
    Quiet (events ++ more) := by
  intro event he
  rcases List.mem_append.mp he with he | he
  · exact h event he
  · exact h' event he

namespace Session

section Steps

variable {α β : Type} {x : Session α} {f : α → Session β} {files between files' : FileSystem}
  {events more : List Event}

/-- A session that starts with `files` comes to a result, leaves `files'` and tells some events,
whatever was told before. -/
def Ends (x : Session α) (files : FileSystem) (result : Except Failure α) (files' : FileSystem)
    (events : List Event) : Prop :=
  ∀ log, x.run ⟨files, log⟩ =
    match result with
    | .ok a => .ok a ⟨files', log ++ events⟩
    | .error failure => .error failure ⟨files', log ++ events⟩

theorem Ends.unique {result result' : Except Failure α} {files'' : FileSystem}
    (h : x.Ends files result files' events) (h' : x.Ends files result' files'' more) :
    result = result' ∧ files' = files'' ∧ events = more := by
  have heq := (h []).symm.trans (h' [])
  cases result <;> cases result' <;> cases heq
  all_goals exact ⟨rfl, rfl, rfl⟩

theorem ends_pure (a : α) (files : FileSystem) :
    (pure a : Session α).Ends files (.ok a) files [] := by
  intro log
  rw [List.append_nil]
  rfl

theorem ends_record (event : Event) (files : FileSystem) :
    (record event).Ends files (.ok ()) files [event] :=
  fun log => run_record event ⟨files, log⟩

theorem Ends.bind {a : α} {result : Except Failure β} (hx : x.Ends files (.ok a) between events)
    (hf : (f a).Ends between result files' more) :
    (x >>= f).Ends files result files' (events ++ more) := by
  intro log
  rw [EStateM.run_bind, hx log, ← List.append_assoc]
  exact hf (log ++ events)

theorem Ends.bind_error {failure : Failure} (hx : x.Ends files (.error failure) files' events) :
    (x >>= f).Ends files (.error failure) files' events := by
  intro log
  rw [EStateM.run_bind, hx log]

end Steps

variable {document : Value} {path : Path} {files : FileSystem} {catalog : Catalog}

theorem ends_load_of_readText {text : String} (hr : files.readText path = .ok text)
    (ho : Catalog.ofDocument text = .ok catalog) (hc : catalog.report? = none) :
    (load path).Ends files (.ok catalog) files
      [.loading path, .loaded catalog.stages.length path] := by
  intro log
  have hrun := @run_load_of_readText path text ⟨files, log⟩ hr
  simp only [hrun, ho, hc]

/-- A stored catalog with faults is reported. -/
theorem ends_load_of_report {text : String} {report : Report} (ht : text ∈ catalog.texts)
    (hf : files.readFile path = .ok text.toUTF8) (hr : catalog.report? = some report) :
    (load path).Ends files (.error (.invalidCatalog catalog report)) files [.loading path] := by
  intro log
  obtain ⟨t, hd, hs⟩ := Catalog.exists_isDocument_of_mem_texts ht
  exact (@run_load_of_shape path text ⟨files, log⟩ catalog t hd hf hs).2 report hr

/-- A catalog is loaded if the file can be read, has the shape of a catalog and no faults. -/
theorem load_ends (path : Path) (files : FileSystem) :
    (∃ failure : Failure, failure.Regular ∧
      (load path).Ends files (.error failure) files [.loading path]) ∨
    ∃ text catalog, files.readText path = .ok text ∧ Catalog.ofDocument text = .ok catalog ∧
      catalog.report? = none ∧
      (load path).Ends files (.ok catalog) files
        [.loading path, .loaded catalog.stages.length path] := by
  cases hr : files.readText path with
  | error obstacle =>
    exact Or.inl ⟨.storage .read path obstacle, trivial, fun log => run_load_of_unreadable hr⟩
  | ok text =>
    have hrun (log : List Event) := @run_load_of_readText path text ⟨files, log⟩ hr
    cases ho : Catalog.ofDocument text with
    | error rejection =>
      refine Or.inl ⟨.malformed rejection, trivial, fun log => ?_⟩
      simp only [hrun, ho]
    | ok catalog =>
      cases hc : catalog.report? with
      | some report =>
        refine Or.inl ⟨.invalidCatalog catalog report, trivial, fun log => ?_⟩
        simp only [hrun, ho, hc]
      | none => exact Or.inr ⟨text, catalog, rfl, ho, hc, ends_load_of_readText hr ho hc⟩

theorem ends_build (catalog : Catalog) (files : FileSystem) :
    (build catalog).Ends files (.ok (.ofBands catalog.stages)) files
      (buildEvents catalog.stages) :=
  fun log => run_build catalog.stages ⟨files, log⟩

theorem quiet_buildEvents (stages : List Stage) : Quiet (buildEvents stages) := by
  intro event he
  have hs := List.mem_map_of_mem (f := Event.severity) he
  rw [severity_buildEvents, List.mem_append, List.mem_singleton] at hs
  rcases hs with hs | hs
  · rw [List.eq_of_mem_replicate hs]
    decide
  · rw [hs]
    decide

/-- A comparison leaves the files as they are. -/
theorem check_ends (document : Value) (path : Path) (files : FileSystem) :
    (∃ failure : Failure, failure.Regular ∧
      (check document path).Ends files (.error failure) files []) ∨
    (check document path).Ends files (.ok ()) files [.upToDate path] := by
  cases hr : files.readText path with
  | error obstacle =>
    have hrun (log : List Event) := @run_check_of_unreadable document path ⟨files, log⟩ _ hr
    refine Or.inl ⟨.storage .read path obstacle, trivial, fun log => ?_⟩
    simp only [hrun, List.append_nil]
  | ok text =>
    have hrun (log : List Event) := @run_check_of_readText document path ⟨files, log⟩ text hr
    cases hv : Value.ofDocument text with
    | error rejection =>
      refine Or.inl ⟨.malformed rejection, trivial, fun log => ?_⟩
      simp only [hrun, hv, List.append_nil]
    | ok stored =>
      cases hs : stored.same document.canonical with
      | true =>
        refine Or.inr fun log => ?_
        simp only [hrun, hv, hs, if_true]
      | false =>
        refine Or.inl ⟨.outOfDate path, trivial, fun log => ?_⟩
        simp only [hrun, hv, hs, Bool.false_eq_true, if_false, List.append_nil]

/-- Whether the directories can be made or not, they are all that is added. -/
theorem makeDirectories_ends (path : Path) (files : FileSystem) :
    ∃ made, files.Grows (Path.directories path) made ∧
      ((∃ place obstacle, (makeDirectories path).Ends files
        (.error (.storage .createDirectory place obstacle)) made []) ∨
      (makeDirectories path).Ends files (.ok ()) made []) := by
  have hg := files.grows_makeDirectories (Path.directories path)
  have hrun (log : List Event) := run_makeDirectories path ⟨files, log⟩
  cases hp : Path.directories path with
  | nil =>
    refine ⟨files, .refl _ files, Or.inr fun log => ?_⟩
    simp only [hrun, hp, List.append_nil]
  | cons parent outer =>
    rw [hp] at hg
    cases hm : files.makeDirectories (parent :: outer) with
    | mk made result =>
      rw [hm] at hg
      refine ⟨made, hg, ?_⟩
      cases result with
      | error obstacle =>
        refine Or.inl ⟨parent, obstacle, fun log => ?_⟩
        simp only [hrun, hp, hm, List.append_nil]
      | ok =>
        refine Or.inr fun log => ?_
        simp only [hrun, hp, hm, List.append_nil]

/-- A text is written whole or not at all. -/
theorem writeText_ends (path : Path) (text : String) (files : FileSystem) :
    (∃ obstacle, (writeText path text).Ends files
      (.error (.storage .create path obstacle)) files []) ∨
    ∃ files', files.writeFile path text.toUTF8 = .ok files' ∧
      (writeText path text).Ends files (.ok ()) files' [] := by
  have hrun (log : List Event) := run_writeText path text ⟨files, log⟩
  cases hw : files.writeFile path text.toUTF8 with
  | error obstacle =>
    refine Or.inl ⟨obstacle, fun log => ?_⟩
    simp only [hrun, hw, List.append_nil]
  | ok files' =>
    refine Or.inr ⟨files', rfl, fun log => ?_⟩
    simp only [hrun, hw, List.append_nil]

/-- A document is stored in the directories that are there or were made for it. If that fails, some
of these may have been made, and nothing is told. -/
theorem dump_ends (document : Value) (path : Path) (files : FileSystem) :
    ∃ made, files.Grows (Path.directories path) made ∧
      ((∃ operation place obstacle, (dump document path).Ends files
        (.error (.storage operation place obstacle)) made []) ∨
      ∃ files', made.writeFile path document.fileText.toUTF8 = .ok files' ∧
        (dump document path).Ends files (.ok ()) files' [.wrote path]) := by
  obtain ⟨made, hg, ⟨place, obstacle, hm⟩ | hm⟩ := makeDirectories_ends path files
  · exact ⟨made, hg, Or.inl ⟨_, place, obstacle, hm.bind_error⟩⟩
  obtain ⟨obstacle, hw⟩ | ⟨files', hf, hw⟩ := writeText_ends path document.fileText made
  · exact ⟨made, hg, Or.inl ⟨_, path, obstacle, hm.bind hw.bind_error⟩⟩
  · exact ⟨made, hg, Or.inr ⟨files', hf, hm.bind (hw.bind (ends_record (.wrote path) files'))⟩⟩

theorem writeFile_of_dump {files' : FileSystem} {events : List Event}
    (h : (dump document path).Ends files (.ok ()) files' events) :
    ∃ made, files.Grows (Path.directories path) made ∧
      made.writeFile path document.fileText.toUTF8 = .ok files' := by
  obtain ⟨made, hg, ⟨_, _, _, hd⟩ | ⟨written, hw, hd⟩⟩ := dump_ends document path files
  · cases (h.unique hd).1
  · obtain ⟨-, rfl, -⟩ := h.unique hd
    exact ⟨made, hg, hw⟩

/-- If a document cannot be stored, some of the directories for it may be there afterwards, and
nothing is told. -/
theorem grows_of_run_dump {failure : Failure} {world world' : World}
    (h : (dump document path).run world = .error failure world') :
    world.files.Grows (Path.directories path) world'.files ∧ world'.log = world.log := by
  obtain ⟨made, hg, ⟨_, _, _, hd⟩ | ⟨files', hw, hd⟩⟩ := dump_ends document path world.files
  · cases (hd world.log).symm.trans h
    exact ⟨hg, List.append_nil world.log⟩
  · cases (hd world.log).symm.trans h

theorem grows_of_dump {failure : Failure} {files' : FileSystem} {events : List Event}
    (h : (dump document path).Ends files (.error failure) files' events) :
    files.Grows (Path.directories path) files' :=
  (grows_of_run_dump (h [])).1

end Session

end StageMonitor

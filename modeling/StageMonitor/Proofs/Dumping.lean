import StageMonitor.Proofs.Outcome
import StageMonitor.Proofs.Storage.Directories

/-! # What storing a document changes

The file at the path is the only one that changes, and the directories of the path are the only ones
that appear. A document that cannot be stored leaves no more than directories behind, and nothing is
told of it.
-/

namespace StageMonitor

open Json

namespace FileSystem

variable {fs fs' made : FileSystem} {paths : List Path} {path : Path} {location : Location}
  {content : ByteArray}

/-- A file was put at a location, where there was no directory, and all of some paths lead to
directories now. Everything else is kept, and nothing was added but these directories. -/
structure Receives (paths : List Path) (location : Location) (content : ByteArray)
    (fs fs' : FileSystem) : Prop where
  workingDirectory_eq : fs'.workingDirectory = fs.workingDirectory
  vacant : fs.entry? location ≠ some .directory
  placed : fs'.entry? location = some (.file content)
  kept : ∀ {other entry}, other ≠ location → fs.entry? other = some entry →
    fs'.entry? other = some entry
  added : ∀ {other entry}, other ≠ location → fs.entry? other = none →
    fs'.entry? other = some entry →
    entry = .directory ∧ ∃ path ∈ paths, fs'.locate path = .ok other
  reached : ∀ path ∈ paths, path = "" ∨ fs'.isDirectory path = true

namespace Receives

theorem toExtends (h : Receives paths location content fs fs') : Extends fs fs' where
  workingDirectory_eq := h.workingDirectory_eq
  directory := by
    intro other hd
    apply h.kept _ hd
    rintro rfl
    exact h.vacant hd

/-- What could be read at another place can still be read. -/
theorem readFile (h : Receives paths location content fs fs') {content' : ByteArray}
    (hr : fs.readFile path = .ok content') (hne : fs'.locate path ≠ .ok location) :
    fs'.readFile path = .ok content' := by
  apply h.toExtends.readFile hr
  intro other hl
  have he := entry?_of_readFile hr hl
  rw [he]
  apply h.kept _ he
  rintro rfl
  apply hne
  apply h.toExtends.locate hl
  simp [h.placed]

end Receives

/-- A file that is written after directories were added for it. -/
theorem Grows.receives (h : Grows (Path.directories path) fs made)
    (hw : made.writeFile path content = .ok fs') :
    ∃ location, fs'.locate path = .ok location ∧
      Receives (Path.directories path) location content fs fs' := by
  have hx := extends_of_writeFile hw
  obtain ⟨_, _, ha, -⟩ := writeFile_eq_ok hw
  obtain ⟨here, name, hl, hd, rfl⟩ := locate_of_writeFile hw
  have hne {other : Location} (ho : other ≠ here ++ [name]) :=
    @entry?_put_of_ne made _ other ho (.file content)
  refine ⟨here ++ [name], hl, ?_⟩
  constructor
  · exact h.workingDirectory_eq
  · intro hv
    exact hd (h.kept hv)
  · exact made.entry?_put_self here name (.file content)
  · intro other entry ho he
    rw [hne ho]
    exact h.kept he
  · intro other entry ho hn he
    rw [hne ho] at he
    obtain ⟨hdir, d, hm, hld⟩ := h.added hn he
    refine ⟨hdir, d, hm, hx.locate hld ?_⟩
    simp [hne ho, he]
  · intro d hm
    exact isDirectory_of_mem_directories (hx.approach ha) hm

end FileSystem

namespace Session

variable {document : Value} {path : Path} {world world' : World} {failure : Failure}

/-- A file is put in its place if a document is stored. -/
theorem receives_of_run_dump (h : (dump document path).run world = .ok () world') :
    (∃ location, world'.files.locate path = .ok location ∧
      world.files.Receives (Path.directories path) location document.fileText.toUTF8 world'.files) ∧
    world'.log = world.log ++ [.wrote path] := by
  obtain ⟨made, hg, ⟨_, _, _, hd⟩ | ⟨files', hw, hd⟩⟩ := dump_ends document path world.files
  · cases (hd world.log).symm.trans h
  · cases (hd world.log).symm.trans h
    exact ⟨hg.receives hw, rfl⟩

/-- A document cannot be stored because the innermost directory cannot be made, or the file. -/
theorem place_of_run_dump (h : (dump document path).run world = .error failure world') :
    (∃ parent outer obstacle, Path.directories path = parent :: outer ∧
      failure = .storage .createDirectory parent obstacle) ∨
    ∃ obstacle, failure = .storage .create path obstacle := by
  rcases run_of_bind_error h with h | ⟨_, made, -, h⟩
  · left
    rw [run_makeDirectories] at h
    split at h
    · cases h
    next parent outer hp =>
      split at h
      · cases h
      next obstacle _ =>
        cases h
        exact ⟨parent, outer, obstacle, hp, rfl⟩
  rcases run_of_bind_error h with h | ⟨_, written, -, h⟩
  · right
    rw [run_writeText] at h
    split at h
    · cases h
    next obstacle _ =>
      cases h
      exact ⟨obstacle, rfl⟩
  · cases h

/-- Storing a document, be it the tree of a dashboard or any other, writes the file at its path and
makes the missing directories on the way, and that is all. If it fails, some of these directories
may have been made, and there are no files in them. -/
theorem dump_confined (document : Value) (path : Path) (world world' : World) :
    let bytes := (String.ofList (document.pretty ++ ['\n'])).toUTF8
    ((dump document path).run world = .ok () world' →
      world'.files.readFile path = .ok bytes ∧
      (∃ location, world'.files.locate path = .ok location ∧
        world.files.Receives (Path.directories path) location bytes world'.files) ∧
      (∀ other content, world.files.readFile other = .ok content →
        world'.files.locate other ≠ world'.files.locate path →
        world'.files.readFile other = .ok content) ∧
      world'.log = world.log ++ [.wrote path] ∧ (Event.wrote path).severity = .info) ∧
    ∀ failure, (dump document path).run world = .error failure world' →
      ((∃ parent outer obstacle, Path.directories path = parent :: outer ∧
          failure = .storage .createDirectory parent obstacle) ∨
        ∃ obstacle, failure = .storage .create path obstacle) ∧
      world'.log = world.log ∧
      world.files.Grows (Path.directories path) world'.files ∧
      (∀ location content, world'.files.entry? location = some (.file content) →
        world.files.entry? location = some (.file content)) ∧
      (world.files.Nested → ∀ location, world.files.entry? location = none →
        ∀ names content, world'.files.entry? (location ++ names) ≠ some (.file content)) := by
  intro bytes
  constructor
  · intro h
    obtain ⟨⟨location, hl, hr⟩, hlog⟩ := receives_of_run_dump h
    have hread : world'.files.readFile path = .ok bytes :=
      FileSystem.readText_eq_ok_iff.mp (readText_of_run_dump h)
    refine ⟨hread, ⟨location, hl, hr⟩, ?_, hlog, rfl⟩
    intro other content ho hne
    rw [hl] at hne
    exact hr.readFile ho hne
  · intro failure h
    obtain ⟨hg, hlog⟩ := grows_of_run_dump h
    refine ⟨place_of_run_dump h, hlog, hg, ?_, ?_⟩
    · intro location content hf
      exact hg.entry?_of_file hf
    · intro hn location hl
      exact hg.entry?_ne_file hn hl

/-- The way to the first file goes through a directory that has to be made and out of it again. The
other one cannot be written, as its path ends in a slash, but a directory is made for it. -/
theorem dump_confined_dots :
    let old : World :=
      ⟨FileSystem.empty.put ["work", "d.json"] (.file "old".toUTF8), [.wrote "d.json"]⟩
    let dashboard := (Dashboard.ofBands []).toJson
    (∃ stored, (dump dashboard "new/../d.json").run old = .ok () stored ∧
      stored.files.readFile "new/../d.json" = .ok dashboard.fileText.toUTF8 ∧
      stored.files.entry? ["work", "new"] = some .directory ∧
      stored.log = old.log ++ [.wrote "new/../d.json"]) ∧
    ∃ failed, (dump (.array []) "new/in/").run old =
        .error (.storage .create "new/in/" .isDirectory) failed ∧
      failed.files.readFile "d.json" = .ok "old".toUTF8 ∧
      failed.files.entry? ["work", "new"] = some .directory ∧
      (∀ names content,
        failed.files.entry? (["work", "new"] ++ names) ≠ some (.file content)) ∧
      failed.log = old.log := by
  intro old dashboard
  constructor
  · obtain ⟨hs, -⟩ := dump_confined dashboard "new/../d.json" old _
    obtain ⟨hr, -, -, hlog, -⟩ := hs rfl
    exact ⟨_, rfl, hr, rfl, hlog⟩
  · obtain ⟨-, hf⟩ := dump_confined (.array []) "new/in/" old _
    obtain ⟨-, hlog, hg, -, hempty⟩ := hf _ rfl
    have hfree : FileSystem.empty.entry? (["work"] ++ ["d.json"]) ≠ some .directory := by
      rw [show FileSystem.empty.entry? (["work"] ++ ["d.json"]) = none from rfl]
      exact nofun
    have hn : old.files.Nested := FileSystem.nested_empty.put rfl hfree _
    exact ⟨_, rfl, hg.readFile rfl, rfl, hempty hn _ rfl, hlog⟩

end Session

end StageMonitor

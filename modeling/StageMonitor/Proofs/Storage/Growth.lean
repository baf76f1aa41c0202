import Mathlib.Data.List.Induction
import StageMonitor.Proofs.Storage

/-! # What writing adds to a file system

Making the directories of a path adds directories on the way of the path and leaves everything else
as it was, also if it fails half way. So whatever could be read before can still be read, and a file
that is written takes nothing away but what stood in its place.
-/

namespace StageMonitor.FileSystem

variable {fs fs' fs'' : FileSystem} {path : Path} {location : Location}

/-- Where a path leads. -/
def locate (fs : FileSystem) (path : Path) : Except Obstacle Location :=
  match fs.approach path with
  | .error obstacle => .error obstacle
  | .ok (here, none) => .ok here
  | .ok (here, some (name, _)) => fs.enter here name

theorem Extends.locate (h : Extends fs fs') (hl : fs.locate path = .ok location)
    (he : fs'.entry? location ≠ none) : fs'.locate path = .ok location := by
  unfold FileSystem.locate at hl ⊢
  split at hl
  · cases hl
  next ha => rw [h.approach ha]; exact hl
  next ha => rw [h.approach ha]; exact enter_of_entry? hl he

theorem readFile_eq_ok_iff {content : ByteArray} :
    fs.readFile path = .ok content ↔
      ∃ here name there, fs.approach path = .ok (here, some (name, false)) ∧
        fs.enter here name = .ok there ∧ fs.entry? there = some (.file content) := by
  constructor
  · intro h
    unfold readFile resolve at h
    split at h
    · cases h
    · cases h
    next hr =>
      cases h
      split at hr
      · cases hr
      · cases hr
      next here name slashed ha =>
        split at hr
        · cases hr
        next there hn =>
          split at hr
          · cases hr
          · cases hr
          next he =>
            split at hr
            · cases hr
            next hs =>
              cases hr
              rw [Bool.not_eq_true] at hs
              subst hs
              exact ⟨here, name, there, ha, hn, he⟩
  · rintro ⟨here, name, there, ha, hn, he⟩
    simp [readFile, resolve, ha, hn, he]

theorem entry?_of_readFile {content : ByteArray} (hr : fs.readFile path = .ok content)
    (hl : fs.locate path = .ok location) : fs.entry? location = some (.file content) := by
  obtain ⟨here, name, there, ha, hn, he⟩ := readFile_eq_ok_iff.mp hr
  simp only [locate, ha, hn, Except.ok.injEq] at hl
  rwa [← hl]

/-- A file is read again if nothing was done to the place where its path leads. -/
theorem Extends.readFile (h : Extends fs fs') {content : ByteArray}
    (hr : fs.readFile path = .ok content)
    (hk : ∀ location, fs.locate path = .ok location → fs'.entry? location = fs.entry? location) :
    fs'.readFile path = .ok content := by
  obtain ⟨here, name, there, ha, hn, he⟩ := readFile_eq_ok_iff.mp hr
  have hl : fs.locate path = .ok there := by
    simp only [FileSystem.locate, ha, hn]
  have he' : fs'.entry? there = some (.file content) := (hk there hl).trans he
  exact readFile_eq_ok_iff.mpr
    ⟨here, name, there, h.approach ha, enter_of_entry? hn (by simp [he']), he'⟩

theorem locate_of_writeFile {content : ByteArray} (h : fs.writeFile path content = .ok fs') :
    ∃ here name, fs'.locate path = .ok (here ++ [name]) ∧
      fs.entry? (here ++ [name]) ≠ some .directory ∧
      fs' = fs.put (here ++ [name]) (.file content) := by
  obtain ⟨here, name, ha, hd, hn, hne, rfl⟩ := writeFile_eq_ok h
  have he := fs.entry?_put_self here name (.file content)
  refine ⟨here, name, ?_, hne, rfl⟩
  simp only [locate, (extends_put hne).approach ha]
  exact enter_eq_ok hd hn he

/-- A file that is written does not change the others. -/
theorem readFile_of_writeFile_of_ne {content content' : ByteArray} {other : Path}
    (h : fs.writeFile path content = .ok fs') (hr : fs.readFile other = .ok content')
    (hne : fs'.locate path ≠ fs'.locate other) : fs'.readFile other = .ok content' := by
  obtain ⟨here, name, hl, hd, rfl⟩ := locate_of_writeFile h
  have hx : Extends fs (fs.put (here ++ [name]) (.file content)) := extends_put hd
  have he := fs.entry?_put_self here name (.file content)
  refine hx.readFile hr fun location ho => entry?_put_of_ne ?_ _
  rintro rfl
  apply hne
  rw [hl, hx.locate ho (by simp [he])]

/-- Some directories were added, each of them at the end of one of the paths. -/
structure Grows (paths : List Path) (fs fs' : FileSystem) : Prop where
  workingDirectory_eq : fs'.workingDirectory = fs.workingDirectory
  kept : ∀ {location entry}, fs.entry? location = some entry → fs'.entry? location = some entry
  added : ∀ {location entry}, fs.entry? location = none → fs'.entry? location = some entry →
    entry = .directory ∧ ∃ path ∈ paths, fs'.locate path = .ok location

namespace Grows

variable {paths paths' : List Path}

theorem refl (paths : List Path) (fs : FileSystem) : Grows paths fs fs where
  workingDirectory_eq := rfl
  kept he := he
  added hn he := by rw [hn] at he; cases he

theorem mono (h : Grows paths fs fs') (hp : paths ⊆ paths') : Grows paths' fs fs' where
  workingDirectory_eq := h.workingDirectory_eq
  kept := h.kept
  added hn he := by
    obtain ⟨hd, path, hm, hl⟩ := h.added hn he
    exact ⟨hd, path, hp hm, hl⟩

theorem toExtends (h : Grows paths fs fs') : Extends fs fs' where
  workingDirectory_eq := h.workingDirectory_eq
  directory := h.kept

theorem trans (h : Grows paths fs fs') (h' : Grows paths fs' fs'') : Grows paths fs fs'' where
  workingDirectory_eq := h'.workingDirectory_eq.trans h.workingDirectory_eq
  kept he := h'.kept (h.kept he)
  added {location entry} hn he := by
    cases hb : fs'.entry? location with
    | none => exact h'.added hb he
    | some between =>
      obtain ⟨rfl, path, hm, hl⟩ := h.added hn hb
      have hs := h'.kept hb
      rw [hs] at he
      cases he
      exact ⟨rfl, path, hm, h'.toExtends.locate hl (by simp [hs])⟩

theorem readFile (h : Grows paths fs fs') {content : ByteArray}
    (hr : fs.readFile path = .ok content) : fs'.readFile path = .ok content := by
  refine h.toExtends.readFile hr fun location hl => ?_
  have he := entry?_of_readFile hr hl
  rw [he, h.kept he]

end Grows

/-- Everything lies in a directory. -/
def Nested (fs : FileSystem) : Prop :=
  ∀ location name, fs.entry? (location ++ [name]) ≠ none → fs.entry? location = some .directory

theorem nested_empty : Nested empty := by
  intro location name h
  unfold empty entry? at h
  rw [if_neg (by simp), Association.get?] at h
  split at h
  next heq =>
    cases List.append_eq_singleton_iff.mp heq.symm with
    | inl h => rw [h.1]; rfl
    | inr h => cases h.2
  · exact absurd rfl h

theorem Nested.put (h : Nested fs) {here : Location} {name : String}
    (hd : fs.entry? here = some .directory) (hv : fs.entry? (here ++ [name]) ≠ some .directory)
    (entry : Entry) : Nested (fs.put (here ++ [name]) entry) := by
  intro location last hn
  apply (extends_put hv).directory
  by_cases heq : location ++ [last] = here ++ [name]
  · rw [(List.append_inj' heq rfl).1, hd]
  · rw [entry?_put_of_ne heq] at hn
    exact h location last hn

theorem Nested.entry?_ne_none (h : Nested fs) {names : List String}
    (hn : fs.entry? (location ++ names) ≠ none) : fs.entry? location ≠ none := by
  induction names using List.reverseRecOn with
  | nil => rwa [List.append_nil] at hn
  | append_singleton names name ih =>
    rw [← List.append_assoc] at hn
    exact ih (by simp [h _ _ hn])

/-- No file is added. -/
theorem Grows.entry?_of_file {paths : List Path} (h : Grows paths fs fs') {content : ByteArray}
    (hf : fs'.entry? location = some (.file content)) :
    fs.entry? location = some (.file content) := by
  cases hb : fs.entry? location with
  | none => exact nomatch (h.added hb hf).1
  | some entry => exact (h.kept hb).symm.trans hf

/-- No file lies in an added directory. -/
theorem Grows.entry?_ne_file {paths : List Path} (h : Grows paths fs fs') (hw : Nested fs)
    (hn : fs.entry? location = none) (names : List String) (content : ByteArray) :
    fs'.entry? (location ++ names) ≠ some (.file content) := by
  intro hf
  exact @Nested.entry?_ne_none _ location hw names (by simp [h.entry?_of_file hf]) hn

theorem grows_of_makeDirectory (h : fs.makeDirectory path = .ok fs') : Grows [path] fs fs' := by
  obtain ⟨here, name, slashed, ha, hd, hn, hnone, rfl⟩ := makeDirectory_eq_ok h
  have hx : Extends fs (fs.put (here ++ [name]) .directory) := extends_put (by simp [hnone])
  have he := fs.entry?_put_self here name .directory
  have hne {l : Location} (hl : l ≠ here ++ [name]) := @entry?_put_of_ne fs _ l hl .directory
  refine ⟨rfl, fun {l entry} hl => ?_, fun {l entry} hl hs => ?_⟩
  · rwa [hne (by rintro rfl; rw [hnone] at hl; cases hl)]
  · by_cases heq : l = here ++ [name]
    · subst heq
      rw [he] at hs
      cases hs
      refine ⟨rfl, path, List.mem_singleton_self path, ?_⟩
      simp only [locate, hx.approach ha]
      exact enter_eq_ok hd hn he
    · rw [hne heq, hl] at hs
      cases hs

/-- Making directories only adds some of them, also if it fails. -/
theorem grows_makeDirectories (fs : FileSystem) (paths : List Path) :
    Grows paths fs (fs.makeDirectories paths).1 := by
  induction paths with
  | nil => exact .refl [] fs
  | cons path outer ih =>
    have once {made made' : FileSystem} (h : made.makeDirectory path = .ok made') :
        Grows (path :: outer) made made' :=
      (grows_of_makeDirectory h).mono (by simp)
    rw [makeDirectories]
    split
    · exact .refl _ fs
    split
    next hm => exact once hm
    next hm =>
      have ho := ih.mono (List.subset_cons_self path outer)
      split
      next hr => rwa [hr] at ho
      next made hr =>
        rw [hr] at ho
        split
        next hm => exact ho.trans (once hm)
        · exact ho
    · exact .refl _ fs

end StageMonitor.FileSystem

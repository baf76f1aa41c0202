import StageMonitor.Storage.FileSystem

/-! # Files are read back

A path leads to the same place before and after a file is written, because the file takes the place
of no directory. So what is written to a path is what is read from it, and writing it once more
changes nothing: the directories are there already, and the file is replaced by itself.
-/

namespace StageMonitor

theorem fromUTF8?_toUTF8 (text : String) : String.fromUTF8? text.toUTF8 = some text :=
  dif_pos text.isValidUTF8

theorem toUTF8_of_fromUTF8? {content : ByteArray} {text : String}
    (h : String.fromUTF8? content = some text) : content = text.toUTF8 := by
  unfold String.fromUTF8? at h
  split at h
  · cases h; rfl
  · cases h

namespace FileSystem

open Association

variable {fs fs' : FileSystem}

theorem entry?_put_self (fs : FileSystem) (here : Location) (name : String) (entry : Entry) :
    FileSystem.entry? (fs.put (here ++ [name]) entry) (here ++ [name]) = some entry := by
  have hne : here ++ [name] ≠ [] := by simp
  unfold FileSystem.entry? put
  rw [if_neg hne, get?_put_self]

theorem entry?_put_of_ne {location l : Location} (h : l ≠ location) (entry : Entry) :
    FileSystem.entry? (fs.put location entry) l = fs.entry? l := by
  unfold FileSystem.entry? put
  rw [get?_put_of_ne h]

/-- Every directory is still there, and paths start at the same place. -/
structure Extends (fs fs' : FileSystem) : Prop where
  workingDirectory_eq : fs'.workingDirectory = fs.workingDirectory
  directory : ∀ {location}, fs.entry? location = some .directory →
    fs'.entry? location = some .directory

theorem extends_put {location : Location} {entry : Entry}
    (h : fs.entry? location ≠ some .directory) : Extends fs (fs.put location entry) where
  workingDirectory_eq := rfl
  directory {l} hl := by
    have hne : l ≠ location := fun heq => h (heq ▸ hl)
    rw [entry?_put_of_ne hne, hl]

/-- A name is entered wherever there is something at its end. -/
theorem enter_of_entry? {here there : Location} {name : String}
    (he : fs.enter here name = .ok there) (ht : fs'.entry? there ≠ none) :
    fs'.enter here name = .ok there := by
  unfold FileSystem.enter at he ⊢
  split at he
  next hd => rwa [if_pos hd]
  next hd =>
    rw [if_neg hd]
    split at he
    next hd => rwa [if_pos hd]
    next hd =>
      rw [if_neg hd]
      split at he
      · cases he
      next hn =>
        split at he
        · cases he
        next =>
          cases he
          obtain ⟨entry, hs⟩ := Option.ne_none_iff_exists'.mp ht
          rw [if_neg hn, hs]

namespace Extends

theorem enter (h : Extends fs fs') {here there : Location} {name : String}
    (he : fs.enter here name = .ok there) (ht : fs.entry? there = some .directory) :
    fs'.enter here name = .ok there :=
  enter_of_entry? he (by simp [h.directory ht])

theorem walk (h : Extends fs fs') {here there : Location} {names : List String}
    (hw : fs.walk here names = .ok there) : fs'.walk here names = .ok there := by
  induction names generalizing here with
  | nil => exact hw
  | cons name names ih =>
    rw [FileSystem.walk] at hw ⊢
    split at hw
    · cases hw
    next l hl =>
      split at hw
      next hd =>
        rw [h.enter hl hd]
        simp only [h.directory hd]
        exact ih hw
      · cases hw
      · cases hw

theorem approach (h : Extends fs fs') {path : Path} {place : Location × Option (String × Bool)}
    (ha : fs.approach path = .ok place) : fs'.approach path = .ok place := by
  have hr : fs'.route path = fs.route path := by
    simp only [route, h.workingDirectory_eq]
  unfold FileSystem.approach at ha ⊢
  rw [hr]
  split at ha
  · cases ha
  next r _ =>
    split at ha
    · cases ha
    next here hw =>
      cases ha
      simp only [h.walk hw]

end Extends

/-- What happens when a file is written. -/
theorem writeFile_eq_ok {path : Path} {content : ByteArray}
    (h : fs.writeFile path content = .ok fs') :
    ∃ here name, fs.approach path = .ok (here, some (name, false)) ∧ isDots name = false ∧
      name.utf8ByteSize ≤ maxNameSize ∧ fs.entry? (here ++ [name]) ≠ some .directory ∧
      fs' = fs.put (here ++ [name]) (.file content) := by
  unfold writeFile at h
  split at h
  · cases h
  · cases h
  next here name slashed ha =>
    split at h
    · cases h
    next hd =>
      simp only [Bool.or_eq_true, not_or, Bool.not_eq_true] at hd
      obtain ⟨hd, rfl⟩ := hd
      split at h
      · cases h
      next hn =>
        split at h
        · cases h
        next he =>
          cases h
          exact ⟨here, name, ha, hd, Nat.le_of_not_lt hn, he, rfl⟩

theorem enter_eq_ok {here : Location} {name : String} {entry : Entry}
    (hd : isDots name = false) (hn : name.utf8ByteSize ≤ maxNameSize)
    (he : fs.entry? (here ++ [name]) = some entry) : fs.enter here name = .ok (here ++ [name]) := by
  simp only [isDots, Bool.or_eq_false_iff, decide_eq_false_iff_not] at hd
  rw [enter, if_neg hd.1, if_neg hd.2, if_neg (Nat.not_lt.mpr hn), he]

theorem readText_eq_ok_iff {path : Path} {text : String} :
    fs.readText path = .ok text ↔ fs.readFile path = .ok text.toUTF8 := by
  unfold readText
  constructor
  · intro h
    split at h
    · cases h
    next content hc =>
      split at h
      next ht => cases h; rw [hc, toUTF8_of_fromUTF8? ht]
      · cases h
  · intro h
    rw [h]
    simp only [fromUTF8?_toUTF8]

theorem readFile_of_writeFile {path : Path} {content : ByteArray}
    (h : fs.writeFile path content = .ok fs') : fs'.readFile path = .ok content := by
  obtain ⟨here, name, ha, hd, hn, hne, rfl⟩ := writeFile_eq_ok h
  have he := fs.entry?_put_self here name (.file content)
  rw [readFile, resolve, (extends_put hne).approach ha]
  simp [enter_eq_ok hd hn he, he]

theorem readText_of_writeFile {path : Path} {text : String}
    (h : fs.writeFile path text.toUTF8 = .ok fs') : fs'.readText path = .ok text :=
  readText_eq_ok_iff.mpr (readFile_of_writeFile h)

section Directories

variable {path : Path} {outer : List Path}

theorem isDirectory_iff : fs.isDirectory path = true ↔ fs.resolve path = .ok .directory := by
  unfold isDirectory
  split
  next h => simp [h]
  next h => simpa using h

/-- What happens when a directory is made. -/
theorem makeDirectory_eq_ok (h : fs.makeDirectory path = .ok fs') :
    ∃ here name slashed, fs.approach path = .ok (here, some (name, slashed)) ∧
      isDots name = false ∧ name.utf8ByteSize ≤ maxNameSize ∧ fs.entry? (here ++ [name]) = none ∧
      fs' = fs.put (here ++ [name]) .directory := by
  unfold makeDirectory at h
  split at h
  · cases h
  · cases h
  next here name slashed ha =>
    split at h
    · cases h
    next hd =>
      split at h
      · cases h
      next hn =>
        split at h
        · cases h
        next he =>
          cases h
          exact ⟨here, name, slashed, ha, by simpa using hd, Nat.le_of_not_lt hn, he, rfl⟩

/-- What stands at the end of a path that leads to a directory. -/
theorem resolve_eq_ok_directory (h : fs.resolve path = .ok .directory) :
    ∃ here last, fs.approach path = .ok (here, last) ∧ ∀ name slashed, last = some (name, slashed) →
      ∃ there, fs.enter here name = .ok there ∧ fs.entry? there = some .directory := by
  unfold resolve at h
  split at h
  · cases h
  next here ha => exact ⟨here, none, ha, fun _ _ hl => nomatch hl⟩
  next here name slashed ha =>
    split at h
    · cases h
    next there hn =>
      refine ⟨here, _, ha, fun name' slashed' hl => ?_⟩
      cases hl
      refine ⟨there, hn, ?_⟩
      split at h
      · cases h
      next hd => exact hd
      · split at h <;> cases h

theorem Extends.resolve (he : Extends fs fs') (h : fs.resolve path = .ok .directory) :
    fs'.resolve path = .ok .directory := by
  obtain ⟨here, last, ha, hl⟩ := resolve_eq_ok_directory h
  rw [FileSystem.resolve, he.approach ha]
  match last with
  | none => rfl
  | some (name, slashed) =>
    obtain ⟨there, hn, hd⟩ := hl name slashed rfl
    simp only [he.enter hn hd, he.directory hd]

theorem entry?_of_enter {here there : Location} {name : String} (hd : isDots name = false)
    (h : fs.enter here name = .ok there) :
    name.utf8ByteSize ≤ maxNameSize ∧ ∃ entry, fs.entry? (here ++ [name]) = some entry := by
  simp only [isDots, Bool.or_eq_false_iff, decide_eq_false_iff_not] at hd
  rw [enter, if_neg hd.1, if_neg hd.2] at h
  split at h
  · cases h
  next hn =>
    split at h
    · cases h
    next entry he => exact ⟨Nat.le_of_not_lt hn, entry, he⟩

theorem makeDirectory_of_isDirectory (h : fs.isDirectory path = true) :
    fs.makeDirectory path = .error .alreadyExists := by
  obtain ⟨here, last, ha, hl⟩ := resolve_eq_ok_directory (isDirectory_iff.mp h)
  rw [makeDirectory, ha]
  match last with
  | none => rfl
  | some (name, slashed) =>
    obtain ⟨there, hn, -⟩ := hl name slashed rfl
    cases hd : isDots name with
    | true => simp [hd]
    | false =>
      obtain ⟨hs, entry, he⟩ := entry?_of_enter hd hn
      simp [hd, Nat.not_lt.mpr hs, he]

theorem isDirectory_of_makeDirectory (h : fs.makeDirectory path = .ok fs') :
    fs'.isDirectory path = true := by
  obtain ⟨here, name, slashed, ha, hd, hn, hnone, rfl⟩ := makeDirectory_eq_ok h
  have he := fs.entry?_put_self here name .directory
  have hx : Extends fs (fs.put (here ++ [name]) .directory) := extends_put (by simp [hnone])
  rw [isDirectory_iff, resolve, hx.approach ha]
  simp only [enter_eq_ok hd hn he, he]

/-- A directory that had to be made is there afterwards. -/
theorem isDirectory_of_makeDirectories (h : fs.makeDirectories (path :: outer) = (fs', .ok ())) :
    path = "" ∨ fs'.isDirectory path = true := by
  rw [makeDirectories] at h
  split at h
  next hp => exact Or.inl hp
  right
  split at h
  next made hm =>
    cases h
    exact isDirectory_of_makeDirectory hm
  · split at h
    · cases h
    next made _ =>
      split at h
      next hm => cases h; exact isDirectory_of_makeDirectory hm
      next =>
        obtain ⟨rfl, hr⟩ := Prod.mk.inj h
        split at hr
        next hd => exact hd
        · cases hr
  · obtain ⟨rfl, hr⟩ := Prod.mk.inj h
    split at hr
    next hd => exact hd
    · cases hr

/-- A directory that is there does not have to be made. -/
theorem makeDirectories_of_isDirectory (h : path = "" ∨ fs.isDirectory path = true) :
    fs.makeDirectories (path :: outer) = (fs, .ok ()) := by
  rw [makeDirectories]
  split
  · rfl
  next hp =>
    have hd := h.resolve_left hp
    rw [makeDirectory_of_isDirectory hd]
    simp only [hd, if_true]

theorem extends_of_writeFile {content : ByteArray} (h : fs.writeFile path content = .ok fs') :
    Extends fs fs' := by
  obtain ⟨here, name, -, -, -, hne, rfl⟩ := writeFile_eq_ok h
  exact extends_put hne

theorem writeFile_again {content : ByteArray} (h : fs.writeFile path content = .ok fs') :
    fs'.writeFile path content = .ok fs' := by
  obtain ⟨here, name, ha, hd, hn, hne, rfl⟩ := writeFile_eq_ok h
  have he := fs.entry?_put_self here name (.file content)
  rw [writeFile, (extends_put hne).approach ha]
  simp only [hd, Bool.or_self, Bool.false_eq_true, if_false, Nat.not_lt.mpr hn, he]
  rw [put, put, Association.put_put_self]

end Directories

end FileSystem

end StageMonitor

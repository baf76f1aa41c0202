import StageMonitor.Proofs.Json.Layout
import StageMonitor.Proofs.Storage
import StageMonitor.Session

/-! # What is stored and what is compared

A document that was stored is what its path holds afterwards. Comparing a document with a file is
comparing it with the value that the text of the file spells.
-/

namespace StageMonitor

open Json

namespace Session

variable {document : Value} {path : Path} {world world' : World}

@[simp] theorem run_ofExcept_ok {ε α : Type} (failure : ε → Failure) (a : α) (world : World) :
    (ofExcept failure (.ok a)).run world = .ok a world := rfl

@[simp] theorem run_ofExcept_error {ε α : Type} (failure : ε → Failure) (e : ε) (world : World) :
    (ofExcept failure (.error e : Except ε α)).run world = .error (failure e) world := rfl

@[simp] theorem run_record (event : Event) (world : World) :
    (record event).run world = .ok () { world with log := world.log ++ [event] } := rfl

@[simp] theorem run_recordAll (events : List Event) (world : World) :
    (recordAll events).run world = .ok () { world with log := world.log ++ events } := rfl

/-- A sequence of steps succeeds only if each of them does. -/
theorem exists_run_of_bind {α β : Type} {x : Session α} {f : α → Session β} {b : β}
    (h : (x >>= f).run world = .ok b world') :
    ∃ a between, x.run world = .ok a between ∧ (f a).run between = .ok b world' := by
  rw [EStateM.run_bind] at h
  split at h
  next a between ha => exact ⟨a, between, ha, h⟩
  · cases h

/-- A sequence of steps fails with its first step or after it. -/
theorem run_of_bind_error {α β : Type} {x : Session α} {f : α → Session β} {failure : Failure}
    (h : (x >>= f).run world = .error failure world') :
    x.run world = .error failure world' ∨
      ∃ a between, x.run world = .ok a between ∧ (f a).run between = .error failure world' := by
  rw [EStateM.run_bind] at h
  split at h
  next a between ha => exact Or.inr ⟨a, between, ha, h⟩
  next hx => cases h; exact Or.inl hx

theorem run_readText (path : Path) (world : World) :
    (readText path).run world =
      match world.files.readText path with
      | .ok text => .ok text world
      | .error obstacle => .error (.storage .read path obstacle) world := by
  unfold readText
  cases h : world.files.readText path <;> simp [h]

theorem run_readValue (path : Path) (world : World) :
    (readValue path).run world =
      match world.files.readText path with
      | .ok text =>
        match Value.ofDocument text with
        | .ok stored => .ok stored world
        | .error rejection => .error (.malformed rejection) world
      | .error obstacle => .error (.storage .read path obstacle) world := by
  unfold readValue
  rw [EStateM.run_bind, run_readText]
  cases world.files.readText path with
  | error obstacle => rfl
  | ok text => cases h : Value.ofDocument text <;> simp only [h, run_ofExcept_ok, run_ofExcept_error]

theorem run_makeDirectories (path : Path) (world : World) :
    (makeDirectories path).run world =
      match Path.directories path with
      | [] => .ok () world
      | parent :: outer =>
        match world.files.makeDirectories (parent :: outer) with
        | (made, .ok ()) => .ok () { world with files := made }
        | (made, .error obstacle) =>
          .error (.storage .createDirectory parent obstacle) { world with files := made } := by
  unfold makeDirectories
  cases hp : Path.directories path with
  | nil => rfl
  | cons parent outer =>
    simp only [EStateM.run_bind, EStateM.run_get]
    cases world.files.makeDirectories (parent :: outer) with
    | mk made result => cases result <;> rfl

theorem run_writeText (path : Path) (text : String) (world : World) :
    (writeText path text).run world =
      match world.files.writeFile path text.toUTF8 with
      | .ok files => .ok () { world with files }
      | .error obstacle => .error (.storage .create path obstacle) world := by
  unfold writeText
  simp only [EStateM.run_bind, EStateM.run_get]
  cases world.files.writeFile path text.toUTF8 <;> rfl

theorem log_eq_of_run_makeDirectories (h : (makeDirectories path).run world = .ok () world') :
    world'.log = world.log := by
  rw [run_makeDirectories] at h
  split at h
  · cases h; rfl
  · split at h
    · cases h; rfl
    · cases h

theorem writeFile_of_run_writeText {text : String}
    (h : (writeText path text).run world = .ok () world') :
    world.files.writeFile path text.toUTF8 = .ok world'.files ∧ world'.log = world.log := by
  rw [run_writeText] at h
  split at h
  next files hw => cases h; exact ⟨hw, rfl⟩
  · cases h

/-- What happens when a document is stored. -/
theorem writeFile_of_run_dump (h : (dump document path).run world = .ok () world') :
    ∃ made : FileSystem, made.writeFile path document.fileText.toUTF8 = .ok world'.files ∧
      world'.log = world.log ++ [.wrote path] := by
  obtain ⟨_, made, hm, h⟩ := exists_run_of_bind h
  obtain ⟨_, written, hw, h⟩ := exists_run_of_bind h
  obtain ⟨hf, hl⟩ := writeFile_of_run_writeText hw
  rw [run_record] at h
  cases h
  refine ⟨made.files, hf, ?_⟩
  rw [hl, log_eq_of_run_makeDirectories hm]

theorem readText_of_run_dump (h : (dump document path).run world = .ok () world') :
    world'.files.readText path = .ok document.fileText := by
  obtain ⟨made, hw, -⟩ := writeFile_of_run_dump h
  exact FileSystem.readText_of_writeFile hw

/-- The innermost directory in which a file at a path is to be written is there. -/
def Prepared (files : FileSystem) (path : Path) : Prop :=
  ∀ parent outer, Path.directories path = parent :: outer →
    parent = "" ∨ files.isDirectory parent = true

theorem prepared_of_run_makeDirectories (h : (makeDirectories path).run world = .ok () world') :
    Prepared world'.files path := by
  intro parent outer hp
  simp only [run_makeDirectories, hp] at h
  split at h
  next made hm => cases h; exact FileSystem.isDirectory_of_makeDirectories hm
  · cases h

theorem Prepared.of_writeFile {files files' : FileSystem} {content : ByteArray}
    (h : Prepared files path) (hw : files.writeFile path content = .ok files') :
    Prepared files' path := by
  intro parent outer hp
  refine (h parent outer hp).imp_right fun hd => ?_
  rw [FileSystem.isDirectory_iff] at hd ⊢
  exact (FileSystem.extends_of_writeFile hw).resolve hd

theorem Prepared.run_makeDirectories (h : Prepared world.files path) :
    (makeDirectories path).run world = .ok () world := by
  rw [Session.run_makeDirectories]
  split
  · rfl
  next parent outer hp => rw [FileSystem.makeDirectories_of_isDirectory (h parent outer hp)]

/-- A document that was just stored is stored again without any change. -/
theorem run_dump_again (h : (dump document path).run world = .ok () world') :
    (dump document path).run world' =
      .ok () { world' with log := world'.log ++ [.wrote path] } := by
  obtain ⟨_, made, hm, h⟩ := exists_run_of_bind h
  obtain ⟨_, written, hw, h⟩ := exists_run_of_bind h
  obtain ⟨hf, -⟩ := writeFile_of_run_writeText hw
  have hd : Prepared written.files path := (prepared_of_run_makeDirectories hm).of_writeFile hf
  rw [run_record] at h
  cases h
  have hr : (makeDirectories path).run { written with log := written.log ++ [.wrote path] } =
      .ok () { written with log := written.log ++ [.wrote path] } :=
    Prepared.run_makeDirectories hd
  rw [dump, EStateM.run_bind, hr]
  simp only [EStateM.run_bind, run_writeText, FileSystem.writeFile_again hf, run_record]

/-- How a comparison with a readable file ends. -/
theorem run_check_of_readText {text : String} (h : world.files.readText path = .ok text) :
    (check document path).run world =
      match Value.ofDocument text with
      | .error rejection => .error (.malformed rejection) world
      | .ok stored =>
        if stored.same document.canonical then
          .ok () { world with log := world.log ++ [.upToDate path] }
        else .error (.outOfDate path) world := by
  unfold check
  simp only [EStateM.run_bind, run_readValue, h]
  cases Value.ofDocument text with
  | error rejection => rfl
  | ok stored =>
    simp only
    split <;> rfl

theorem run_check_of_unreadable {obstacle : Obstacle}
    (h : world.files.readText path = .error obstacle) :
    (check document path).run world = .error (.storage .read path obstacle) world := by
  unfold check
  rw [EStateM.run_bind, run_readValue, h]

end Session

end StageMonitor

import StageMonitor.Proofs.Catalog.Reader
import StageMonitor.Proofs.Comparison

/-! # Loading a catalog

A catalog is loaded exactly from the texts whose tree is its own, if there is nothing to report of
it. A loaded catalog is loaded again from its own texts, and a failure leaves a single event.
-/

namespace StageMonitor

open Json

namespace Catalog

theorem inRange_toJson (catalog : Catalog) : catalog.toJson.InRange := by
  simp [toJson, Stage.toJson, Value.string, Value.InRange, Scalar.InRange]

/-- The texts that are printed for a catalog, the last one to be stored in a file. -/
def texts (catalog : Catalog) : List String :=
  [catalog.toJson.compactText, String.ofList catalog.toJson.pretty, catalog.toJson.fileText]

theorem exists_isDocument_of_mem_texts {catalog : Catalog} {text : String}
    (h : text ∈ catalog.texts) : ∃ t : Tree, t.IsDocument text ∧ catalog.Shape t := by
  have hv : ∃ s b, catalog.toJson.Spelled s ∧ Blank b ∧ text.toList = [] ++ s ++ b := by
    have hc := Value.spelled_compact catalog.inRange_toJson
    have hp := Value.spelled_prettyAt catalog.inRange_toJson 0
    simp only [texts, List.mem_cons, List.not_mem_nil, or_false] at h
    obtain rfl | rfl | rfl := h
    · exact ⟨_, [], hc, blank_nil, by simp [Value.compactText]⟩
    · exact ⟨_, [], hp, blank_nil, by simp [Value.pretty]⟩
    · exact ⟨_, ['\n'], hp, by simp [Blank], by simp [Value.fileText, Value.pretty]⟩
  obtain ⟨s, b, hs, hb, htext⟩ := hv
  obtain ⟨t, ht, hf⟩ := hs.exists_written
  exact ⟨t, ⟨[], s, b, blank_nil, ht, hb, htext⟩, shape_of_fits hf⟩

end Catalog

namespace Session

variable {path : Path} {text : String} {world : World} {catalog : Catalog}

/-- How loading a readable file ends. -/
theorem run_load_of_readText (h : world.files.readText path = .ok text) :
    (load path).run world =
      match Catalog.ofDocument text with
      | .error rejection =>
        .error (.malformed rejection) { world with log := world.log ++ [.loading path] }
      | .ok catalog =>
        match catalog.report? with
        | some report =>
          .error (.invalidCatalog catalog report) { world with log := world.log ++ [.loading path] }
        | none =>
          .ok catalog { world with
            log := world.log ++ [.loading path, .loaded catalog.stages.length path] } := by
  unfold load
  simp only [EStateM.run_bind, run_record, run_readText, h]
  cases Catalog.ofDocument text with
  | error rejection => simp only [run_ofExcept_error]
  | ok catalog =>
    simp only [run_ofExcept_ok]
    cases catalog.report? with
    | some report => rfl
    | none =>
      simp only [EStateM.run_bind, run_record, EStateM.run_pure, List.append_assoc,
        List.singleton_append]

theorem run_load_of_unreadable {obstacle : Obstacle}
    (h : world.files.readText path = .error obstacle) :
    (load path).run world =
      .error (.storage .read path obstacle) { world with log := world.log ++ [.loading path] } := by
  unfold load
  simp only [EStateM.run_bind, run_record, run_readText, h]

/-- Loading ends in one of two ways, and the log tells which. -/
theorem load_cases (path : Path) (world : World) :
    (∃ failure, (load path).run world =
      .error failure { world with log := world.log ++ [.loading path] }) ∨
    ∃ catalog : Catalog, catalog.report? = none ∧ (load path).run world = .ok catalog { world with
      log := world.log ++ [.loading path, .loaded catalog.stages.length path] } := by
  cases hr : world.files.readText path with
  | error obstacle => exact Or.inl ⟨_, run_load_of_unreadable hr⟩
  | ok text =>
    rw [run_load_of_readText hr]
    cases Catalog.ofDocument text with
    | error rejection => exact Or.inl ⟨_, rfl⟩
    | ok catalog =>
      cases hc : catalog.report? with
      | some report => exact Or.inl ⟨.invalidCatalog catalog report, by simp only [hc]⟩
      | none => exact Or.inr ⟨catalog, hc, by simp only [hc]⟩

section Shape

variable {t : Tree} (ht : t.IsDocument text) (hf : world.files.readFile path = .ok text.toUTF8)

include ht hf

theorem run_load_of_shape (hs : catalog.Shape t) :
    (catalog.report? = none → (load path).run world = .ok catalog { world with
      log := world.log ++ [.loading path, .loaded catalog.stages.length path] }) ∧
    ∀ report, catalog.report? = some report → (load path).run world =
      .error (.invalidCatalog catalog report)
        { world with log := world.log ++ [.loading path] } := by
  rw [run_load_of_readText (FileSystem.readText_eq_ok_iff.mpr hf),
    (Catalog.ofDocument_eq_ok_iff ht).mpr hs]
  constructor
  · intro h
    simp only [h]
  · intro report h
    simp only [h]

theorem run_load_of_misshapen (hm : Catalog.Misshapen t) :
    ∃ rejection, (load path).run world =
      .error (.malformed rejection) { world with log := world.log ++ [.loading path] } := by
  rw [run_load_of_readText (FileSystem.readText_eq_ok_iff.mpr hf)]
  cases ho : Catalog.ofDocument text with
  | ok catalog =>
    exact absurd ⟨catalog, (Catalog.ofDocument_eq_ok_iff ht).mp ho⟩ (Catalog.misshapen_iff.mp hm)
  | error rejection => exact ⟨rejection, rfl⟩

end Shape

/-- How loading a well-formed text ends. Every spelling of a catalog without faults is loaded as
that catalog. A text is refused as malformed if some field is missing, repeated or of the wrong type,
or if a list of fields has the wrong length, also where other faults could be reported. -/
theorem load_by_shape {t : Tree} (ht : t.IsDocument text)
    (hf : world.files.readFile path = .ok text.toUTF8) :
    (∀ catalog : Catalog, catalog.Shape t → catalog.report? = none →
      (load path).run world = .ok catalog { world with
        log := world.log ++ [.loading path, .loaded catalog.stages.length path] }) ∧
    (Catalog.Misshapen t ∨ (¬ ∃ catalog : Catalog, catalog.Shape t) →
      ∃ rejection, (load path).run world =
        .error (.malformed rejection) { world with log := world.log ++ [.loading path] }) := by
  constructor
  · intro catalog hs hr
    exact (run_load_of_shape ht hf hs).1 hr
  · intro h
    exact run_load_of_misshapen ht hf (h.elim id Catalog.misshapen_iff.mpr)

/-- A member that is written without blanks. -/
def bareMember (key : String) (value : Tree) (valueText : List Char) : Branch :=
  ⟨some key, value, stringText key, valueText, [], [], .string (stringSpelled_stringText key),
    blank_nil, blank_nil⟩

/-- An unknown key with a number beyond all floating ones and a stage in the form of a list do no
harm. A stage without a label does, though its id could not be used. -/
theorem load_by_shape_mixed_forms :
    let mixed := holding "\x7b\"x\":1e999,\"stages\":[[\"a\",\"A\"]]\x7d"
    let broken := holding "[[\x7b\"id\":\"-\"\x7d]]"
    (∃ world', (load "d.json").run mixed = .ok ⟨[⟨"a", "A"⟩]⟩ world') ∧
    ∃ rejection world', (load "d.json").run broken = .error (.malformed rejection) world' := by
  intro mixed broken
  have string (x : String) : (Tree.string (some x)).Written (stringText x) :=
    .string (.string (stringSpelled_stringText x))
  have single {t : Tree} {s : List Char} (h : t.Written s) :
      (Tree.array [t]).Written ('[' :: (s ++ [']'])) :=
    @Tree.Written.array [(t, s)] _ (List.forall_mem_singleton.mpr h)
      (by simpa using listing_compact ']' [s])
  constructor
  · let huge : Numeral := ⟨false, ['1'], [], some ⟨false, ['9', '9', '9']⟩⟩
    have hhuge : huge.Spelled ['1', 'e', '9', '9', '9'] :=
      @Numeral.Spelled.mk huge [] _ (.digits (by decide) (by simp)) .absent
        (.digits (Or.inl rfl) .absent (by simp) (by simp))
    let stage : Tree := .array [.string (some "a"), .string (some "A")]
    have hstage : stage.Written _ :=
      @Tree.Written.array [(.string (some "a"), _), (.string (some "A"), _)] _
        (List.forall_mem_cons.mpr ⟨string "a", List.forall_mem_singleton.mpr (string "A")⟩)
        (listing_compact _ _)
    have ht : (Tree.object [(some "x", .number huge), (some "stages", .array [stage])]).Written _ :=
      @Tree.Written.object [bareMember "x" (.number huge) _, bareMember "stages" (.array [stage]) _]
        _ (List.forall_mem_cons.mpr ⟨.number hhuge, List.forall_mem_singleton.mpr (single hstage)⟩)
        (listing_compact _ _)
    have hs : Catalog.Shape ⟨[⟨"a", "A"⟩]⟩
        (.object [(some "x", .number huge), (some "stages", .array [stage])]) :=
      ⟨[stage], .object (by simp) (by simp [Tree.under]), .cons (.list rfl) .nil⟩
    exact ⟨_, (load_by_shape ⟨[], _, [], blank_nil, ht, blank_nil, rfl⟩ rfl).1 _ hs (by decide)⟩
  · let stage : Tree := .object [(some "id", .string (some "-"))]
    have hstage : stage.Written _ :=
      @Tree.Written.object [bareMember "id" (.string (some "-")) _] _
        (List.forall_mem_singleton.mpr (string "-")) (listing_compact _ _)
    have ht : (Tree.array [.array [stage]]).Written _ := single (single hstage)
    have hm : Catalog.Misshapen (.array [.array [stage]]) :=
      .stage (.list rfl) List.mem_cons_self
        (.fields (@Tree.LacksFields.missing _ _ "label" (by simp) (by simp [Tree.under])))
    have hf : broken.files.readFile "d.json" = .ok (String.toUTF8 _) := rfl
    obtain ⟨rejection, h⟩ :=
      (load_by_shape ⟨[], _, [], blank_nil, ht, blank_nil, rfl⟩ hf).2 (Or.inl hm)
    exact ⟨rejection, _, h⟩

/-- A catalog is loaded from its own texts, or refused with its own report. Whatever a file holds,
a loaded catalog has no faults and is loaded again from its own texts, and after a failure the log
only tells that loading was tried. -/
theorem load_texts (path : Path) :
    (∀ (catalog : Catalog), ∀ text ∈ catalog.texts, ∀ world : World,
      world.files.readFile path = .ok text.toUTF8 →
      (catalog.report? = none → (load path).run world = .ok catalog { world with
        log := world.log ++ [.loading path, .loaded catalog.stages.length path] }) ∧
      ∀ report, catalog.report? = some report → (load path).run world =
        .error (.invalidCatalog catalog report)
          { world with log := world.log ++ [.loading path] }) ∧
    (∀ world catalog world', (load path).run world = .ok catalog world' →
      catalog.report? = none ∧
      world' = { world with
        log := world.log ++ [.loading path, .loaded catalog.stages.length path] } ∧
      (Event.loading path).severity = .debug ∧
      (Event.loaded catalog.stages.length path).severity = .info ∧
      ∀ text ∈ catalog.texts, ∀ (copy : Path) (other : World),
        other.files.readFile copy = .ok text.toUTF8 →
        ∃ again, (load copy).run other = .ok catalog again) ∧
    ∀ world failure world', (load path).run world = .error failure world' →
      world' = { world with log := world.log ++ [.loading path] } := by
  refine ⟨?_, ?_, ?_⟩
  · intro catalog text htext world hf
    obtain ⟨t, ht, hs⟩ := Catalog.exists_isDocument_of_mem_texts htext
    exact run_load_of_shape ht hf hs
  · intro world catalog world' h
    obtain ⟨failure, he⟩ | ⟨loaded, hr, hl⟩ := load_cases path world
    · rw [he] at h
      cases h
    rw [hl] at h
    cases h
    refine ⟨hr, rfl, rfl, rfl, fun text htext copy other hf => ?_⟩
    obtain ⟨t, ht, hs⟩ := Catalog.exists_isDocument_of_mem_texts htext
    exact ⟨_, (run_load_of_shape ht hf hs).1 hr⟩
  · intro world failure world' h
    obtain ⟨failure, he⟩ | ⟨loaded, -, hl⟩ := load_cases path world
    · rw [he] at h
      cases h
      rfl
    · rw [hl] at h
      cases h

/-- Any label can be loaded, but not any id. -/
theorem load_texts_tricky :
    let valid : Catalog := ⟨[⟨"id_1", "\x00\"\\𝄞"⟩]⟩
    let invalid : Catalog := ⟨[⟨"id\"\x00𝄞", ""⟩]⟩
    (∃ world', (load "d.json").run (holding valid.toJson.compactText) = .ok valid world' ∧
      world'.log = [.loading "d.json", .loaded 1 "d.json"]) ∧
    ∃ world', (load "d.json").run (holding (String.ofList invalid.toJson.pretty)) =
      .error (.invalidCatalog invalid (.stages [(0, ⟨some (.forbidden "id\"\x00𝄞"), true⟩)]))
        world' := by
  intro valid invalid
  obtain ⟨hown, -, -⟩ := load_texts "d.json"
  have hv := (hown valid _ (by simp [Catalog.texts]) (holding valid.toJson.compactText) rfl).1
  have hi := (hown invalid _ (by simp [Catalog.texts])
    (holding (String.ofList invalid.toJson.pretty)) rfl).2
  exact ⟨⟨_, hv (by decide), rfl⟩, _, hi _ (by decide)⟩

end Session

end StageMonitor

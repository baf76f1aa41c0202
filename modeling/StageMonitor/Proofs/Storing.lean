import StageMonitor.Proofs.Comparison

/-! # Stored values are found again

A value whose objects are ordered and whose numbers are machine integers is told apart from all
others by the file that stores it. The file gives back the value itself, so it is stored again with
the same bytes.
-/

namespace StageMonitor

open Json

namespace Json.Value

theorem InRange.integral {v : Value} (h : v.InRange) : v.Integral := by
  refine Every.mono h (fun _ hk => hk) fun a ha => ?_
  match a, ha with
  | .null, _ => trivial
  | .bool _, _ => trivial
  | .number (.int _), _ => trivial
  | .string _, _ => trivial

/-- The values that a file gives back as they are. An object stands for a finite map, by its keys in
increasing order; there are no floating numbers, and integers fit into a machine word. -/
structure Storable (v : Value) : Prop where
  ordered : v.Ordered
  inRange : v.InRange
  depth_le : v.depth ≤ depthLimit

theorem Storable.canonical_eq {v : Value} (h : v.Storable) : v.canonical = v :=
  canonical_eq_self_iff.mpr h.ordered

end Json.Value

namespace Session

variable {path : Path} {world world' : World}

theorem run_readValue_of_run_dump {stored : Value} (hs : stored.Storable)
    (h : (dump stored path).run world = .ok () world') :
    (readValue path).run world' = .ok stored world' := by
  have hv := Value.ofDocument_fileText hs.inRange hs.depth_le
  rw [hs.canonical_eq] at hv
  simp only [run_readValue, readText_of_run_dump h, hv]

/-- A stored value is up to date with itself alone, and storing what is read back changes nothing in
the files. -/
theorem check_dumped_value {stored wanted : Value} (hs : stored.Storable) (hw : wanted.Storable)
    (h : (dump stored path).run world = .ok () world') :
    (stored = wanted →
      (check wanted path).run world' =
        .ok () { world' with log := world'.log ++ [.upToDate path] }) ∧
    (stored ≠ wanted → (check wanted path).run world' = .error (.outOfDate path) world') ∧
    (readValue path).run world' = .ok stored world' ∧
    world'.files.readFile path = .ok stored.fileText.toUTF8 ∧
    ∃ again, (dump stored path).run world' = .ok () again ∧ again.files = world'.files := by
  have hi : wanted.canonical.Integral := by
    rw [hw.canonical_eq]
    exact hw.inRange.integral
  obtain ⟨hsame, hother⟩ := run_check_of_run_dump hs.inRange hs.depth_le hi h
  rw [hs.canonical_eq, hw.canonical_eq] at hsame hother
  have hf := FileSystem.readText_eq_ok_iff.mp (readText_of_run_dump h)
  exact ⟨hsame, hother, run_readValue_of_run_dump hs h, hf, _, run_dump_again h, rfl⟩

/-- The extreme integers, a control character and one beyond the basic plane, empty containers. -/
theorem check_dumped_value_extremes :
    let stored := Value.object
      [("\x00", .array [.scalar (.number (.int (-0x8000000000000000))), .array [], .object []]),
        ("𝄞", .scalar (.number (.int 0xffffffffffffffff)))]
    let wanted := Value.object
      [("\x00", .array [.scalar (.number (.int (-0x8000000000000000))), .array [], .object []]),
        ("𝄞", .scalar (.number (.int 0xfffffffffffffffe)))]
    ∃ world', (dump stored "a/d.json").run ⟨.empty, []⟩ = .ok () world' ∧
      (check wanted "a/d.json").run world' = .error (.outOfDate "a/d.json") world' ∧
      (readValue "a/d.json").run world' = .ok stored world' := by
  intro stored wanted
  have hs : stored.Storable := by
    constructor
    · simp +decide [stored, Value.Ordered]
    · simp [stored, Value.InRange, Scalar.InRange]
    · decide
  have hw : wanted.Storable := by
    constructor
    · simp +decide [wanted, Value.Ordered]
    · simp [wanted, Value.InRange, Scalar.InRange]
    · decide
  have hne : stored ≠ wanted := by simp [stored, wanted]
  obtain ⟨-, hother, hread, -⟩ := @check_dumped_value "a/d.json" ⟨.empty, []⟩ _ _ _ hs hw rfl
  exact ⟨_, rfl, hother hne, hread⟩

end Session

end StageMonitor

import StageMonitor.Proofs.Dashboard.Recovery
import StageMonitor.Proofs.Session

/-! # Comparing dashboards with files

A file agrees with a dashboard exactly if its text spells the document of the dashboard, however it
is laid out. A file that was stored for some stages agrees with the dashboard of the same stages and
no others.
-/

namespace StageMonitor

open Json

namespace Session

variable {document v : Value} {path : Path} {text : String} {world world' : World}

/-- The comparison is between the values that the document and the file have. -/
theorem run_check_of_isDocument (hr : world.files.readText path = .ok text)
    (hi : document.canonical.Integral) (hv : v.IsDocument text) :
    (v.canonical = document.canonical →
      (check document path).run world =
        .ok () { world with log := world.log ++ [.upToDate path] }) ∧
    (v.canonical ≠ document.canonical →
      (check document path).run world = .error (.outOfDate path) world) := by
  have ho := Value.ofDocument_eq_ok_iff.mpr ⟨v, hv, rfl⟩
  rw [run_check_of_readText hr, ho]
  constructor
  · intro heq
    exact if_pos ((Value.same_iff hi).mpr heq)
  · intro hne
    exact if_neg fun hs => hne ((Value.same_iff hi).mp hs)

/-- A document that was just stored is found again by its value. -/
theorem run_check_of_run_dump {stored : Value} (hr : stored.InRange)
    (hd : stored.depth ≤ depthLimit) (hi : document.canonical.Integral)
    (h : (dump stored path).run world = .ok () world') :
    (stored.canonical = document.canonical →
      (check document path).run world' =
        .ok () { world' with log := world'.log ++ [.upToDate path] }) ∧
    (stored.canonical ≠ document.canonical →
      (check document path).run world' = .error (.outOfDate path) world') :=
  run_check_of_isDocument (readText_of_run_dump h) hi (Value.isDocument_fileText hr hd)

/-- The dashboard that is stored for some stages is up to date for the same stages only. -/
theorem check_dumped_stages {s : List Stage} (hs : s.length < (2 ^ 32 - 1) / 3) (t : List Stage) :
    ∃ stored wanted : Dashboard, Dashboard.ofStages s = .ok stored ∧
      Dashboard.ofStages t = .ok wanted ∧
      ∀ path world world', (dump stored.toJson path).run world = .ok () world' →
        (check wanted.toJson path).run world' =
          if s = t then .ok () { world' with log := world'.log ++ [.upToDate path] }
          else .error (.outOfDate path) world' := by
  refine ⟨.ofBands s, .ofBands t, Dashboard.ofStages_eq_ok s, Dashboard.ofStages_eq_ok t, ?_⟩
  intro path world world' hd
  obtain ⟨hsame, hother⟩ := run_check_of_run_dump (Dashboard.inRange_toJson hs)
    (Dashboard.depth_toJson_le_depthLimit _) (Dashboard.integral_canonical_toJson _) hd
  simp only [Dashboard.canonical_toJson] at hsame hother
  split
  next heq => exact hsame (by rw [heq])
  next hne => exact hother fun heq => hne (Dashboard.stages_eq_of_toJson_eq heq)

/-- A change of a single label is noticed. -/
theorem check_dumped_stages_relabeled :
    ∃ (stored wanted : Dashboard) (world' : World),
      Dashboard.ofStages [⟨"tob_maiden", "Maiden"⟩] = .ok stored ∧
      Dashboard.ofStages [⟨"tob_maiden", "maiden"⟩] = .ok wanted ∧
      (dump stored.toJson "d.json").run ⟨.empty, []⟩ = .ok () world' ∧
      (check wanted.toJson "d.json").run world' = .error (.outOfDate "d.json") world' := by
  obtain ⟨stored, wanted, hs, ht, h⟩ :=
    check_dumped_stages (s := [⟨"tob_maiden", "Maiden"⟩]) (by decide) [⟨"tob_maiden", "maiden"⟩]
  have hd := h "d.json" ⟨.empty, []⟩ _ rfl
  exact ⟨stored, wanted, _, hs, ht, rfl, hd.trans (if_neg (by decide))⟩

/-- A world in which one file holds a text. -/
def holding (text : String) : World :=
  ⟨FileSystem.empty.put ["work", "d.json"] (.file text.toUTF8), []⟩

end Session

end StageMonitor

import StageMonitor.Proofs.Catalog.Report
import StageMonitor.Proofs.Catalog.Wording

/-! # What is reported of a catalog

A repeated id is reported alone. Otherwise the report lists the stages that break a rule, each by
its index and with the rules that it breaks.
-/

namespace StageMonitor

/-- An ASCII letter or digit, or an underscore. -/
def IsWordChar (c : Char) : Prop :=
  ('A' ≤ c ∧ c ≤ 'Z') ∨ ('a' ≤ c ∧ c ≤ 'z') ∨ ('0' ≤ c ∧ c ≤ '9') ∨ c = '_'

instance (c : Char) : Decidable (IsWordChar c) :=
  inferInstanceAs (Decidable (_ ∨ _))

theorem isIdChar_iff {c : Char} : isIdChar c = true ↔ IsWordChar c := by
  have h : isIdChar c = (decide ('A' ≤ c ∧ c ≤ 'Z') || decide ('a' ≤ c) && decide (c ≤ 'z') ||
      decide ('0' ≤ c) && decide (c ≤ '9') || decide (c = '_')) := rfl
  rw [h]
  simp only [Bool.or_eq_true, Bool.and_eq_true, decide_eq_true_eq, or_assoc, IsWordChar]

theorem idFault?_eq_empty_iff {id : String} : idFault? id = some .empty ↔ id = "" := by
  unfold idFault?
  split
  next h => simp [h]
  next h => split <;> simp [h]

theorem idFault?_eq_forbidden_iff {id bad : String} :
    idFault? id = some (.forbidden bad) ↔ bad = id ∧ ∃ c ∈ id.toList, ¬ IsWordChar c := by
  unfold idFault?
  split
  next h => simp [h]
  next h =>
    split
    next ha =>
      have hw : ∀ c ∈ id.toList, IsWordChar c := by simpa [isIdChar_iff] using ha
      simpa using fun _ => hw
    next ha =>
      have hw : ∃ c ∈ id.toList, ¬ IsWordChar c := by simpa [← isIdChar_iff] using ha
      simp [hw, eq_comm]

namespace Stage

/-- The rules that a stage can break. -/
inductive Breaks (stage : Stage) : Prop
  | emptyId : stage.id = "" → Breaks stage
  | forbiddenChar {c : Char} : c ∈ stage.id.toList → ¬ IsWordChar c → Breaks stage
  | emptyLabel : stage.label = "" → Breaks stage

end Stage

/-- A report with the rules that a stage breaks, and no others. -/
structure StageReport.Describes (report : StageReport) (stage : Stage) : Prop where
  empty_iff : report.id = some .empty ↔ stage.id = ""
  forbidden_iff : ∀ id, report.id = some (.forbidden id) ↔
    id = stage.id ∧ ∃ c ∈ stage.id.toList, ¬ IsWordChar c
  label_iff : report.emptyLabel = true ↔ stage.label = ""

namespace Stage

variable {stage : Stage} {report : StageReport}

theorem describes_iff : report.Describes stage ↔ stage.report = report := by
  constructor
  · rintro ⟨he, hf, hl⟩
    have hid : idFault? stage.id = report.id := by
      ext fault
      cases fault with
      | empty => rw [idFault?_eq_empty_iff, he]
      | forbidden id => rw [idFault?_eq_forbidden_iff, hf]
    obtain ⟨fault, label⟩ := report
    have hlabel : decide (stage.label = "") = label := by
      rw [Bool.eq_iff_iff, decide_eq_true_eq, hl]
    rw [Stage.report, hid, hlabel]
  · rintro rfl
    exact ⟨idFault?_eq_empty_iff, fun _ => idFault?_eq_forbidden_iff, decide_eq_true_iff⟩

theorem breaks_iff : stage.Breaks ↔ stage.report? ≠ none := by
  have hid : stage.id.toList.all isIdChar = true ↔ ∀ c ∈ stage.id.toList, IsWordChar c := by
    simp [isIdChar_iff]
  rw [Ne, report?_eq_none_iff, hid]
  constructor
  · rintro (h | ⟨hc, hw⟩ | h) ⟨⟨hne, hall⟩, hl⟩
    · exact hne h
    · exact hw (hall _ hc)
    · exact hl h
  · intro h
    by_cases hne : stage.id = ""
    · exact .emptyId hne
    by_cases hl : stage.label = ""
    · exact .emptyLabel hl
    obtain ⟨c, hc, hw⟩ : ∃ c ∈ stage.id.toList, ¬ IsWordChar c := by
      simpa [hne, hl] using h
    exact .forbiddenChar hc hw

/-- A stage is reported if it breaks a rule, with all the rules that it breaks. -/
theorem report?_eq_some_iff :
    stage.report? = some report ↔ stage.Breaks ∧ report.Describes stage := by
  rw [breaks_iff, describes_iff, report?]
  split <;> simp

end Stage

/-- What is told of a stage whose id has a forbidden character. -/
def Stage.idLine (stage : Stage) (index : Nat) : String :=
  "stages[" ++ toString index ++ "].id: Invalid stage id: " ++ stage.id

/-- Without length faults, all that can be wrong with a stage is a character of its id. -/
theorem StageReport.Describes.exists_forbidden {stage : Stage} {report : StageReport}
    (h : report.Describes stage) (hb : stage.Breaks)
    (he : report.id ≠ some .empty ∧ report.emptyLabel = false) :
    (∃ c ∈ stage.id.toList, ¬ IsWordChar c) ∧ report = ⟨some (.forbidden stage.id), false⟩ := by
  have hw : ∃ c ∈ stage.id.toList, ¬ IsWordChar c := by
    cases hb with
    | emptyId hid => exact absurd (h.empty_iff.mpr hid) he.1
    | forbiddenChar hc hw => exact ⟨_, hc, hw⟩
    | emptyLabel hl => simp [h.label_iff.mpr hl] at he
  obtain ⟨id, label⟩ := report
  have hid : id = some (.forbidden stage.id) := (h.forbidden_iff _).mpr ⟨rfl, hw⟩
  have hlabel : label = false := he.2
  exact ⟨hw, by rw [hid, hlabel]⟩

theorem message_forbidden (wording : Wording) (stage : Stage) (index : Nat) :
    StageReport.message wording index ⟨some (.forbidden stage.id), false⟩ =
      stage.idLine index := by
  have hp : "].id: Invalid stage id: " = "]." ++ ("id: " ++ "Invalid stage id: ") := rfl
  have hl : StageReport.lines wording index ⟨some (.forbidden stage.id), false⟩ =
      [stage.idLine index] := by
    unfold StageReport.lines Stage.idLine IdFault.message
    rw [hp]
    simp only [Bool.false_eq_true, if_false, List.append_nil, String.append_assoc]
  rw [StageReport.message, hl, Arrangement.join_list_singleton]

section Faulty

variable {start : Nat} {stages : List Stage}

theorem faultyFrom_eq (start : Nat) (stages : List Stage) :
    faultyFrom start stages =
      (stages.zipIdx start).filterMap fun (stage, i) => stage.report?.map (i, ·) := by
  induction stages generalizing start with
  | nil => rfl
  | cons stage stages ih =>
    rw [faultyFrom, List.zipIdx_cons, List.filterMap_cons, ih]
    cases h : stage.report? with
    | none => simp only [h, Option.map_none]
    | some report => simp only [h, Option.map_some]

theorem mem_faultyFrom_iff {i : Nat} {report : StageReport} :
    (i, report) ∈ faultyFrom 0 stages ↔
      ∃ stage, stages[i]? = some stage ∧ stage.Breaks ∧ report.Describes stage := by
  simp only [faultyFrom_eq, List.mem_filterMap, Prod.exists, List.mem_zipIdx_iff_getElem?,
    Option.map_eq_some_iff, Stage.report?_eq_some_iff, Prod.mk.injEq]
  constructor
  · rintro ⟨stage, _, hs, _, hr, rfl, rfl⟩
    exact ⟨stage, hs, hr⟩
  · rintro ⟨stage, hs, hr⟩
    exact ⟨stage, i, hs, report, hr, rfl, rfl⟩

theorem pairwise_faultyFrom (start : Nat) (stages : List Stage) :
    ((faultyFrom start stages).map Prod.fst).Pairwise (· < ·) := by
  have hz : (stages.zipIdx start).Pairwise fun a b => a.2 < b.2 := by
    rw [← List.pairwise_map, List.zipIdx_map_snd]
    exact List.pairwise_lt_range'
  rw [faultyFrom_eq, List.pairwise_map, List.pairwise_filterMap]
  refine hz.imp fun hlt b hb b' hb' => ?_
  obtain ⟨_, -, rfl⟩ := Option.map_eq_some_iff.mp hb
  obtain ⟨_, -, rfl⟩ := Option.map_eq_some_iff.mp hb'
  exact hlt

/-- The lines about the ids with forbidden characters, in the order of the stages. -/
theorem map_message_faultyFrom (wording : Wording)
    (h : ∀ i report, (i, report) ∈ faultyFrom start stages →
      report.id ≠ some .empty ∧ report.emptyLabel = false) :
    (faultyFrom start stages).map (fun entry => entry.2.message wording entry.1) =
      ((stages.zipIdx start).filter fun entry =>
        entry.1.id.toList.any (¬ IsWordChar ·)).map fun entry => entry.1.idLine entry.2 := by
  induction stages generalizing start with
  | nil => rfl
  | cons stage stages ih =>
    rw [faultyFrom] at h ⊢
    rw [List.zipIdx_cons]
    cases hr : stage.report? with
    | none =>
      simp only [hr] at h
      have hw : ¬ ∃ c ∈ stage.id.toList, ¬ IsWordChar c := by
        rintro ⟨c, hc, hw⟩
        exact Stage.breaks_iff.mp (.forbiddenChar hc hw) hr
      rw [List.filter_cons_of_neg (by simpa using hw)]
      exact ih h
    | some report =>
      simp only [hr, List.mem_cons] at h
      obtain ⟨hb, hd⟩ := Stage.report?_eq_some_iff.mp hr
      obtain ⟨hw, rfl⟩ := hd.exists_forbidden hb (h start report (Or.inl rfl))
      rw [List.filter_cons_of_pos (by simpa using hw), List.map_cons]
      simp only [List.map_cons, message_forbidden, ih fun i report hm => h i report (Or.inr hm)]

end Faulty

namespace Catalog

/-- The ways to tell of the report on a catalog are all taken, each under some wording. -/
theorem worded_iff {catalog : Catalog} {report : Report} {text : String}
    (h : catalog.report? = some report) :
    report.Worded text ↔ ∃ wording, report.message wording = text := by
  cases report with
  | repeatedId id =>
    constructor
    · rintro ⟨⟩
      exact ⟨.plain, rfl⟩
    · rintro ⟨wording, rfl⟩
      exact .repeatedId id
  | stages faulty =>
    have hf : faultyFrom 0 catalog.stages = faulty := by
      unfold report? at h
      split at h
      · cases h
      split at h
      · cases h
      · cases h
        rfl
    have hn : (faulty.map Prod.fst).Nodup := by
      rw [← hf]
      exact (pairwise_faultyFrom 0 catalog.stages).imp Nat.ne_of_lt
    exact Report.worded_stages_iff hn

/-- What is reported of a catalog. If an id repeats an earlier one, only the first such id is
reported. Otherwise the faulty stages are listed in increasing order, each with the rules that it
breaks. The message is made of their messages if nothing is empty, and then it is the same under
every wording. -/
theorem reported_faults (catalog : Catalog) (wording : Wording) :
    (catalog.report? = none ↔
      (∀ stage ∈ catalog.stages,
        stage.id ≠ "" ∧ (∀ c ∈ stage.id.toList, IsWordChar c) ∧ stage.label ≠ "") ∧
      (catalog.stages.map Stage.id).Nodup) ∧
    (¬ (catalog.stages.map Stage.id).Nodup →
      ∃ before stage after, catalog.stages = before ++ stage :: after ∧
        (before.map Stage.id).Nodup ∧ stage.id ∈ before.map Stage.id ∧
        catalog.report? = some (.repeatedId stage.id) ∧
        (Report.repeatedId stage.id).message wording = "stages: Repeated stage id: " ++ stage.id) ∧
    ((catalog.stages.map Stage.id).Nodup →
      ∃ faulty : List (Nat × StageReport),
        catalog.report? = (if faulty = [] then none else some (.stages faulty)) ∧
        (faulty.map Prod.fst).Pairwise (· < ·) ∧
        (∀ i report, (i, report) ∈ faulty ↔
          ∃ stage, catalog.stages[i]? = some stage ∧ stage.Breaks ∧ report.Describes stage) ∧
        ((∀ i report, (i, report) ∈ faulty →
            report.id ≠ some .empty ∧ report.emptyLabel = false) →
          (Report.stages faulty).message wording =
            String.join ((catalog.stages.zipIdx.filter fun entry =>
              entry.1.id.toList.any (¬ IsWordChar ·)).map fun entry =>
                entry.1.idLine entry.2))) := by
  refine ⟨?_, fun hn => ?_, fun hn => ?_⟩
  · rw [report?_eq_none_iff, and_comm]
    simp [Stage.report?_eq_none_iff, isIdChar_iff, and_assoc]
  · obtain ⟨id, hr⟩ := Option.ne_none_iff_exists'.mp fun hr => hn (nodup_of_repeated? hr)
    obtain ⟨ids, rest, hids, hd, hm⟩ := repeated?_eq_some_iff.mp hr
    obtain ⟨before, tail, hs, rfl, ht⟩ := List.map_eq_append_iff.mp hids
    obtain ⟨stage, after, rfl, rfl, rfl⟩ := List.map_eq_cons_iff.mp ht
    exact ⟨before, stage, after, hs, hd, hm, by rw [report?, hr], rfl⟩
  · refine ⟨faultyFrom 0 catalog.stages, ?_, pairwise_faultyFrom 0 _, fun _ _ => mem_faultyFrom_iff,
      fun h => congrArg String.join (map_message_faultyFrom wording h)⟩
    rw [report?, repeated?_of_nodup hn]
    cases faultyFrom 0 catalog.stages with
    | nil => rfl
    | cons => simp only [List.cons_ne_nil, if_false]

/-- Index ten comes after index two. A repeated id hides an empty label and bad characters, and the
id that is named is the one whose second occurrence comes first. -/
theorem reported_faults_past_nine :
    let many : Catalog := ⟨[⟨"a", "A"⟩, ⟨"b", "A"⟩, ⟨"c-", "A"⟩, ⟨"d", "A"⟩, ⟨"e", "A"⟩, ⟨"f", "A"⟩,
      ⟨"g", "A"⟩, ⟨"h", "A"⟩, ⟨"i", "A"⟩, ⟨"j", "A"⟩, ⟨"é", "A"⟩]⟩
    let repeating : Catalog := ⟨[⟨"a", ""⟩, ⟨"b b", "B"⟩, ⟨"b b", "B"⟩, ⟨"a", "A"⟩]⟩
    (∃ faulty : List (Nat × StageReport), many.report? = some (.stages faulty) ∧
      (∃ report, (10, report) ∈ faulty) ∧
      (Report.stages faulty).message .plain =
        "stages[2].id: Invalid stage id: c-stages[10].id: Invalid stage id: é") ∧
    ∃ before stage after, repeating.stages = before ++ stage :: after ∧
      (before.map Stage.id).Nodup ∧ stage.id ∈ before.map Stage.id ∧
      stage.id = "b b" ∧ repeating.report? = some (.repeatedId "b b") := by
  intro many repeating
  constructor
  · obtain ⟨faulty, hr, -, hmem, hmessage⟩ := (reported_faults many .plain).2.2 (by decide)
    have hstage : many.stages[10]? = some ⟨"é", "A"⟩ := rfl
    have hbad : (Stage.mk "é" "A").Breaks := .forbiddenChar List.mem_cons_self (by decide)
    have hten := (hmem 10 _).mpr ⟨_, hstage, hbad, Stage.describes_iff.mpr rfl⟩
    have hne : faulty ≠ [] := List.ne_nil_of_mem hten
    refine ⟨faulty, by rw [hr, if_neg hne], ⟨_, hten⟩, (hmessage fun i report hi => ?_).trans rfl⟩
    obtain ⟨stage, hs, -, hd⟩ := (hmem i report).mp hi
    have hfilled : ∀ stage ∈ many.stages, stage.id ≠ "" ∧ stage.label ≠ "" := by decide
    obtain ⟨hid, hlabel⟩ := hfilled stage (List.mem_of_getElem? hs)
    exact ⟨fun h => hid (hd.empty_iff.mp h),
      Bool.eq_false_iff.mpr fun h => hlabel (hd.label_iff.mp h)⟩
  · obtain ⟨before, stage, after, hs, hn, hm, hr, -⟩ :=
      (reported_faults repeating .plain).2.1 (by decide)
    have hid : repeating.report? = some (.repeatedId "b b") := by decide
    have heq := Report.repeatedId.inj (Option.some.inj (hr.symm.trans hid))
    exact ⟨before, stage, after, hs, hn, hm, heq, hid⟩

end Catalog

end StageMonitor

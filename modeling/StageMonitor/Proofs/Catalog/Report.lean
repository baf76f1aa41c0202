import StageMonitor.Catalog.Report

/-! # Catalogs without faults

Nothing is reported of a catalog exactly if its ids are different, every stage has an id and a
label, and the ids hold only letters, digits and underscores.
-/

namespace StageMonitor

theorem idFault?_eq_none_iff {id : String} :
    idFault? id = none ↔ id ≠ "" ∧ id.toList.all isIdChar = true := by
  unfold idFault?
  split
  next h => simp [h]
  next h => split <;> simp_all

theorem Stage.report?_eq_none_iff {stage : Stage} :
    stage.report? = none ↔
      (stage.id ≠ "" ∧ stage.id.toList.all isIdChar = true) ∧ stage.label ≠ "" := by
  rw [← idFault?_eq_none_iff]
  simp [report?, report]

theorem faultyFrom_eq_nil_iff {index : Nat} {stages : List Stage} :
    faultyFrom index stages = [] ↔ ∀ stage ∈ stages, stage.report? = none := by
  induction stages generalizing index with
  | nil => simp [faultyFrom]
  | cons stage stages ih =>
    rw [faultyFrom, List.forall_mem_cons]
    cases h : stage.report? with
    | none => simpa using ih
    | some report => simp

theorem Catalog.report?_eq_none_iff {catalog : Catalog} :
    catalog.report? = none ↔
      (catalog.stages.map Stage.id).Nodup ∧ ∀ stage ∈ catalog.stages, stage.report? = none := by
  unfold report?
  cases hr : repeated? [] (catalog.stages.map Stage.id) with
  | some id =>
    have hn : ¬ (catalog.stages.map Stage.id).Nodup := fun hn => by
      rw [repeated?_of_nodup hn] at hr
      cases hr
    simp [hn]
  | none =>
    rw [← @faultyFrom_eq_nil_iff 0]
    cases faultyFrom 0 catalog.stages with
    | nil => simpa using nodup_of_repeated? hr
    | cons => simp

end StageMonitor

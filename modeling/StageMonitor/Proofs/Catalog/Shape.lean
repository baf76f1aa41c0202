import Mathlib.Data.List.Forall2
import Mathlib.Tactic.Push
import StageMonitor.Catalog.Basic
import StageMonitor.Proofs.Json.Tree

/-! # The trees of a catalog

A catalog and each of its stages may be written as a list of its fields, or as an object that holds
each field once, in any place among members with other keys. A tree that is neither has a fault that
can be named.
-/

namespace StageMonitor

namespace Json.Tree

/-- The values under a key of an object. -/
def under (key : String) (members : List (Option String × Tree)) : List Tree :=
  (members.filter fun m => decide (m.1 = some key)).map Prod.snd

theorem under_cons (key : String) (m : Option String × Tree)
    (members : List (Option String × Tree)) :
    under key (m :: members) =
      if m.1 = some key then m.2 :: under key members else under key members := by
  by_cases h : m.1 = some key <;> simp [under, h]

def IsText (t : Tree) : Prop :=
  ∃ x, t = .string (some x)

def IsList (t : Tree) : Prop :=
  ∃ ts, t = .array ts

/-- The values of the fields of a record. Every key of an object is a string. -/
inductive HasFields (names : List String) : Tree → List Tree → Prop where
  | list {ts : List Tree} : ts.length = names.length → HasFields names (.array ts) ts
  | object {members : List (Option String × Tree)} {ts : List Tree} :
      (∀ m ∈ members, m.1 ≠ none) →
      (names.map fun name => under name members) = ts.map (fun t => [t]) →
      HasFields names (.object members) ts

/-- The faults of a tree that is to be a record. -/
inductive LacksFields (names : List String) : Tree → Prop where
  | neither {t : Tree} : ¬ t.IsList → (∀ members, t ≠ .object members) → LacksFields names t
  | wrongLength {ts : List Tree} : ts.length ≠ names.length → LacksFields names (.array ts)
  | unpaired {members : List (Option String × Tree)} {t : Tree} :
      (none, t) ∈ members → LacksFields names (.object members)
  | missing {members : List (Option String × Tree)} {name : String} :
      name ∈ names → under name members = [] → LacksFields names (.object members)
  | repeated {members : List (Option String × Tree)} {name : String} :
      name ∈ names → 1 < (under name members).length → LacksFields names (.object members)

variable {names : List String} {t : Tree} {ts us : List Tree}

theorem hasFields_array_iff :
    HasFields names (.array us) ts ↔ us = ts ∧ us.length = names.length := by
  constructor
  · intro h; cases h with | list h => exact ⟨rfl, h⟩
  · rintro ⟨rfl, h⟩; exact .list h

theorem hasFields_object_iff {members : List (Option String × Tree)} :
    HasFields names (.object members) ts ↔ (∀ m ∈ members, m.1 ≠ none) ∧
      (names.map fun name => under name members) = ts.map (fun t => [t]) := by
  constructor
  · intro h; cases h with | object hk h => exact ⟨hk, h⟩
  · rintro ⟨hk, h⟩; exact .object hk h

theorem HasFields.length_eq (h : HasFields names t ts) : ts.length = names.length := by
  cases h with
  | list h => exact h
  | object _ h => simpa using congrArg List.length h.symm

theorem HasFields.unique (h : HasFields names t ts) (h' : HasFields names t us) : ts = us := by
  cases h with
  | list => cases h'; rfl
  | object _ h =>
    cases h' with
    | object _ h' =>
      exact List.map_injective_iff.mpr List.singleton_injective (h.symm.trans h')

theorem LacksFields.not_hasFields (h : LacksFields names t) (ts : List Tree) :
    ¬ HasFields names t ts := by
  intro hf
  cases hf with
  | list hl =>
    cases h with
    | neither hn => exact hn ⟨_, rfl⟩
    | wrongLength hn => exact hn hl
  | @object members _ hk hf =>
    have hu : ∀ name ∈ names, ∃ t, under name members = [t] := by
      intro name hm
      have hm := hf ▸ List.mem_map_of_mem hm
      obtain ⟨t, -, ht⟩ := List.mem_map.mp hm
      exact ⟨t, ht.symm⟩
    cases h with
    | neither _ hn => exact hn _ rfl
    | unpaired hm => exact hk _ hm rfl
    | missing hm hn =>
      obtain ⟨t, ht⟩ := hu _ hm
      simp [ht] at hn
    | repeated hm hn =>
      obtain ⟨t, ht⟩ := hu _ hm
      simp [ht] at hn

theorem hasFields_or_lacksFields (names : List String) (t : Tree) :
    (∃ ts, HasFields names t ts) ∨ LacksFields names t := by
  cases t with
  | array ts =>
    by_cases hl : ts.length = names.length
    · exact Or.inl ⟨ts, .list hl⟩
    · exact Or.inr (.wrongLength hl)
  | object members =>
    by_cases hk : ∀ m ∈ members, m.1 ≠ none
    · by_cases hf : ∀ name ∈ names, ∃ t, under name members = [t]
      · choose! value hv using hf
        refine Or.inl ⟨names.map value, .object hk ?_⟩
        simpa using hv
      · push Not at hf
        obtain ⟨name, hm, hn⟩ := hf
        match hu : under name members with
        | [] => exact Or.inr (.missing hm hu)
        | [t] => exact absurd hu (hn t)
        | _ :: _ :: _ => exact Or.inr (.repeated hm (by simp [hu]))
    · push Not at hk
      obtain ⟨⟨_, t⟩, hm, rfl⟩ := hk
      exact Or.inr (.unpaired hm)
  | _ => exact Or.inr (.neither (fun ⟨_, h⟩ => nomatch h) fun _ h => nomatch h)

end Json.Tree

open Json

/-- The trees of a stage. -/
def Stage.Shape (stage : Stage) (t : Tree) : Prop :=
  t.HasFields ["id", "label"] [.string (some stage.id), .string (some stage.label)]

/-- The faults of a tree that is to be a stage. -/
inductive Stage.Misshapen : Tree → Prop where
  | fields {t : Tree} : t.LacksFields ["id", "label"] → Misshapen t
  | wrongType {t u : Tree} {ts : List Tree} :
      t.HasFields ["id", "label"] ts → u ∈ ts → ¬ u.IsText → Misshapen t

/-- The trees of a catalog. -/
def Catalog.Shape (catalog : Catalog) (t : Tree) : Prop :=
  ∃ ts, t.HasFields ["stages"] [.array ts] ∧ List.Forall₂ Stage.Shape catalog.stages ts

/-- The faults of a tree that is to be a catalog. -/
inductive Catalog.Misshapen : Tree → Prop where
  | fields {t : Tree} : t.LacksFields ["stages"] → Misshapen t
  | wrongType {t u : Tree} : t.HasFields ["stages"] [u] → ¬ u.IsList → Misshapen t
  | stage {t u : Tree} {ts : List Tree} :
      t.HasFields ["stages"] [.array ts] → u ∈ ts → Stage.Misshapen u → Misshapen t

theorem Stage.misshapen_iff {t : Tree} : Misshapen t ↔ ¬ ∃ stage : Stage, stage.Shape t := by
  constructor
  · rintro h ⟨stage, hs⟩
    cases h with
    | fields h => exact h.not_hasFields _ hs
    | wrongType hf hu hn =>
      rw [hf.unique hs] at hu
      simp only [List.mem_cons, List.not_mem_nil, or_false] at hu
      obtain rfl | rfl := hu <;> exact hn ⟨_, rfl⟩
  · intro h
    obtain ⟨ts, hf⟩ | hl := t.hasFields_or_lacksFields ["id", "label"]
    · obtain ⟨id, label, rfl⟩ := List.length_eq_two.mp hf.length_eq
      by_cases hid : id.IsText
      · by_cases hlabel : label.IsText
        · obtain ⟨⟨id, rfl⟩, label, rfl⟩ := And.intro hid hlabel
          exact absurd ⟨⟨id, label⟩, hf⟩ h
        · exact .wrongType hf (by simp) hlabel
      · exact .wrongType hf (by simp) hid
    · exact .fields hl

theorem Stage.exists_forall₂_shape_iff {ts : List Tree} :
    (∃ stages, List.Forall₂ Stage.Shape stages ts) ↔ ∀ t ∈ ts, ∃ stage : Stage, stage.Shape t := by
  induction ts with
  | nil => simp
  | cons t ts ih =>
    rw [List.forall_mem_cons, ← ih]
    constructor
    · rintro ⟨_, hs⟩
      cases hs with | cons h hs => exact ⟨⟨_, h⟩, _, hs⟩
    · rintro ⟨⟨stage, h⟩, stages, hs⟩
      exact ⟨stage :: stages, .cons h hs⟩

/-- A tree is that of a catalog if none of the faults is found. -/
theorem Catalog.misshapen_iff {t : Tree} :
    Misshapen t ↔ ¬ ∃ catalog : Catalog, catalog.Shape t := by
  constructor
  · rintro h ⟨catalog, ts, hs, hf⟩
    cases h with
    | fields h => exact h.not_hasFields _ hs
    | wrongType hu hn =>
      cases hu.unique hs
      exact hn ⟨_, rfl⟩
    | stage hu hm hn =>
      cases hu.unique hs
      exact Stage.misshapen_iff.mp hn (Stage.exists_forall₂_shape_iff.mp ⟨_, hf⟩ _ hm)
  · intro h
    obtain ⟨ts, hf⟩ | hl := t.hasFields_or_lacksFields ["stages"]
    · obtain ⟨u, rfl⟩ := List.length_eq_one_iff.mp hf.length_eq
      by_cases hu : u.IsList
      · obtain ⟨ts, rfl⟩ := hu
        by_cases hs : ∃ u ∈ ts, Stage.Misshapen u
        · obtain ⟨u, hu, hn⟩ := hs
          exact .stage hf hu hn
        · have hs : ∀ u ∈ ts, ∃ stage : Stage, stage.Shape u := fun u hu =>
            not_not.mp fun hn => hs ⟨u, hu, Stage.misshapen_iff.mpr hn⟩
          obtain ⟨stages, hs⟩ := Stage.exists_forall₂_shape_iff.mpr hs
          exact absurd ⟨⟨stages⟩, ts, hf, hs⟩ h
      · exact .wrongType hf hu
    · exact .fields hl

section Fits

open Json.Tree

theorem Json.forall₂_of_fits_array {vs : List Value} {t : Tree} (h : Fits (.array vs) t) :
    ∃ ts, t = .array ts ∧ List.Forall₂ Fits vs ts := by
  cases h with
  | array h => exact ⟨_, rfl, by simpa [List.forall₂_map_left_iff, List.forall₂_same] using h⟩

/-- A key that an object has once is once in each of its trees. -/
theorem Json.exists_under_of_fits_object {ms : List Member} {t : Tree} (h : Fits (.object ms) t) :
    ∃ members, t = .object members ∧ (∀ m ∈ members, m.1 ≠ none) ∧
      ∀ key v, ms.filter (fun m => decide (m.1 = key)) = [(key, v)] →
        ∃ u, under key members = [u] ∧ Fits v u := by
  cases h with
  | @object _ members hf hg =>
    refine ⟨_, rfl, List.forall_mem_map.mpr fun _ _ => Option.some_ne_none _, fun key v hm => ?_⟩
    rw [hg key, List.filter_map] at hm
    obtain ⟨⟨_, u⟩, hu, rfl⟩ := List.map_eq_singleton_iff.mp hm
    have hmem : ((key, v), u) ∈ members := List.mem_of_mem_filter (hu ▸ List.mem_singleton_self _)
    simp only [Function.comp_def] at hu
    exact ⟨u, by simp [under, List.filter_map, Function.comp_def, hu], hf _ hmem⟩

theorem Stage.shape_of_fits {stage : Stage} {t : Tree} (h : Fits stage.toJson t) :
    stage.Shape t := by
  obtain ⟨members, rfl, hk, hu⟩ := exists_under_of_fits_object h
  obtain ⟨_, hid, hf⟩ := hu "id" _ rfl
  cases hf
  obtain ⟨_, hlabel, hf⟩ := hu "label" _ rfl
  cases hf
  exact .object hk (by simp [hid, hlabel])

/-- Every spelling of the document of a catalog is one of the catalog. -/
theorem Catalog.shape_of_fits {catalog : Catalog} {t : Tree} (h : Fits catalog.toJson t) :
    catalog.Shape t := by
  obtain ⟨members, rfl, hk, hu⟩ := exists_under_of_fits_object h
  obtain ⟨_, hs, hf⟩ := hu "stages" _ rfl
  obtain ⟨ts, rfl, hts⟩ := forall₂_of_fits_array hf
  rw [List.forall₂_map_left_iff] at hts
  exact ⟨ts, .object hk (by simp [hs]), hts.imp fun _ _ => Stage.shape_of_fits⟩

end Fits

end StageMonitor

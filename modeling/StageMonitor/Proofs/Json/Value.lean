import Mathlib.Data.List.Induction
import Mathlib.Data.String.Basic
import StageMonitor.Association
import StageMonitor.Json.Value

/-! # Values in canonical form

Canonical form depends on the members of an object only through the members under each single key,
in their order. It is the identity on the values whose objects are ordered already.
-/

namespace StageMonitor.Json

namespace Value

/-- Items and member values are again values for which the claim may be assumed. -/
@[elab_as_elim, induction_eliminator]
theorem induction {p : Value → Prop} (scalar : ∀ a, p (scalar a))
    (array : ∀ vs, (∀ v ∈ vs, p v) → p (array vs))
    (object : ∀ ms : List Member, (∀ m ∈ ms, p m.2) → p (object ms)) (v : Value) : p v :=
  match v with
  | .scalar a => scalar a
  | .array vs => array vs fun v _ => induction scalar array object v
  | .object ms => object ms fun m _ => induction scalar array object m.2
termination_by sizeOf v
decreasing_by
  · have := List.sizeOf_lt_of_mem ‹v ∈ vs›
    simp only [Value.array.sizeOf_spec]; omega
  · have := List.sizeOf_lt_of_mem ‹m ∈ ms›
    cases m
    simp only [Value.object.sizeOf_spec, Prod.mk.sizeOf_spec] at *; omega

@[simp] theorem canonicalItems_eq (vs : List Value) : canonicalItems vs = vs.map canonical := by
  induction vs with
  | nil => rfl
  | cons v vs ih => simp [canonicalItems, ih]

@[simp] theorem canonicalMembers_eq (ms : List Member) :
    canonicalMembers ms = ms.map fun m => (m.1, m.2.canonical) := by
  induction ms with
  | nil => rfl
  | cons m ms ih => simp [canonicalMembers, ih]

/-- What holds of the keys of every object and of every scalar inside a value. -/
inductive Every (keys : List String → Prop) (scalars : Scalar → Prop) : Value → Prop where
  | scalar {a : Scalar} : scalars a → Every keys scalars (.scalar a)
  | array {vs : List Value} : (∀ v ∈ vs, Every keys scalars v) → Every keys scalars (.array vs)
  | object {ms : List Member} : keys (ms.map Prod.fst) → (∀ m ∈ ms, Every keys scalars m.2) →
      Every keys scalars (.object ms)

section Every

variable {keys keys' : List String → Prop} {scalars scalars' : Scalar → Prop}

@[simp] theorem every_scalar_iff {a : Scalar} :
    Every keys scalars (.scalar a) ↔ scalars a :=
  ⟨fun | .scalar h => h, .scalar⟩

@[simp] theorem every_array_iff {vs : List Value} :
    Every keys scalars (.array vs) ↔ ∀ v ∈ vs, Every keys scalars v :=
  ⟨fun | .array h => h, .array⟩

@[simp] theorem every_object_iff {ms : List Member} :
    Every keys scalars (.object ms) ↔
      keys (ms.map Prod.fst) ∧ ∀ m ∈ ms, Every keys scalars m.2 :=
  ⟨fun | .object hk h => ⟨hk, h⟩, fun h => .object h.1 h.2⟩

theorem Every.mono {v : Value} (h : Every keys scalars v) (hk : ∀ ks, keys ks → keys' ks)
    (hs : ∀ a, scalars a → scalars' a) : Every keys' scalars' v := by
  induction h with
  | scalar h => exact .scalar (hs _ h)
  | array _ ih => exact .array ih
  | object h _ ih => exact .object (hk _ h) ih

end Every

def Increasing (keys : List String) : Prop :=
  keys.Pairwise (· < ·)

instance : DecidablePred Increasing :=
  fun keys => inferInstanceAs (Decidable (keys.Pairwise (· < ·)))

/-- Every object has its keys in increasing order. -/
def Ordered : Value → Prop :=
  Every Increasing fun _ => True

end Value

section Members

open Association

/-- Lists of members that agree key by key. The order between different keys may differ. -/
def Regrouped (ms ns : List Member) : Prop :=
  ∀ key, ms.filter (fun m => decide (m.1 = key)) = ns.filter (fun m => decide (m.1 = key))

theorem Regrouped.refl (ms : List Member) : Regrouped ms ms :=
  fun _ => rfl

theorem Regrouped.symm {ms ns : List Member} (h : Regrouped ms ns) : Regrouped ns ms :=
  fun key => (h key).symm

theorem Regrouped.mem_iff {ms ns : List Member} (h : Regrouped ms ns) (m : Member) :
    m ∈ ms ↔ m ∈ ns := by
  have hm (ls : List Member) : m ∈ ls ↔ m ∈ ls.filter (fun m' => decide (m'.1 = m.1)) := by simp
  rw [hm ms, hm ns, h m.1]

theorem Regrouped.map {ms ns : List Member} (h : Regrouped ms ns) (f : Value → Value) :
    Regrouped (ms.map fun m => (m.1, f m.2)) (ns.map fun m => (m.1, f m.2)) := by
  intro key
  simp only [List.filter_map, Function.comp_def, h key]

theorem get?_insertMember (key k : String) (v : Value) (ms : List Member) :
    get? k (insertMember key v ms) = if key = k then some v else get? k ms := by
  induction ms with
  | nil => simp [insertMember, get?]
  | cons m ms ih =>
    unfold insertMember
    split
    next heq => by_cases hk : key = k <;> simp_all [get?]
    next hne =>
      split
      · simp [get?]
      · simp only [get?, ih]
        by_cases hk : key = k
        · subst hk; simp [Ne.symm hne]
        · simp [hk]

theorem mem_of_mem_insertMember {key : String} {v : Value} {ms : List Member} {m : Member}
    (h : m ∈ insertMember key v ms) : m = (key, v) ∨ m ∈ ms := by
  induction ms with
  | nil => simpa [insertMember] using h
  | cons n ms ih =>
    unfold insertMember at h
    split at h
    · rcases List.mem_cons.mp h with rfl | h
      · exact Or.inl rfl
      · exact Or.inr (List.mem_cons_of_mem _ h)
    split at h
    · exact List.mem_cons.mp h
    · rcases List.mem_cons.mp h with rfl | h
      · exact Or.inr List.mem_cons_self
      · exact (ih h).imp_right (List.mem_cons_of_mem _)

theorem mem_keys_insertMember {key k : String} {v : Value} {ms : List Member}
    (h : k ∈ (insertMember key v ms).map Prod.fst) : k = key ∨ k ∈ ms.map Prod.fst := by
  obtain ⟨m, hm, rfl⟩ := List.mem_map.mp h
  rcases mem_of_mem_insertMember hm with rfl | hm
  · exact Or.inl rfl
  · exact Or.inr (List.mem_map_of_mem hm)

theorem increasing_insertMember {key : String} {v : Value} {ms : List Member}
    (h : Value.Increasing (ms.map Prod.fst)) :
    Value.Increasing ((insertMember key v ms).map Prod.fst) := by
  induction ms with
  | nil => simp [insertMember, Value.Increasing]
  | cons m ms ih =>
    obtain ⟨hm, hms⟩ := List.pairwise_cons.mp h
    unfold insertMember
    split
    next heq => exact List.pairwise_cons.mpr ⟨by rw [heq]; exact hm, hms⟩
    next hne =>
      split
      next hlt =>
        refine List.pairwise_cons.mpr ⟨fun k hk => ?_, h⟩
        rcases List.mem_cons.mp hk with rfl | hk
        · exact hlt
        · exact lt_trans hlt (hm k hk)
      next hle =>
        refine List.pairwise_cons.mpr ⟨fun k hk => ?_, ih hms⟩
        rcases mem_keys_insertMember hk with rfl | hk
        · exact lt_of_le_of_ne (not_lt.mp hle) (Ne.symm hne)
        · exact hm k hk

theorem get?_of_lt {k : String} {ms : List Member} (h : ∀ key ∈ ms.map Prod.fst, k < key) :
    get? k ms = none := by
  induction ms with
  | nil => rfl
  | cons m ms ih =>
    obtain ⟨hm, hms⟩ := List.forall_mem_cons.mp h
    simp [get?, ne_of_gt hm, ih hms]

/-- The key of a first member cannot come before all keys of a list that has it too. -/
theorem le_of_get?_eq {m n : Member} {ms ns : List Member} (hn : ∀ k ∈ ns.map Prod.fst, n.1 < k)
    (h : get? m.1 (m :: ms) = get? m.1 (n :: ns)) : n.1 ≤ m.1 := by
  rcases le_or_gt n.1 m.1 with hle | hlt
  · exact hle
  · have hall : ∀ k ∈ (n :: ns).map Prod.fst, m.1 < k :=
      List.forall_mem_cons.mpr ⟨hlt, fun k hk => hlt.trans (hn k hk)⟩
    rw [get?_of_lt hall] at h
    simp [get?] at h

/-- Ordered members are determined by the value under each key. -/
theorem eq_of_get?_eq {ms ns : List Member} (hms : Value.Increasing (ms.map Prod.fst))
    (hns : Value.Increasing (ns.map Prod.fst)) (h : ∀ k, get? k ms = get? k ns) : ms = ns := by
  induction ms generalizing ns with
  | nil =>
    cases ns with
    | nil => rfl
    | cons n ns => simpa [get?] using h n.1
  | cons m ms ih =>
    cases ns with
    | nil => simpa [get?] using h m.1
    | cons n ns =>
      obtain ⟨hm, hms⟩ := List.pairwise_cons.mp hms
      obtain ⟨hn, hns⟩ := List.pairwise_cons.mp hns
      have hk : m.1 = n.1 := le_antisymm (le_of_get?_eq hm (h n.1).symm) (le_of_get?_eq hn (h m.1))
      have hv : m.2 = n.2 := by simpa [get?, hk] using h m.1
      have ht : ms = ns := by
        refine ih hms hns fun k => ?_
        by_cases hmk : m.1 = k
        · subst hmk
          rw [get?_of_lt hm, get?_of_lt (hk ▸ hn)]
        · simpa [get?, hmk, hk ▸ hmk] using h k
      rw [ht, Prod.ext hk hv]

theorem orderMembers_concat (ms : List Member) (m : Member) :
    orderMembers (ms ++ [m]) = insertMember m.1 m.2 (orderMembers ms) := by
  simp [orderMembers]

/-- Under each key stands the last value that was given to it. -/
theorem get?_orderMembers (k : String) (ms : List Member) :
    get? k (orderMembers ms) =
      (ms.filter fun m => decide (m.1 = k)).getLast?.map Prod.snd := by
  induction ms using List.reverseRecOn with
  | nil => rfl
  | append_singleton ms m ih =>
    rw [orderMembers_concat, get?_insertMember, ih, List.filter_append]
    by_cases hk : m.1 = k <;> simp [hk]

theorem increasing_orderMembers (ms : List Member) :
    Value.Increasing ((orderMembers ms).map Prod.fst) := by
  induction ms using List.reverseRecOn with
  | nil => exact List.Pairwise.nil
  | append_singleton ms m ih =>
    rw [orderMembers_concat]
    exact increasing_insertMember ih

theorem mem_of_mem_orderMembers {ms : List Member} {m : Member} (h : m ∈ orderMembers ms) :
    m ∈ ms := by
  induction ms using List.reverseRecOn with
  | nil => exact h
  | append_singleton ms n ih =>
    rw [orderMembers_concat] at h
    rcases mem_of_mem_insertMember h with rfl | h
    · simp
    · exact List.mem_append_left _ (ih h)

theorem Regrouped.orderMembers_eq {ms ns : List Member} (h : Regrouped ms ns) :
    orderMembers ms = orderMembers ns := by
  refine eq_of_get?_eq (increasing_orderMembers ms) (increasing_orderMembers ns) fun k => ?_
  rw [get?_orderMembers, get?_orderMembers, h k]

theorem insertMember_of_lt {key : String} {v : Value} {ms : List Member}
    (h : ∀ k ∈ ms.map Prod.fst, k < key) : insertMember key v ms = ms ++ [(key, v)] := by
  induction ms with
  | nil => rfl
  | cons m ms ih =>
    obtain ⟨hm, hms⟩ := List.forall_mem_cons.mp h
    rw [insertMember, if_neg (ne_of_gt hm), if_neg (not_lt.mpr hm.le), ih hms, List.cons_append]

theorem orderMembers_eq_self {ms : List Member} (h : Value.Increasing (ms.map Prod.fst)) :
    orderMembers ms = ms := by
  induction ms using List.reverseRecOn with
  | nil => rfl
  | append_singleton ms m ih =>
    rw [List.map_append] at h
    obtain ⟨hms, _, hm⟩ := List.pairwise_append.mp h
    rw [orderMembers_concat, ih hms, insertMember_of_lt fun k hk => hm k hk m.1 (by simp)]

end Members

namespace Value

theorem ordered_canonical (v : Value) : v.canonical.Ordered := by
  induction v with
  | scalar a => simp [canonical, Ordered]
  | array vs ih =>
    simp only [canonical, Ordered, every_array_iff, canonicalItems_eq, List.forall_mem_map]
    exact ih
  | object ms ih =>
    simp only [canonical, Ordered, every_object_iff, canonicalMembers_eq]
    refine ⟨increasing_orderMembers _, fun m hm => ?_⟩
    obtain ⟨n, hn, rfl⟩ := List.mem_map.mp (mem_of_mem_orderMembers hm)
    exact ih n hn

/-- Canonical form leaves exactly the ordered values as they are. -/
theorem canonical_eq_self_iff {v : Value} : v.canonical = v ↔ v.Ordered := by
  constructor
  · intro h
    exact h ▸ ordered_canonical v
  · intro h
    induction h with
    | scalar => rfl
    | array _ ih =>
      simp only [canonical, canonicalItems_eq]
      rw [List.map_congr_left ih, List.map_id']
    | @object ms hk _ ih =>
      simp only [canonical, canonicalMembers_eq]
      have hm : ∀ m ∈ ms, (m.1, m.2.canonical) = m := fun m hm => Prod.ext rfl (ih m hm)
      rw [List.map_congr_left hm, List.map_id', orderMembers_eq_self hk]

@[simp] theorem sameItems_iff {vs ws : List Value}
    (h : ∀ w ∈ ws, ∀ v : Value, v.same w = true ↔ v = w) :
    sameItems vs ws = true ↔ vs = ws := by
  induction vs generalizing ws with
  | nil => cases ws <;> simp [sameItems]
  | cons v vs ih =>
    cases ws with
    | nil => simp [sameItems]
    | cons w ws =>
      obtain ⟨hw, hws⟩ := List.forall_mem_cons.mp h
      simp [sameItems, hw v, ih hws]

theorem sameMembers_iff {ms ns : List Member}
    (h : ∀ n ∈ ns, ∀ v : Value, v.same n.2 = true ↔ v = n.2) :
    sameMembers ms ns = true ↔ ms = ns := by
  induction ms generalizing ns with
  | nil => cases ns <;> simp [sameMembers]
  | cons m ms ih =>
    cases ns with
    | nil => simp [sameMembers]
    | cons n ns =>
      obtain ⟨hn, hns⟩ := List.forall_mem_cons.mp h
      simp [sameMembers, hn m.2, ih hns, Prod.ext_iff, and_assoc]

end Value

/-- Not a floating number. -/
def Scalar.Integral : Scalar → Prop
  | .number (.float _) => False
  | _ => True

theorem Number.same_int_iff {n : Number} {i : Int} : n.same (.int i) = true ↔ n = .int i := by
  cases n <;> simp [Number.same]

theorem Scalar.same_iff {a b : Scalar} (h : b.Integral) : a.same b = true ↔ a = b := by
  cases b with
  | number n =>
    cases n with
    | int i => cases a <;> simp [Scalar.same, Number.same_int_iff]
    | float x => exact h.elim
  | _ => cases a <;> simp [Scalar.same]

namespace Value

/-- No floating number stands inside a value. -/
def Integral : Value → Prop :=
  Every (fun _ => True) Scalar.Integral

/-- Agreement with a value is equality, unless floating numbers are involved. -/
theorem same_iff {v w : Value} (h : w.Integral) : v.same w = true ↔ v = w := by
  induction h generalizing v with
  | scalar h => cases v <;> simp [same, Scalar.same_iff h]
  | array _ ih => cases v <;> simp [same, sameItems_iff fun w hw v => ih w hw]
  | object _ _ ih => cases v <;> simp [same, sameMembers_iff fun n hn v => ih n hn]

mutual

/-- The number of lists and objects around one another. -/
def depth : Value → Nat
  | scalar _ => 0
  | array vs => depthItems vs + 1
  | object ms => depthMembers ms + 1

def depthItems : List Value → Nat
  | [] => 0
  | v :: vs => max v.depth (depthItems vs)

def depthMembers : List Member → Nat
  | [] => 0
  | (_, v) :: ms => max v.depth (depthMembers ms)

end

theorem depthItems_le_iff {vs : List Value} {n : Nat} :
    depthItems vs ≤ n ↔ ∀ v ∈ vs, v.depth ≤ n := by
  induction vs with
  | nil => simp [depthItems]
  | cons v vs ih => simp [depthItems, ih]

theorem depthMembers_le_iff {ms : List Member} {n : Nat} :
    depthMembers ms ≤ n ↔ ∀ m ∈ ms, m.2.depth ≤ n := by
  induction ms with
  | nil => simp [depthMembers]
  | cons m ms ih => simp [depthMembers, ih]

@[simp] theorem depth_scalar (a : Scalar) : (scalar a).depth = 0 := rfl

@[simp] theorem depth_array_le_iff {vs : List Value} {n : Nat} :
    (array vs).depth ≤ n + 1 ↔ ∀ v ∈ vs, v.depth ≤ n := by
  rw [depth, Nat.add_le_add_iff_right, depthItems_le_iff]

@[simp] theorem depth_object_le_iff {ms : List Member} {n : Nat} :
    (object ms).depth ≤ n + 1 ↔ ∀ m ∈ ms, m.2.depth ≤ n := by
  rw [depth, Nat.add_le_add_iff_right, depthMembers_le_iff]

end Value

end StageMonitor.Json

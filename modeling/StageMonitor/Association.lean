/-! # Associations

Lists of pairs in which a key keeps the place where it first came up. Also the first repetition in a
list, on which the distinctness of keys and ids rests.
-/

namespace StageMonitor

variable {κ α : Type} [DecidableEq κ]

namespace Association

def keys (pairs : List (κ × α)) : List κ :=
  pairs.map Prod.fst

def get? (key : κ) : List (κ × α) → Option α
  | [] => none
  | (k, a) :: pairs => if k = key then some a else get? key pairs

def put (key : κ) (value : α) : List (κ × α) → List (κ × α)
  | [] => [(key, value)]
  | (k, a) :: pairs =>
    if k = key then (k, value) :: pairs else (k, a) :: put key value pairs

@[simp] theorem get?_put_self (key : κ) (value : α) (pairs : List (κ × α)) :
    get? key (put key value pairs) = some value := by
  induction pairs with
  | nil => simp [put, get?]
  | cons p pairs ih =>
    unfold put
    split
    · simp_all [get?]
    · simp_all [get?]

theorem get?_put_of_ne {key k : κ} (h : k ≠ key) (value : α) (pairs : List (κ × α)) :
    get? k (put key value pairs) = get? k pairs := by
  induction pairs with
  | nil => simp [put, get?, h.symm]
  | cons p pairs ih =>
    unfold put
    split
    next heq => simp [get?, heq, h.symm]
    · simp [get?, ih]

theorem put_put_self (key : κ) (value other : α) (pairs : List (κ × α)) :
    put key value (put key other pairs) = put key value pairs := by
  induction pairs with
  | nil => simp [put]
  | cons p pairs ih =>
    by_cases h : p.1 = key
    · simp [put, h]
    · simp [put, h, ih]

theorem keys_put (key : κ) (value : α) (pairs : List (κ × α)) :
    keys (put key value pairs) = if key ∈ keys pairs then keys pairs else keys pairs ++ [key] := by
  induction pairs with
  | nil => rfl
  | cons p pairs ih =>
    unfold keys at ih ⊢
    rw [put, List.map_cons]
    split
    next heq => rw [List.map_cons, heq, if_pos List.mem_cons_self]
    next hne =>
      rw [List.map_cons, ih]
      by_cases hmem : key ∈ pairs.map Prod.fst
      · rw [if_pos hmem, if_pos (List.mem_cons_of_mem _ hmem)]
      · rw [if_neg hmem, if_neg (List.not_mem_cons_of_ne_of_not_mem (Ne.symm hne) hmem),
          List.cons_append]

theorem nodup_keys_put {key : κ} {value : α} {pairs : List (κ × α)} (h : (keys pairs).Nodup) :
    (keys (put key value pairs)).Nodup := by
  rw [keys_put]
  split
  · exact h
  next hmem =>
    refine List.nodup_append.mpr ⟨h, List.pairwise_singleton _ _, fun k hk l hl => ?_⟩
    rintro rfl
    exact hmem (List.mem_singleton.mp hl ▸ hk)

theorem get?_of_mem {key : κ} {value : α} {pairs : List (κ × α)} (h : (keys pairs).Nodup)
    (hm : (key, value) ∈ pairs) : get? key pairs = some value := by
  induction pairs with
  | nil => cases hm
  | cons p pairs ih =>
    obtain ⟨hp, h⟩ := List.nodup_cons.mp h
    rw [get?]
    rcases List.mem_cons.mp hm with rfl | hm
    · rw [if_pos rfl]
    · have hne : p.1 ≠ key := fun heq => hp (heq ▸ List.mem_map_of_mem hm)
      rw [if_neg hne, ih h hm]

end Association

/-- The first element that occurred before, among `seen` or earlier in the list. -/
def repeated? (seen : List κ) : List κ → Option κ
  | [] => none
  | k :: ks => if k ∈ seen then some k else repeated? (k :: seen) ks

theorem repeated?_eq_none {seen ks : List κ} :
    repeated? seen ks = none ↔ ks.Nodup ∧ ∀ k ∈ ks, k ∉ seen := by
  induction ks generalizing seen with
  | nil => simp [repeated?]
  | cons k ks ih =>
    unfold repeated?
    split
    next hk => simp [hk]
    next hk =>
      rw [ih]
      simp only [List.nodup_cons, List.mem_cons, not_or, forall_eq_or_imp, hk, not_false_eq_true,
        true_and]
      constructor
      · rintro ⟨hnd, h⟩
        exact ⟨⟨fun hmem => (h k hmem).1 rfl, hnd⟩, fun x hx => (h x hx).2⟩
      · rintro ⟨⟨hmem, hnd⟩, h⟩
        exact ⟨hnd, fun x hx => ⟨fun heq => hmem (heq ▸ hx), h x hx⟩⟩

theorem nodup_of_repeated? {ks : List κ} (h : repeated? [] ks = none) : ks.Nodup :=
  (repeated?_eq_none.mp h).1

theorem repeated?_of_nodup {ks : List κ} (h : ks.Nodup) : repeated? [] ks = none :=
  repeated?_eq_none.mpr ⟨h, fun _ _ => List.not_mem_nil⟩

theorem repeated?_append (seen ks ls : List κ) :
    repeated? seen (ks ++ ls) = (repeated? seen ks).or (repeated? (ks.reverse ++ seen) ls) := by
  induction ks generalizing seen with
  | nil => rfl
  | cons k ks ih =>
    rw [List.cons_append, repeated?, repeated?]
    split
    · rfl
    · rw [ih, List.reverse_cons, List.append_assoc, List.singleton_append]

theorem exists_append_of_repeated? {seen ks : List κ} {k : κ} (h : repeated? seen ks = some k) :
    ∃ before after, ks = before ++ k :: after ∧ repeated? seen before = none ∧
      k ∈ before.reverse ++ seen := by
  induction ks generalizing seen with
  | nil => cases h
  | cons x ks ih =>
    rw [repeated?] at h
    split at h
    next hx =>
      cases h
      exact ⟨[], ks, rfl, rfl, hx⟩
    next hx =>
      obtain ⟨before, after, rfl, hn, hk⟩ := ih h
      refine ⟨x :: before, after, rfl, ?_, ?_⟩
      · rw [repeated?, if_neg hx, hn]
      · rwa [List.reverse_cons, List.append_assoc, List.singleton_append]

/-- The first element that is not new, with all the new ones before it. -/
theorem repeated?_eq_some_iff {ks : List κ} {k : κ} :
    repeated? [] ks = some k ↔
      ∃ before after, ks = before ++ k :: after ∧ before.Nodup ∧ k ∈ before := by
  constructor
  · intro h
    obtain ⟨before, after, hks, hn, hk⟩ := exists_append_of_repeated? h
    rw [List.append_nil, List.mem_reverse] at hk
    exact ⟨before, after, hks, nodup_of_repeated? hn, hk⟩
  · rintro ⟨before, after, rfl, hn, hk⟩
    rw [repeated?_append, repeated?_of_nodup hn, Option.none_or, repeated?,
      if_pos (List.mem_append_left [] (List.mem_reverse.mpr hk))]

theorem repeated?_map_eq_some_iff {f : α → κ} {as : List α} {k : κ} :
    repeated? [] (as.map f) = some k ↔
      ∃ before a after, as = before ++ a :: after ∧ (before.map f).Nodup ∧ f a ∈ before.map f ∧
        f a = k := by
  rw [repeated?_eq_some_iff]
  constructor
  · rintro ⟨ks, ls, h, hn, hk⟩
    obtain ⟨before, rest, rfl, rfl, hrest⟩ := List.map_eq_append_iff.mp h
    obtain ⟨a, after, rfl, rfl, rfl⟩ := List.map_eq_cons_iff.mp hrest
    exact ⟨before, a, after, rfl, hn, hk, rfl⟩
  · rintro ⟨before, a, after, rfl, hn, ha, rfl⟩
    exact ⟨before.map f, after.map f, by rw [List.map_append, List.map_cons], hn, ha⟩

end StageMonitor

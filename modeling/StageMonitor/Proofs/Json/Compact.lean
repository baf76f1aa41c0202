import StageMonitor.Proofs.Json.Layout

/-! # Compact texts tell values apart

No compact text goes on with another one, unless it is that of a number and a digit follows. So the
texts of items and members do not run together, and a compact text stands for one value. The order
of the members counts here.
-/

namespace StageMonitor.Json

section Texts

variable {α : Type} {text : α → List Char}

/-- Texts that start with `a` and with `b` can be told apart. No digit follows, since one would go on
with the text of a number. -/
def Separates (text : α → List Char) (a b : α) : Prop :=
  ∀ r r', NoDigit r → NoDigit r' → text a ++ r = text b ++ r' → a = b ∧ r = r'

theorem noDigit_cons {c : Char} (hc : c.isDigit = false) (r : List Char) : NoDigit (c :: r) := by
  rintro _ ⟨⟩
  exact hc

theorem separates_stringText (s t : String) : Separates stringText s t := by
  intro r r' _ _ h
  obtain ⟨u, hu, hs⟩ := readString_of_spelled (stringSpelled_stringText s)
  obtain ⟨u', hu', ht⟩ := readString_of_spelled (stringSpelled_stringText t)
  rw [hu, hu', List.cons_append, List.cons_append, List.cons.injEq] at h
  have hread := (hs r).symm.trans ((congrArg readString h.2).trans (ht r'))
  cases hread
  exact ⟨rfl, rfl⟩

theorem separates_toDigits (m n : Nat) : Separates (Nat.toDigits 10) m n := by
  intro r r' hr hr' h
  have hd (k : Nat) : ∀ d ∈ Nat.toDigits 10 k, d.isDigit = true := fun _ hd =>
    Nat.isDigit_of_mem_toDigits (by decide) (by decide) hd
  have ht : Nat.toDigits 10 m = Nat.toDigits 10 n := by
    rw [← takeWhile_digits (hd m) hr, h, takeWhile_digits (hd n) hr']
  obtain rfl : m = n := by rw [← digitsValue_toDigits m, ht, digitsValue_toDigits]
  exact ⟨rfl, List.append_cancel_left h⟩

theorem separates_intText (i j : Int) : Separates intText i j := by
  have hsign (k : Nat) (r s : List Char) : Nat.toDigits 10 k ++ r ≠ '-' :: s := by
    obtain ⟨c, cs, hk, hc⟩ := (wholeSpelled_toDigits k).head_isDigit
    rw [hk]
    rintro ⟨⟩
    simp at hc
  intro r r' hr hr' h
  unfold intText at h
  split at h <;> split at h
  · obtain ⟨ha, hrest⟩ := separates_toDigits _ _ r r' hr hr' (List.cons.inj h).2
    exact ⟨by omega, hrest⟩
  · exact absurd h.symm (hsign _ _ _)
  · exact absurd h (hsign _ _ _)
  · obtain ⟨ha, hrest⟩ := separates_toDigits _ _ r r' hr hr' h
    exact ⟨by omega, hrest⟩

section Lists

variable {closing : Char} {as bs : List α} {r r' : List Char}

theorem intercalate_comma_cons (t : List Char) (ts : List (List Char)) :
    List.intercalate [','] (t :: ts) = t ++ ts.flatMap (',' :: ·) := by
  induction ts generalizing t with
  | nil => simp [List.intercalate]
  | cons t' ts ih =>
    rw [List.flatMap_cons, List.cons_append, ← ih]
    simp [List.intercalate]

variable (hd : closing.isDigit = false) (hs : ∀ a ∈ as, ∀ b ∈ bs, Separates text a b)

include hd hs

/-- Every further entry has a comma in front, and the closing bracket has none. -/
theorem eq_of_further_eq (hc : closing ≠ ',')
    (h : (as.map text).flatMap (',' :: ·) ++ closing :: r =
      (bs.map text).flatMap (',' :: ·) ++ closing :: r') : as = bs ∧ r = r' := by
  have hn (ts : List (List Char)) (r : List Char) :
      NoDigit (ts.flatMap (',' :: ·) ++ closing :: r) := by
    cases ts with
    | nil => exact noDigit_cons hd r
    | cons t ts => exact noDigit_cons (by decide) _
  -- a closing bracket on one side and a comma on the other cannot meet
  induction as generalizing bs with
  | nil =>
    cases bs with
    | nil => exact ⟨rfl, (List.cons.inj h).2⟩
    | cons b bs => exact absurd (List.cons.inj h).1 hc
  | cons a as ih =>
    cases bs with
    | nil => exact absurd (List.cons.inj h).1.symm hc
    | cons b bs =>
      simp only [List.map_cons, List.flatMap_cons, List.cons_append, List.append_assoc,
        List.cons.injEq, true_and] at h
      obtain ⟨rfl, hrest⟩ := hs a List.mem_cons_self b List.mem_cons_self _ _ (hn _ _) (hn _ _) h
      obtain ⟨rfl, hr⟩ := ih (fun a ha b hb => hs a (List.mem_cons_of_mem _ ha) b
        (List.mem_cons_of_mem _ hb)) hrest
      exact ⟨rfl, hr⟩

/-- Lists are told apart if their entries are, and none of these starts with the closing bracket. -/
theorem eq_of_intercalate_eq (hc : closing ≠ ',')
    (ho : ∀ a, a ∈ as ∨ a ∈ bs → ∃ c t, text a = c :: t ∧ c ≠ closing)
    (h : List.intercalate [','] (as.map text) ++ closing :: r =
      List.intercalate [','] (bs.map text) ++ closing :: r') : as = bs ∧ r = r' := by
  have hclosed (a : α) (ha : a ∈ as ∨ a ∈ bs) (ts : List (List Char)) (r r' : List Char) :
      List.intercalate [','] (text a :: ts) ++ closing :: r ≠ closing :: r' := by
    obtain ⟨c, t, ht, hne⟩ := ho a ha
    rw [intercalate_comma_cons, ht]
    rintro ⟨⟩
    exact hne rfl
  cases as with
  | nil =>
    cases bs with
    | nil => exact ⟨rfl, (List.cons.inj h).2⟩
    | cons b bs => exact absurd h.symm (hclosed b (Or.inr List.mem_cons_self) _ _ _)
  | cons a as =>
    cases bs with
    | nil => exact absurd h (hclosed a (Or.inl List.mem_cons_self) _ _ _)
    | cons b bs =>
      rw [List.map_cons, List.map_cons, intercalate_comma_cons, intercalate_comma_cons] at h
      exact @eq_of_further_eq _ text closing (a :: as) (b :: bs) r r' hd hs hc
        (by simpa using h)

end Lists

end Texts

theorem head_intText (i : Int) : ∃ c t, intText i = c :: t ∧ (c = '-' ∨ c.isDigit = true) := by
  unfold intText
  split
  · exact ⟨'-', _, rfl, Or.inl rfl⟩
  · obtain ⟨c, cs, hk, hc⟩ := (wholeSpelled_toDigits i.natAbs).head_isDigit
    exact ⟨c, cs, hk, Or.inr hc⟩

namespace Value

/-- The character with which the text of a value has to start. Numbers do not start all alike. -/
def opening : Value → Option Char
  | scalar .null => some 'n'
  | scalar (.bool true) => some 't'
  | scalar (.bool false) => some 'f'
  | scalar (.number _) => none
  | scalar (.string _) => some '"'
  | array _ => some '['
  | object _ => some '\x7b'

variable {v w : Value}

theorem exists_head_compact (hv : v.Integral) :
    ∃ c t, v.compact = c :: t ∧ c ≠ ']' ∧
      v.opening = if c = '-' ∨ c.isDigit = true then none else some c := by
  cases v with
  | scalar a =>
    match a, hv with
    | .null, _ => exact ⟨_, _, rfl, by decide, rfl⟩
    | .bool true, _ => exact ⟨_, _, rfl, by decide, rfl⟩
    | .bool false, _ => exact ⟨_, _, rfl, by decide, rfl⟩
    | .number (.int i), _ =>
      obtain ⟨c, t, ht, hc⟩ := head_intText i
      exact ⟨c, t, ht, (ne_of_number_head hc).2.2.2.2.2.1, (if_pos hc).symm⟩
    | .number (.float _), .scalar h => exact h.elim
    | .string _, _ => exact ⟨_, _, rfl, by decide, rfl⟩
  | array vs => exact ⟨_, _, rfl, by decide, rfl⟩
  | object ms => exact ⟨_, _, rfl, by decide, rfl⟩

theorem opening_eq_of_compact_append {r r' : List Char} (hv : v.Integral) (hw : w.Integral)
    (h : v.compact ++ r = w.compact ++ r') : v.opening = w.opening := by
  obtain ⟨c, t, hc, -, ho⟩ := exists_head_compact hv
  obtain ⟨c', t', hc', -, ho'⟩ := exists_head_compact hw
  rw [hc, hc', List.cons_append, List.cons_append, List.cons.injEq] at h
  rw [ho, ho', h.1]

theorem separates_text {a b : Scalar} (ha : a.Integral) (hb : b.Integral)
    (ho : (scalar a).opening = (scalar b).opening) : Separates Scalar.text a b := by
  intro r r' hr hr' h
  match a, b, ha, hb, ho with
  | .null, .null, _, _, _ => exact ⟨rfl, List.append_cancel_left h⟩
  | .bool true, .bool true, _, _, _ => exact ⟨rfl, List.append_cancel_left h⟩
  | .bool false, .bool false, _, _, _ => exact ⟨rfl, List.append_cancel_left h⟩
  | .number (.int i), .number (.int j), _, _, _ =>
    obtain ⟨rfl, hrest⟩ := separates_intText i j r r' hr hr' h
    exact ⟨rfl, hrest⟩
  | .string s, .string t, _, _, _ =>
    obtain ⟨rfl, hrest⟩ := separates_stringText s t r r' hr hr' h
    exact ⟨rfl, hrest⟩

theorem compact_array_append (vs : List Value) (r : List Char) :
    (array vs).compact ++ r = '[' :: (List.intercalate [','] (vs.map compact) ++ ']' :: r) := by
  simp [compact, compactItems_eq]

/-- The text of a member of an object. -/
def memberText (m : Member) : List Char :=
  stringText m.1 ++ ':' :: m.2.compact

theorem compact_object_append (ms : List Member) (r : List Char) :
    (object ms).compact ++ r =
      '\x7b' :: (List.intercalate [','] (ms.map memberText) ++ '\x7d' :: r) := by
  simp only [compact, compactMembers_eq, List.cons_append, List.append_assoc, List.nil_append]
  rfl

theorem separates_memberText {m n : Member} (h : Separates compact m.2 n.2) :
    Separates memberText m n := by
  obtain ⟨key, v⟩ := m
  obtain ⟨key', w⟩ := n
  intro r r' hr hr' ht
  simp only [memberText, List.append_assoc] at ht
  have hc (s : List Char) : NoDigit (':' :: s) := noDigit_cons (by decide) s
  obtain ⟨rfl, hv⟩ := separates_stringText key key' _ _ (hc _) (hc _) ht
  obtain ⟨rfl, hrest⟩ := h r r' hr hr' (List.cons.inj hv).2
  exact ⟨rfl, hrest⟩

/-- No text of a value goes on with that of another. -/
theorem separates_compact (hv : v.Integral) (hw : w.Integral) : Separates compact v w := by
  -- in each case the two texts open alike, which leaves one kind of value for `w`
  induction hv generalizing w with
  | @scalar a ha =>
    intro r r' hr hr' h
    have ho := opening_eq_of_compact_append (.scalar ha) hw h
    match w, hw, ho with
    | .scalar b, .scalar hb, ho =>
      obtain ⟨rfl, hrest⟩ := separates_text ha hb ho r r' hr hr' h
      exact ⟨rfl, hrest⟩
    | .array _, _, ho => exact nomatch a, ho
    | .object _, _, ho => exact nomatch a, ho
  | @array vs hvs ih =>
    intro r r' _ _ h
    have ho := opening_eq_of_compact_append (.array hvs) hw h
    match w, hw, ho with
    | .scalar b, _, ho => exact nomatch b, ho
    | .array ws, .array hws, _ =>
      rw [compact_array_append, compact_array_append] at h
      have hhead (u : Value) (hu : u ∈ vs ∨ u ∈ ws) : ∃ c t, u.compact = c :: t ∧ c ≠ ']' := by
        obtain ⟨c, t, ht, hc, -⟩ := exists_head_compact (hu.elim (hvs u) (hws u))
        exact ⟨c, t, ht, hc⟩
      obtain ⟨rfl, hrest⟩ := eq_of_intercalate_eq (by decide) (fun v hv w hw => ih v hv (hws w hw))
        (by decide) hhead (List.cons.inj h).2
      exact ⟨rfl, hrest⟩
  | @object ms hk hms ih =>
    intro r r' _ _ h
    have ho := opening_eq_of_compact_append (.object hk hms) hw h
    match w, hw, ho with
    | .scalar b, _, ho => exact nomatch b, ho
    | .object ns, .object _ hns, _ =>
      rw [compact_object_append, compact_object_append] at h
      have hhead (m : Member) (_ : m ∈ ms ∨ m ∈ ns) : ∃ c t, memberText m = c :: t ∧ c ≠ '\x7d' :=
        ⟨'"', _, rfl, by decide⟩
      obtain ⟨rfl, hrest⟩ := eq_of_intercalate_eq (by decide)
        (fun m hm n hn => separates_memberText (ih m hm (hns n hn))) (by decide) hhead
        (List.cons.inj h).2
      exact ⟨rfl, hrest⟩

/-- A compact text stands for one value, the order of members included. -/
theorem eq_of_compactText_eq (hv : v.Integral) (hw : w.Integral)
    (h : v.compactText = w.compactText) : v = w := by
  have hc := congrArg (· ++ []) (String.ofList_injective h)
  exact (separates_compact hv hw [] [] stops_nil.noDigit stops_nil.noDigit hc).1

end Value

end StageMonitor.Json

import StageMonitor.Proofs.Json.Document

/-! # Layouts are spellings

Both layouts of a value spell it if its numbers are integers in range, so the value is read back
from them, in canonical form.
-/

namespace StageMonitor.Json

theorem charSpelled_escapedChar (c : Char) : CharSpelled c (escapedChar c) := by
  unfold escapedChar
  split
  iterate 7 exact .letter (by decide)
  next hq hb _ _ _ _ _ =>
    have h0 : HexDigit 0 '0' := .lower (d := 0) (by decide)
    split
    next hc =>
      rw [Nat.toDigits_of_lt_base hc]
      have hu := UnitSpelled.mk h0 h0 h0 (.lower hc)
      exact .unit (by simpa using hu)
    split
    next hl hc =>
      have h1 : HexDigit 1 '1' := .lower (d := 1) (by decide)
      have hd : c.toNat / 16 = 1 := by omega
      have hm : 1 * 16 + c.toNat % 16 = c.toNat := by omega
      rw [Nat.toDigits_of_base_le (by decide) (by omega), hd]
      have hu := UnitSpelled.mk h0 h0 h1 (.lower (Nat.mod_lt c.toNat (y := 16) (by decide)))
      simp only [Nat.zero_mul, Nat.zero_add, hm] at hu
      exact .unit hu
    next hc => exact .literal (by omega) hq hb

theorem charsSpelled_flatMap (cs : List Char) : CharsSpelled cs (cs.flatMap escapedChar) := by
  induction cs with
  | nil => exact .nil
  | cons c cs ih => exact .cons (charSpelled_escapedChar c) ih

theorem stringSpelled_stringText (t : String) : StringSpelled t (stringText t) :=
  .mk (charsSpelled_flatMap t.toList)

theorem head_toDigits {n : Nat} (hn : 0 < n) :
    ∃ c cs, Nat.toDigits 10 n = c :: cs ∧ c ≠ '0' := by
  induction n using Nat.base_induction 10 (by decide) with
  | single m hm =>
    refine ⟨_, [], Nat.toDigits_of_lt_base hm, ?_⟩
    revert m
    decide
  | digit m k hk hm ih =>
    obtain ⟨c, cs, hc, hz⟩ := ih hm
    refine ⟨c, cs ++ Nat.toDigits 10 k, ?_, hz⟩
    rw [← Nat.toDigits_append_toDigits (by decide) hm hk, hc, List.cons_append]

theorem wholeSpelled_toDigits (n : Nat) : Numeral.WholeSpelled (Nat.toDigits 10 n) := by
  rcases Nat.eq_zero_or_pos n with rfl | hn
  · exact .zero
  · obtain ⟨c, cs, hc, hz⟩ := head_toDigits hn
    have hd : ∀ d ∈ Nat.toDigits 10 n, d.isDigit = true := fun _ hd =>
      Nat.isDigit_of_mem_toDigits (by decide) (by decide) hd
    rw [hc] at hd ⊢
    exact .digits hz hd

theorem digitsValue_toDigits (n : Nat) : digitsValue (Nat.toDigits 10 n) = n := by
  have h := Nat.ofDigitChars_ten_toDigits (n := n)
  simpa only [Nat.ofDigitChars_eq_foldl, digitsValue, digitValue, Nat.mul_comm] using h

/-- Every integer in range is read back from its text. -/
theorem numberSpelled_intText {i : Int} (hl : -0x8000000000000000 ≤ i)
    (hu : i ≤ 0xffffffffffffffff) : NumberSpelled (.int i) (intText i) := by
  let n : Numeral := ⟨decide (i < 0), Nat.toDigits 10 i.natAbs, [], none⟩
  have hv : n.wholeValue = i := by
    simp only [Numeral.wholeValue, n, digitsValue_toDigits, decide_eq_true_eq]
    split <;> omega
  have hs : n.Spelled (intText i) := by
    have ht : intText i = (if n.negative then ['-'] else []) ++ n.whole ++ [] ++ [] := by
      by_cases hneg : i < 0 <;> simp [intText, n, hneg]
    exact ht ▸ .mk (wholeSpelled_toDigits _) .absent .absent
  have hi : n.IsInteger := by
    refine ⟨rfl, rfl, fun hneg => ?_, hv.symm ▸ hl, hv.symm ▸ hu⟩
    have : i < 0 := by simpa [n] using hneg
    omega
  have := NumberSpelled.int hs hi
  rwa [hv] at this

/-- The scalars that are read back from their texts. -/
def Scalar.InRange : Scalar → Prop
  | number (.int i) => -0x8000000000000000 ≤ i ∧ i ≤ 0xffffffffffffffff
  | number (.float _) => False
  | _ => True

theorem scalarSpelled_text {a : Scalar} (h : a.InRange) : ScalarSpelled a a.text := by
  match a, h with
  | .null, _ => exact .null
  | .bool true, _ => exact .boolTrue
  | .bool false, _ => exact .boolFalse
  | .number (.int _), ⟨hl, hu⟩ => exact .number (numberSpelled_intText hl hu)
  | .string t, _ => exact .string (stringSpelled_stringText t)

/-- Entries with a comma and the same blanks between them. -/
theorem listing_intercalate {closing : Char} {first : Bool} {u b b' : List Char}
    (hu : Separator first u) (hb : Blank b) (hb' : Blank b') (t : List Char)
    (ts : List (List Char)) :
    Listing closing first (t :: ts)
      (u ++ List.intercalate (',' :: b) (t :: ts) ++ b' ++ [closing]) := by
  induction ts generalizing first u t with
  | nil => exact ⟨u, b' ++ [closing], hu, ⟨b', hb', rfl⟩, by simp [List.intercalate]⟩
  | cons t' ts ih =>
    have hs : Separator false (',' :: b) := ⟨[], b, blank_nil, hb, rfl⟩
    refine ⟨u, _, hu, ih hs t', by simp [List.intercalate]⟩

theorem listing_compact (closing : Char) (ts : List (List Char)) :
    Listing closing true ts (List.intercalate [','] ts ++ [closing]) := by
  cases ts with
  | nil => exact ⟨[], blank_nil, rfl⟩
  | cons t ts =>
    simpa using listing_intercalate (show Separator true [] from blank_nil) blank_nil blank_nil t ts

namespace Value

theorem compactItems_eq (vs : List Value) : compactItems vs = vs.map compact := by
  induction vs with
  | nil => rfl
  | cons v vs ih => rw [compactItems, ih, List.map_cons]

theorem compactMembers_eq (ms : List Member) :
    compactMembers ms = ms.map fun m => stringText m.1 ++ ':' :: m.2.compact := by
  induction ms with
  | nil => rfl
  | cons m ms ih => rw [compactMembers, ih, List.map_cons]

theorem prettyItems_eq (level : Nat) (vs : List Value) :
    prettyItems level vs = vs.map (prettyAt level) := by
  induction vs with
  | nil => rfl
  | cons v vs ih => rw [prettyItems, ih, List.map_cons]

theorem prettyMembers_eq (level : Nat) (ms : List Member) :
    prettyMembers level ms =
      ms.map fun m => stringText m.1 ++ [':', ' '] ++ m.2.prettyAt level := by
  induction ms with
  | nil => rfl
  | cons m ms ih => rw [prettyMembers, ih, List.map_cons]

theorem blank_newLine (level : Nat) : Blank (newLine level) := by
  intro c hc
  rcases List.mem_cons.mp hc with rfl | hc
  · exact Or.inr (Or.inl rfl)
  · exact Or.inl (List.eq_of_mem_replicate hc)

/-- Between two brackets, the lines of a list or an object. -/
theorem listing_bracketed (opening closing : Char) (level : Nat) (ts : List (List Char)) :
    ∃ s, bracketed opening closing level ts = opening :: s ∧ Listing closing true ts s := by
  unfold bracketed
  split
  next h => exact ⟨[closing], rfl, h ▸ ⟨[], blank_nil, rfl⟩⟩
  next h =>
    obtain ⟨t, ts, rfl⟩ := List.exists_cons_of_ne_nil h
    have hb := blank_newLine (level + 1)
    have hu : Separator true (newLine (level + 1)) := hb
    exact ⟨_, rfl, listing_intercalate hu hb (blank_newLine level) t ts⟩

theorem spelled_of_items {vs : List Value} {text : Value → List Char} {s : List Char}
    (h : ∀ v ∈ vs, v.Spelled (text v)) (hs : Listing ']' true (vs.map text) s) :
    (array vs).Spelled ('[' :: s) := by
  have ha : Spelled (.array ((vs.map fun v => (v, text v)).map Prod.fst)) ('[' :: s) :=
    .array (List.forall_mem_map.mpr h) (by simpa [Function.comp_def] using hs)
  simpa [Function.comp_def] using ha

/-- A member whose key is written in the one spelling, with blanks after the colon. -/
def writtenEntry (text : Value → List Char) {b : List Char} (hb : Blank b) (m : Member) : Entry :=
  ⟨m.1, m.2, stringText m.1, text m.2, [], b, stringSpelled_stringText m.1, blank_nil, hb⟩

theorem spelled_of_members {ms : List Member} {text : Value → List Char} {b s : List Char}
    (hb : Blank b) (h : ∀ m ∈ ms, m.2.Spelled (text m.2))
    (hs : Listing '\x7d' true (ms.map fun m => stringText m.1 ++ ':' :: b ++ text m.2) s) :
    (object ms).Spelled ('\x7b' :: s) := by
  refine @Spelled.object ms (ms.map (writtenEntry text hb)) s (List.forall_mem_map.mpr h) ?_ ?_
  · simp [writtenEntry, Entry.member, Function.comp_def, Regrouped.refl]
  · simpa [writtenEntry, Entry.text, Function.comp_def] using hs

/-- Every scalar inside is read back from its text. -/
def InRange : Value → Prop :=
  Every (fun _ => True) Scalar.InRange

theorem spelled_compact {v : Value} (h : v.InRange) : v.Spelled v.compact := by
  induction v with
  | scalar a => exact .scalar (scalarSpelled_text (every_scalar_iff.mp h))
  | array vs ih =>
    have hs : ∀ v ∈ vs, v.Spelled v.compact := fun v hv => ih v hv (every_array_iff.mp h v hv)
    rw [compact, compactItems_eq]
    exact spelled_of_items hs (listing_compact _ _)
  | object ms ih =>
    have hs : ∀ m ∈ ms, m.2.Spelled m.2.compact := fun m hm =>
      ih m hm ((every_object_iff.mp h).2 m hm)
    rw [compact, compactMembers_eq]
    exact spelled_of_members blank_nil hs (by simpa using listing_compact _ _)

theorem spelled_prettyAt {v : Value} (h : v.InRange) (level : Nat) :
    v.Spelled (v.prettyAt level) := by
  induction v generalizing level with
  | scalar a => exact .scalar (scalarSpelled_text (every_scalar_iff.mp h))
  | array vs ih =>
    have hs : ∀ v ∈ vs, v.Spelled (v.prettyAt (level + 1)) := fun v hv =>
      ih v hv (every_array_iff.mp h v hv) _
    obtain ⟨s, ht, hl⟩ := listing_bracketed '[' ']' level (vs.map (prettyAt (level + 1)))
    rw [prettyAt, prettyItems_eq, ht]
    exact spelled_of_items hs hl
  | object ms ih =>
    have hs : ∀ m ∈ ms, m.2.Spelled (m.2.prettyAt (level + 1)) := fun m hm =>
      ih m hm ((every_object_iff.mp h).2 m hm) _
    obtain ⟨s, ht, hl⟩ := listing_bracketed '\x7b' '\x7d' level
      (ms.map fun m => stringText m.1 ++ [':', ' '] ++ m.2.prettyAt (level + 1))
    rw [prettyAt, prettyMembers_eq, ht]
    exact spelled_of_members (b := [' ']) (by simp [Blank]) hs (by simpa using hl)

variable {v : Value}

theorem isDocument_compactText (h : v.InRange) (hd : v.depth ≤ depthLimit) :
    v.IsDocument v.compactText :=
  ⟨hd, [], v.compact, [], blank_nil, spelled_compact h, blank_nil, by simp [compactText]⟩

theorem isDocument_fileText (h : v.InRange) (hd : v.depth ≤ depthLimit) :
    v.IsDocument v.fileText :=
  ⟨hd, [], v.pretty, ['\n'], blank_nil, spelled_prettyAt h 0, by simp [Blank], by simp [fileText]⟩

/-- What is stored is read back in canonical form. -/
theorem ofDocument_fileText (h : v.InRange) (hd : v.depth ≤ depthLimit) :
    ofDocument v.fileText = .ok v.canonical :=
  ofDocument_eq_ok_iff.mpr ⟨v, isDocument_fileText h hd, rfl⟩

end Value

end StageMonitor.Json

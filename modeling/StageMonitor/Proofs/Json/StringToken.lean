import Mathlib.Tactic.IntervalCases
import StageMonitor.Proofs.Json.Spelling

/-! # Strings are read from their spellings

Every spelling of a character is read back to it, and whatever is read is a spelling of the result.
-/

namespace StageMonitor.Json

theorem hexValue?_eq_some_iff {c : Char} {d : Nat} : hexValue? c = some d ↔ HexDigit d c := by
  constructor
  · intro h
    have hlt : c.toNat < 128 := by
      simp only [hexValue?, Char.le_def, UInt32.le_iff_toNat_le, Char.reduceVal,
        UInt32.reduceToNat] at h
      change c.val.toNat < 128
      split_ifs at h <;> omega
    have all : ∀ n < 128, ∀ d ∈ hexValue? (Char.ofNat n),
        d < 16 ∧ (Char.ofNat n = d.digitChar ∨ Char.ofNat n = d.digitChar.toUpper) := by decide
    have hc := all c.toNat hlt d
    rw [Char.ofNat_toNat] at hc
    obtain ⟨hd, rfl | rfl⟩ := hc h
    · exact .lower hd
    · exact .upper hd
  · intro h
    cases h with
    | lower h => interval_cases d <;> rfl
    | upper h => interval_cases d <;> rfl

theorem UnitSpelled.lt {n : Nat} {s : List Char} (h : UnitSpelled n s) : n < 0x10000 := by
  have lt {d : Nat} {c : Char} (hd : HexDigit d c) : d < 16 := by cases hd <;> assumption
  obtain ⟨hw, hx, hy, hz⟩ := h
  have := lt hw
  have := lt hx
  have := lt hy
  have := lt hz
  omega

theorem readUnit_of_spelled {n : Nat} {s : List Char} (h : UnitSpelled n s) (r : List Char) :
    readUnit (s ++ r) = .ok (n, r) := by
  obtain ⟨hw, hx, hy, hz⟩ := h
  simp only [List.cons_append, List.nil_append, readUnit, hexUnit?, hexValue?_eq_some_iff.mpr hw,
    hexValue?_eq_some_iff.mpr hx, hexValue?_eq_some_iff.mpr hy, hexValue?_eq_some_iff.mpr hz,
    Option.bind_eq_bind, Option.bind_some, Option.pure_def]
  congr 2
  omega

theorem spelled_of_readUnit {n : Nat} {s r : List Char} (h : readUnit s = .ok (n, r)) :
    ∃ u, UnitSpelled n u ∧ s = u ++ r := by
  unfold readUnit at h
  split at h
  next a b c d t =>
    split at h
    next m hm =>
      obtain ⟨rfl, rfl⟩ : m = n ∧ t = r := by simpa using h
      simp only [hexUnit?, Option.bind_eq_bind, Option.bind_eq_some_iff, Option.pure_def,
        Option.some.injEq, hexValue?_eq_some_iff] at hm
      obtain ⟨w, hw, x, hx, y, hy, z, hz, rfl⟩ := hm
      refine ⟨[a, b, c, d], ?_, rfl⟩
      convert UnitSpelled.mk hw hx hy hz using 1
      omega
    · cases h
  · cases h

theorem letterEscape?_eq_some_iff {e c : Char} :
    letterEscape? e = some c ↔ (e, c) ∈ letterEscapes := by
  constructor
  · intro h
    unfold letterEscape? at h
    split at h <;> cases h <;> decide
  · intro h
    simp only [letterEscapes, List.mem_cons, Prod.mk.injEq, List.not_mem_nil, or_false] at h
    rcases h with ⟨rfl, rfl⟩ | ⟨rfl, rfl⟩ | ⟨rfl, rfl⟩ | ⟨rfl, rfl⟩ | ⟨rfl, rfl⟩ | ⟨rfl, rfl⟩ |
      ⟨rfl, rfl⟩ | ⟨rfl, rfl⟩ <;> rfl

/-- No character is a surrogate. -/
theorem not_surrogate (c : Char) : isLeading c.toNat = false ∧ isTrailing c.toNat = false := by
  have hc : c.toNat < 0xD800 ∨ 0xDFFF < c.toNat ∧ c.toNat < 0x110000 := c.valid
  simp only [isLeading, isTrailing, Bool.and_eq_false_iff, decide_eq_false_iff_not]
  omega

theorem readCodePoint_of_unit {c : Char} {s : List Char} (h : UnitSpelled c.toNat s)
    (r : List Char) : readCodePoint (s ++ r) = .ok (c, r) := by
  obtain ⟨hl, ht⟩ := not_surrogate c
  simp [readCodePoint, readUnit_of_spelled h, hl, ht]

theorem readCodePoint_of_pair {c : Char} {high low : Nat} {s t : List Char}
    (hh : 0xD800 ≤ high ∧ high < 0xDC00) (hl : 0xDC00 ≤ low ∧ low < 0xE000)
    (hc : c.toNat = 0x10000 + (high - 0xD800) * 0x400 + (low - 0xDC00))
    (hs : UnitSpelled high s) (ht : UnitSpelled low t) (r : List Char) :
    readCodePoint (s ++ '\\' :: 'u' :: t ++ r) = .ok (c, r) := by
  have h₁ : isLeading high = true := by
    rw [isLeading, Bool.and_eq_true, decide_eq_true_eq, decide_eq_true_eq]
    exact hh
  have h₂ : isTrailing high = false := by
    rw [isTrailing, Bool.and_eq_false_iff, decide_eq_false_iff_not]
    exact Or.inl (Nat.not_le.mpr hh.2)
  have h₃ : isTrailing low = true := by
    rw [isTrailing, Bool.and_eq_true, decide_eq_true_eq, decide_eq_true_eq]
    exact hl
  have hp : pairValue high low = c.toNat := hc.symm
  simp [readCodePoint, readUnit_of_spelled hs, readTrailing, readUnit_of_spelled ht, h₁, h₂, h₃, hp]

theorem readEscape_of_letter {e c : Char} (h : (e, c) ∈ letterEscapes) (r : List Char) :
    readEscape (e :: r) = .ok (c, r) := by
  have hu : e ≠ 'u' := by rintro rfl; simp [letterEscapes] at h
  unfold readEscape
  split
  next heq => cases heq
  next heq => exact (hu (List.cons.inj heq).1).elim
  next d s _ heq =>
    obtain ⟨rfl, rfl⟩ := List.cons.inj heq
    rw [letterEscape?_eq_some_iff.mpr h]

theorem readChars_literal {c : Char} (h : 32 ≤ c.toNat) (hq : c ≠ '"') (hb : c ≠ '\\')
    (read r : List Char) : readChars read (c :: r) = readChars (c :: read) r := by
  rw [readChars]
  · simp [isControl, Nat.not_lt.mpr h]
  · exact hq
  · exact hb

theorem readChars_escape {c : Char} {s r : List Char} (h : readEscape s = .ok (c, r))
    (read : List Char) : readChars read ('\\' :: s) = readChars (c :: read) r := by
  rw [readChars]
  split
  next heq => rw [h] at heq; cases heq
  next heq => rw [h] at heq; cases heq; rfl

theorem readChars_of_charSpelled {c : Char} {s : List Char} (h : CharSpelled c s)
    (read r : List Char) : readChars read (s ++ r) = readChars (c :: read) r := by
  cases h with
  | literal h hq hb => exact readChars_literal h hq hb read r
  | letter h => exact readChars_escape (readEscape_of_letter h r) read
  | unit h => exact readChars_escape (s := 'u' :: (_ ++ r)) (readCodePoint_of_unit h r) read
  | pair h₁ h₂ h₃ h₄ hc hs ht =>
    have he := readCodePoint_of_pair ⟨h₁, h₂⟩ ⟨h₃, h₄⟩ hc hs ht r
    exact readChars_escape (s := 'u' :: (_ ++ r)) he read

theorem readChars_of_spelled {cs s : List Char} (h : CharsSpelled cs s) (read r : List Char) :
    readChars read (s ++ '"' :: r) = .ok (String.ofList (read.reverse ++ cs), r) := by
  induction h generalizing read with
  | nil => simp [readChars]
  | cons hc _ ih => simp [readChars_of_charSpelled hc, ih]

/-- A spelled string is read to its end, whatever follows. -/
theorem readString_of_spelled {t : String} {s : List Char} (h : StringSpelled t s) :
    ∃ u, s = '"' :: u ∧ ∀ r, readString (u ++ r) = .ok (t, r) := by
  obtain ⟨hs⟩ := h
  refine ⟨_, rfl, fun r => ?_⟩
  simpa [readString] using readChars_of_spelled hs [] r

theorem toNat_ofNat_of_valid {n : Nat} (h : n.isValidChar) : (Char.ofNat n).toNat = n := by
  rw [Char.ofNat, dif_pos h]
  rfl

theorem spelled_of_readTrailing {c : Char} {high : Nat} {s r u : List Char}
    (hh : isLeading high = true) (hu : UnitSpelled high u) (h : readTrailing high s = .ok (c, r)) :
    ∃ t, CharSpelled c ('\\' :: 'u' :: u ++ t) ∧ s = t ++ r := by
  unfold readTrailing at h
  split at h
  next s =>
    split at h
    · cases h
    next low t hn =>
      obtain ⟨w, hw, rfl⟩ := spelled_of_readUnit hn
      split at h
      next hl =>
        simp only [Except.ok.injEq, Prod.mk.injEq] at h
        simp only [isLeading, isTrailing, Bool.and_eq_true, decide_eq_true_eq] at hh hl
        have hv : (pairValue high low).isValidChar := by
          refine Or.inr ⟨?_, ?_⟩ <;> unfold pairValue <;> omega
        have hc : c.toNat = pairValue high low := by rw [← h.1, toNat_ofNat_of_valid hv]
        exact ⟨'\\' :: 'u' :: w, .pair hh.1 hh.2 hl.1 hl.2 hc hu hw, by rw [← h.2]; rfl⟩
      · cases h
  all_goals cases h

theorem spelled_of_readCodePoint {c : Char} {s r : List Char} (h : readCodePoint s = .ok (c, r)) :
    ∃ u, CharSpelled c ('\\' :: 'u' :: u) ∧ s = u ++ r := by
  unfold readCodePoint at h
  split at h
  · cases h
  next n t hn =>
    obtain ⟨u, hu, rfl⟩ := spelled_of_readUnit hn
    have hlt := hu.lt
    split at h
    · cases h
    next htn =>
      split at h
      next hln =>
        obtain ⟨v, hv, rfl⟩ := spelled_of_readTrailing hln hu h
        exact ⟨u ++ v, hv, (List.append_assoc u v r).symm⟩
      next hln =>
        obtain ⟨rfl, rfl⟩ : Char.ofNat n = c ∧ t = r := by simpa using h
        have hv : n.isValidChar := by
          simp only [isTrailing, isLeading, Bool.and_eq_true, decide_eq_true_eq] at htn hln
          unfold Nat.isValidChar
          omega
        refine ⟨u, .unit ?_, rfl⟩
        rwa [toNat_ofNat_of_valid hv]

theorem spelled_of_readEscape {c : Char} {s r : List Char} (h : readEscape s = .ok (c, r)) :
    ∃ u, CharSpelled c ('\\' :: u) ∧ s = u ++ r := by
  unfold readEscape at h
  split at h
  · cases h
  next t =>
    obtain ⟨u, hu, rfl⟩ := spelled_of_readCodePoint h
    exact ⟨'u' :: u, hu, rfl⟩
  next e t _ =>
    split at h
    next d hd =>
      obtain ⟨rfl, rfl⟩ : d = c ∧ t = r := by simpa using h
      exact ⟨[e], .letter (letterEscape?_eq_some_iff.mp hd), rfl⟩
    · cases h

theorem spelled_of_readChars {read s r : List Char} {t : String}
    (h : readChars read s = .ok (t, r)) :
    ∃ cs u, CharsSpelled cs u ∧ s = u ++ '"' :: r ∧ t = String.ofList (read.reverse ++ cs) := by
  fun_induction readChars read s with
  | case1 => cases h
  | case2 read s => cases h; exact ⟨[], [], .nil, rfl, by simp⟩
  | case3 => cases h
  | case4 read s c t hc ih =>
    obtain ⟨cs, u, hu, rfl, rfl⟩ := ih h
    obtain ⟨v, hv, rfl⟩ := spelled_of_readEscape hc
    exact ⟨c :: cs, '\\' :: v ++ u, .cons hv hu, by simp, by simp⟩
  | case5 => cases h
  | case6 read c s hq hb hc ih =>
    obtain ⟨cs, u, hu, rfl, rfl⟩ := ih h
    have h32 : 32 ≤ c.toNat := by simpa [isControl] using hc
    exact ⟨c :: cs, [c] ++ u, .cons (.literal h32 hq hb) hu, rfl, by simp⟩

theorem spelled_of_readString {s r : List Char} {t : String} (h : readString s = .ok (t, r)) :
    ∃ u, StringSpelled t ('"' :: u ++ ['"']) ∧ s = u ++ '"' :: r := by
  obtain ⟨cs, u, hu, rfl, rfl⟩ := spelled_of_readChars h
  refine ⟨u, .mk ?_, rfl⟩
  simpa using hu

end StageMonitor.Json

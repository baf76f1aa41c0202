import Mathlib.Data.List.TakeWhile
import StageMonitor.Proofs.Json.Spelling

/-! # Numbers are read from their spellings

The longest run of digits is taken, so what follows a numeral must not go on with it. A numeral is
an integer by its form and its range alone.
-/

namespace StageMonitor.Json

/-- A text in front of which a run of digits ends. -/
def NoDigit (r : List Char) : Prop :=
  ∀ c ∈ r.head?, c.isDigit = false

/-- A text in front of which a numeral ends. -/
def Stops (r : List Char) : Prop :=
  ∀ c ∈ r.head?, c.isDigit = false ∧ c ≠ '.' ∧ c ≠ 'e' ∧ c ≠ 'E'

theorem Stops.noDigit {r : List Char} (h : Stops r) : NoDigit r :=
  fun c hc => (h c hc).1

theorem takeWhile_digits {cs r : List Char} (h : ∀ d ∈ cs, d.isDigit = true) (hr : NoDigit r) :
    (cs ++ r).takeWhile Char.isDigit = cs := by
  rw [List.takeWhile_append_of_pos h]
  cases r with
  | nil => simp
  | cons c r => simp [hr c rfl]

theorem skipDigits_digits {cs r : List Char} (h : ∀ d ∈ cs, d.isDigit = true) (hr : NoDigit r) :
    skipDigits (cs ++ r) = r := by
  rw [skipDigits, List.dropWhile_append_of_pos h]
  cases r with
  | nil => rfl
  | cons c r => simp [hr c rfl]

theorem takeWhile_append_skipDigits (s : List Char) :
    s.takeWhile Char.isDigit ++ skipDigits s = s :=
  List.takeWhile_append_dropWhile

namespace Numeral

variable {atEnd : Cause}

theorem readWhole_of_spelled {w r : List Char} (h : WholeSpelled w) (hr : NoDigit r) :
    readWhole atEnd (w ++ r) = .ok (w, r) := by
  cases h with
  | zero =>
    have hd : r.head?.any Char.isDigit = false := by
      cases r with
      | nil => rfl
      | cons c r => exact hr c rfl
    simp [readWhole, hd]
  | @digits c cs hc h =>
    obtain ⟨hd, hcs⟩ := List.forall_mem_cons.mp h
    simp [readWhole, hc, hd, takeWhile_digits hcs hr, skipDigits_digits hcs hr]

theorem spelled_of_readWhole {s w r : List Char} (h : readWhole atEnd s = .ok (w, r)) :
    WholeSpelled w ∧ s = w ++ r := by
  unfold readWhole at h
  split at h
  · cases h
  next c t =>
    split at h
    next hc =>
      split at h
      · cases h
      · cases h; exact ⟨hc ▸ .zero, rfl⟩
    next hc =>
      split at h
      next hd =>
        cases h
        refine ⟨.digits hc (List.forall_mem_cons.mpr ⟨hd, fun d => List.mem_takeWhile_imp⟩), ?_⟩
        rw [List.cons_append, takeWhile_append_skipDigits]
      · cases h

theorem readFraction_of_spelled {f s r : List Char} (h : FractionSpelled f s) (hr : NoDigit r)
    (hp : r.head? ≠ some '.') : readFraction atEnd (s ++ r) = .ok (f, r) := by
  cases h with
  | absent =>
    unfold readFraction
    split
    next heq => simp [show r = _ from heq] at hp
    · rfl
  | digits hne h =>
    simp only [List.cons_append, readFraction, takeWhile_digits h hr, skipDigits_digits h hr]

theorem spelled_of_readFraction {f s r : List Char} (h : readFraction atEnd s = .ok (f, r)) :
    ∃ t, FractionSpelled f t ∧ s = t ++ r := by
  unfold readFraction at h
  split at h
  next t =>
    split at h
    · cases h
    next hne =>
      cases h
      refine ⟨'.' :: t.takeWhile Char.isDigit, .digits hne fun d => List.mem_takeWhile_imp, ?_⟩
      rw [List.cons_append, takeWhile_append_skipDigits]
  · cases h; exact ⟨[], .absent, rfl⟩

theorem readExponentDigits_of_digits {negative : Bool} {cs r : List Char} (hne : cs ≠ [])
    (h : ∀ d ∈ cs, d.isDigit = true) (hr : NoDigit r) :
    readExponentDigits atEnd negative (cs ++ r) = .ok (some ⟨negative, cs⟩, r) := by
  rw [readExponentDigits, takeWhile_digits h hr, skipDigits_digits h hr]
  split
  · exact (hne rfl).elim
  · rfl

theorem digits_of_readExponentDigits {negative : Bool} {s r : List Char} {e : Option Exponent}
    (h : readExponentDigits atEnd negative s = .ok (e, r)) :
    ∃ cs, e = some ⟨negative, cs⟩ ∧ cs ≠ [] ∧ (∀ d ∈ cs, d.isDigit = true) ∧ s = cs ++ r := by
  unfold readExponentDigits at h
  split at h
  · cases h
  next hne =>
    cases h
    exact ⟨_, rfl, hne, fun d => List.mem_takeWhile_imp, (takeWhile_append_skipDigits s).symm⟩

theorem readExponent_of_spelled {e : Option Exponent} {s r : List Char} (h : ExponentSpelled e s)
    (hr : Stops r) : readExponent atEnd (s ++ r) = .ok (e, r) := by
  cases h with
  | absent =>
    cases r with
    | nil => rfl
    | cons c r =>
      obtain ⟨_, _, he, hE⟩ := hr c rfl
      simp [readExponent, he, hE]
  | @digits e negative sign cs he hs hne h =>
    have hd : readExponentDigits atEnd negative (cs ++ r) = .ok (some ⟨negative, cs⟩, r) :=
      readExponentDigits_of_digits hne h hr.noDigit
    simp only [List.cons_append, List.append_assoc, readExponent, if_pos he]
    cases hs with
    | plus => exact hd
    | minus => exact hd
    | absent =>
      obtain ⟨c, cs, rfl⟩ := List.exists_cons_of_ne_nil hne
      have hc := h c List.mem_cons_self
      split
      next heq => rw [(List.cons.inj heq).1] at hc; cases hc
      next heq => rw [(List.cons.inj heq).1] at hc; cases hc
      · exact hd

theorem spelled_of_readExponent {e : Option Exponent} {s r : List Char}
    (h : readExponent atEnd s = .ok (e, r)) : ∃ t, ExponentSpelled e t ∧ s = t ++ r := by
  unfold readExponent at h
  split at h
  next c s =>
    split at h
    next hc =>
      split at h
      · obtain ⟨cs, rfl, hne, hd, rfl⟩ := digits_of_readExponentDigits h
        exact ⟨c :: ['+'] ++ cs, .digits hc .plus hne hd, rfl⟩
      · obtain ⟨cs, rfl, hne, hd, rfl⟩ := digits_of_readExponentDigits h
        exact ⟨c :: ['-'] ++ cs, .digits hc .minus hne hd, rfl⟩
      · obtain ⟨cs, rfl, hne, hd, rfl⟩ := digits_of_readExponentDigits h
        exact ⟨c :: [] ++ cs, .digits hc .absent hne hd, rfl⟩
    · cases h; exact ⟨[], .absent, rfl⟩
  · cases h; exact ⟨[], .absent, rfl⟩

theorem ExponentSpelled.noDigit_append {e : Option Exponent} {s r : List Char}
    (h : ExponentSpelled e s) (hr : Stops r) : NoDigit (s ++ r) ∧ (s ++ r).head? ≠ some '.' := by
  cases h with
  | absent => exact ⟨hr.noDigit, fun hc => (hr '.' hc).2.1 rfl⟩
  | digits he => rcases he with rfl | rfl <;> simp [NoDigit]

theorem FractionSpelled.noDigit_append {f s r : List Char} (h : FractionSpelled f s)
    (hr : NoDigit r) : NoDigit (s ++ r) := by
  cases h with
  | absent => exact hr
  | digits => simp [NoDigit]

theorem readUnsigned_of_spelled {negative : Bool} {w f fs es r : List Char} {e : Option Exponent}
    (hw : WholeSpelled w) (hf : FractionSpelled f fs) (he : ExponentSpelled e es) (hr : Stops r) :
    readUnsigned atEnd negative (w ++ (fs ++ (es ++ r))) = .ok (⟨negative, w, f, e⟩, r) := by
  obtain ⟨hd, hp⟩ := he.noDigit_append hr
  simp only [readUnsigned, readWhole_of_spelled hw (hf.noDigit_append hd),
    readFraction_of_spelled hf hd hp, readExponent_of_spelled he hr, bind, Except.bind, pure,
    Except.pure]

theorem spelled_of_readUnsigned {negative : Bool} {n : Numeral} {s r : List Char}
    (h : readUnsigned atEnd negative s = .ok (n, r)) :
    ∃ t, n.negative = negative ∧ Spelled n ((if negative then ['-'] else []) ++ t) ∧
      s = t ++ r := by
  simp only [readUnsigned, bind, Except.bind] at h
  split at h
  · cases h
  next w hw =>
    obtain ⟨hws, hs⟩ := spelled_of_readWhole hw
    split at h
    · cases h
    next f hf =>
      obtain ⟨fs, hfs, hw⟩ := spelled_of_readFraction hf
      split at h
      · cases h
      next e he =>
        obtain ⟨es, hes, hf⟩ := spelled_of_readExponent he
        cases h
        refine ⟨w.1 ++ fs ++ es, rfl, ?_, by simp [hs, hw, hf]⟩
        simpa using Spelled.mk (n := ⟨negative, w.1, f.1, e.1⟩) hws hfs hes

theorem WholeSpelled.head_isDigit {w : List Char} (h : WholeSpelled w) :
    ∃ c cs, w = c :: cs ∧ c.isDigit = true := by
  cases h with
  | zero => exact ⟨'0', [], rfl, rfl⟩
  | digits _ h => exact ⟨_, _, rfl, h _ List.mem_cons_self⟩

/-- A numeral is read to its end if what follows does not go on with it. -/
theorem read_of_spelled {n : Numeral} {s r : List Char} (h : n.Spelled s) (hr : Stops r) :
    read atEnd (s ++ r) = .ok (n, r) := by
  obtain ⟨negative, w, f, e⟩ := n
  obtain ⟨hw, hf, he⟩ := h
  have hu : readUnsigned atEnd negative _ = _ := readUnsigned_of_spelled hw hf he hr
  cases negative with
  | true => simpa [read] using hu
  | false =>
    obtain ⟨c, cs, hc, hd⟩ := hw.head_isDigit
    simp only [Bool.false_eq_true, if_false, List.nil_append, List.append_assoc]
    dsimp only at hc
    rw [hc] at hu ⊢
    unfold read
    split
    next heq => rw [(List.cons.inj heq).1] at hd; cases hd
    · exact hu

theorem spelled_of_read {n : Numeral} {s r : List Char} (h : read atEnd s = .ok (n, r)) :
    ∃ t, n.Spelled t ∧ s = t ++ r := by
  unfold read at h
  split at h
  · obtain ⟨t, -, ht, rfl⟩ := spelled_of_readUnsigned h
    exact ⟨'-' :: t, ht, rfl⟩
  · obtain ⟨t, -, ht, rfl⟩ := spelled_of_readUnsigned h
    exact ⟨t, ht, rfl⟩

end Numeral

section Digits

variable {limit : Nat}

def appendDigit (n : Nat) (c : Char) : Nat :=
  n * 10 + digitValue c

theorem digitsValue_eq (s : List Char) : digitsValue s = s.foldl appendDigit 0 := rfl

theorem le_foldl_appendDigit (n : Nat) (s : List Char) : n ≤ s.foldl appendDigit n := by
  induction s generalizing n with
  | nil => exact Nat.le_refl n
  | cons c s ih =>
    have := ih (appendDigit n c)
    simp only [List.foldl_cons]
    unfold appendDigit at *
    omega

theorem appendDigits_of_le {n : Nat} {s : List Char} (h : s.foldl appendDigit n ≤ limit) :
    appendDigits limit n s = (s.foldl appendDigit n, []) := by
  induction s generalizing n with
  | nil => rfl
  | cons c s ih =>
    have hc : n * 10 + digitValue c ≤ limit := (le_foldl_appendDigit (appendDigit n c) s).trans h
    rw [appendDigits, if_pos hc]
    exact ih h

theorem le_of_appendDigits {n : Nat} {s : List Char} (hn : n ≤ limit)
    (h : (appendDigits limit n s).2 = []) : s.foldl appendDigit n ≤ limit := by
  induction s generalizing n with
  | nil => exact hn
  | cons c s ih =>
    rw [appendDigits] at h
    split at h
    next hc => exact ih hc h
    · cases h

end Digits

namespace Numeral

theorem IsInteger.digitsValue_le {n : Numeral} (h : n.IsInteger) :
    digitsValue n.whole ≤ wordLimit ∧
      (n.negative = true → 0 < digitsValue n.whole ∧ digitsValue n.whole ≤ negativeLimit) := by
  obtain ⟨-, -, hz, hl, hu⟩ := h
  unfold wholeValue at hz hl hu
  unfold wordLimit negativeLimit
  cases hn : n.negative with
  | true =>
    have hpos := hz hn
    rw [hn, if_pos rfl] at hpos hl hu
    omega
  | false =>
    rw [hn, if_neg Bool.false_ne_true] at hl hu
    simp only [Bool.false_eq_true, false_implies, and_true]
    omega

theorem toNumber?_of_isInteger {n : Numeral} (h : n.IsInteger) :
    n.toNumber? = some (.int n.wholeValue) := by
  obtain ⟨hle, hneg⟩ := h.digitsValue_le
  have hd := appendDigits_of_le (n := 0) (s := n.whole) hle
  rw [← digitsValue_eq] at hd
  simp only [toNumber?, hd, h.1, h.2.1, and_self, if_true, integer, wholeValue]
  split
  next hn => rw [if_pos (hneg hn)]; rfl
  · rfl

theorem isInteger_of_toNumber? {n : Numeral} {i : Int} (h : n.toNumber? = some (.int i)) :
    n.IsInteger ∧ i = n.wholeValue := by
  unfold toNumber? at h
  split at h
  next significand left hd =>
    split at h
    next hc =>
      obtain ⟨hf, he, hleft⟩ := hc
      have hle : digitsValue n.whole ≤ wordLimit :=
        le_of_appendDigits (Nat.zero_le _) (by rw [hd]; exact hleft)
      rw [appendDigits_of_le hle] at hd
      obtain ⟨rfl, -⟩ := Prod.mk.inj hd
      rw [← digitsValue_eq, integer] at h
      unfold IsInteger wholeValue
      split at h
      next hn =>
        split at h
        next hr =>
          cases h
          unfold negativeLimit at hr
          simp only [hn, if_true, true_implies]
          refine ⟨⟨hf, he, ?_, ?_, ?_⟩, rfl⟩ <;> omega
        · cases h
      next hn =>
        cases h
        unfold wordLimit at hle
        simp only [hn, Bool.false_eq_true, if_false, false_implies, true_and]
        refine ⟨⟨hf, he, ?_, ?_⟩, trivial⟩ <;> omega
    · simp at h

end Numeral

theorem readNumber_of_spelled {x : Number} {s r : List Char} (h : NumberSpelled x s)
    (hr : Stops r) : readNumber (s ++ r) = .ok (x, r) := by
  cases h with
  | int hs hi => simp [readNumber, Numeral.read_of_spelled hs hr, Numeral.toNumber?_of_isInteger hi]
  | float hs _ hx => simp [readNumber, Numeral.read_of_spelled hs hr, hx]

theorem spelled_of_readNumber {x : Number} {s r : List Char} (h : readNumber s = .ok (x, r)) :
    ∃ t, NumberSpelled x t ∧ s = t ++ r := by
  unfold readNumber at h
  split at h
  · cases h
  next n t hn =>
    obtain ⟨u, hu, rfl⟩ := Numeral.spelled_of_read hn
    split at h
    next y hy =>
      cases h
      cases x with
      | int i =>
        obtain ⟨hi, rfl⟩ := Numeral.isInteger_of_toNumber? hy
        exact ⟨u, .int hu hi, rfl⟩
      | float x =>
        refine ⟨u, .float hu (fun hi => ?_) hy, rfl⟩
        rw [Numeral.toNumber?_of_isInteger hi] at hy
        cases hy
    · cases h

end StageMonitor.Json

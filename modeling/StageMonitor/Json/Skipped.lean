import StageMonitor.Json.Document

/-! # Skipped values

A value that nobody asks for is only checked for its form: any nesting and any number will do. The
brackets that are still open are kept in a list, the innermost first.
-/

namespace StageMonitor.Json

inductive Bracket
  | list
  | object
  deriving DecidableEq, Repr

def skipNumber (s : List Char) : Except Fault (List Char) :=
  (Numeral.read .invalidNumber s).map (·.2)

theorem length_lt_of_skipNumber {s r : List Char} (h : skipNumber s = .ok r) :
    r.length < s.length := by
  unfold skipNumber at h
  cases hs : Numeral.read .invalidNumber s with
  | error fault => simp [hs, Except.map] at h
  | ok nt =>
    simp only [hs, Except.map, Except.ok.injEq] at h
    exact h ▸ Numeral.length_lt_of_read hs

def skipScalar : List Char → Except Fault (List Char)
  | [] => .error (Cause.endInValue.within [])
  | 'n' :: s => readWord ['u', 'l', 'l'] s
  | 't' :: s => readWord ['r', 'u', 'e'] s
  | 'f' :: s => readWord ['a', 'l', 's', 'e'] s
  | '"' :: s => skipString s
  | c :: s =>
    if c = '-' ∨ c.isDigit then skipNumber (c :: s)
    else .error (Cause.expectedValue.within (c :: s))

theorem length_lt_of_skipScalar {s r : List Char} (h : skipScalar s = .ok r) :
    r.length < s.length := by
  unfold skipScalar at h
  split at h
  · cases h
  iterate 3
    · have := length_le_of_readWord h
      simp only [List.length_cons]; omega
  · have := length_lt_of_skipString h
    simp only [List.length_cons]; omega
  · split at h
    · exact length_lt_of_skipNumber h
    · cases h

/-- The quoted key and the colon in front of a value. -/
def skipKey (s : List Char) : Except Fault (List Char) :=
  match skipBlanks s with
  | [] => .error (Cause.endInObject.within [])
  | '"' :: r =>
    match skipString r with
    | .error fault => .error fault
    | .ok t => colon t
  | t => .error (Cause.keyNotString.within t)

theorem length_lt_of_skipKey {s r : List Char} (h : skipKey s = .ok r) :
    r.length < s.length := by
  unfold skipKey at h
  split at h
  · cases h
  next t ht =>
    split at h
    · cases h
    next u hu =>
      have := length_lt_of_skipBlanks ht
      have := length_lt_of_skipString hu
      have := length_lt_of_colon h
      omega
  · cases h

namespace Bracket

def closing : Bracket → Char
  | list => ']'
  | object => '\x7d'

def atEnd : Bracket → Cause
  | list => .endInList
  | object => .endInObject

def expectedComma : Bracket → Cause
  | list => .expectedCommaInList
  | object => .expectedCommaInObject

/-- What stands in front of the value of the next entry. -/
def skipEntry : Bracket → List Char → Except Fault (List Char)
  | list, s => .ok s
  | object, s => skipKey s

theorem length_le_of_skipEntry {b : Bracket} {s r : List Char} (h : b.skipEntry s = .ok r) :
    r.length ≤ s.length := by
  cases b with
  | list => cases h; exact Nat.le_refl _
  | object => exact Nat.le_of_lt (length_lt_of_skipKey h)

end Bracket

mutual

/-- Skips a value, and then what ends the open brackets around it. -/
def skipValue (around : List Bracket) (s : List Char) : Except Fault (List Char) :=
  match _h : skipBlanks s with
  | '[' :: r => skipOpened .list around r
  | '\x7b' :: r => skipOpened .object around r
  | r =>
    match _hr : skipScalar r with
    | .error fault => .error fault
    | .ok t => skipRest around t
termination_by (s.length, 0)
decreasing_by
  · have := length_lt_of_skipBlanks _h
    exact Prod.Lex.left _ _ this
  · have := length_lt_of_skipBlanks _h
    exact Prod.Lex.left _ _ this
  · have := skipBlanks_length_le s
    have := length_lt_of_skipScalar _hr
    exact Prod.Lex.left _ _ (by rw [_h] at *; omega)

/-- Goes on after an opening bracket. -/
def skipOpened (b : Bracket) (around : List Bracket) (s : List Char) : Except Fault (List Char) :=
  match _h : skipBlanks s with
  | [] => .error (b.atEnd.within [])
  | c :: r =>
    if c = b.closing then skipRest around r
    else
      match _hr : b.skipEntry (c :: r) with
      | .error fault => .error fault
      | .ok t => skipValue (b :: around) t
termination_by (s.length, 1)
decreasing_by
  · have := length_lt_of_skipBlanks _h
    exact Prod.Lex.left _ _ this
  · have := skipBlanks_length_le s
    have := Bracket.length_le_of_skipEntry _hr
    rw [_h] at *
    rcases Nat.lt_or_ge t.length s.length with ht | ht
    · exact Prod.Lex.left _ _ ht
    · have : t.length = s.length := by omega
      rw [this]; exact Prod.Lex.right _ (by omega)

/-- Goes on after a value inside the open brackets. -/
def skipRest (around : List Bracket) (s : List Char) : Except Fault (List Char) :=
  match around with
  | [] => .ok s
  | b :: around =>
    match _h : skipBlanks s with
    | [] => .error (b.atEnd.within [])
    | c :: r =>
      if c = ',' then
        match _hr : b.skipEntry r with
        | .error fault => .error fault
        | .ok t => skipValue (b :: around) t
      else if c = b.closing then skipRest around r
      else .error (b.expectedComma.within (c :: r))
termination_by (s.length, 1)
decreasing_by
  · have := length_lt_of_skipBlanks _h
    have := Bracket.length_le_of_skipEntry _hr
    exact Prod.Lex.left _ _ (by omega)
  · have := length_lt_of_skipBlanks _h
    exact Prod.Lex.left _ _ this

end

private theorem length_of_skip (n : Nat) {s : List Char} (hn : s.length ≤ n) :
    (∀ {around r}, skipValue around s = .ok r → r.length < s.length) ∧
    (∀ {b around r}, skipOpened b around s = .ok r → r.length < s.length) ∧
    (∀ {around r}, skipRest around s = .ok r → r.length ≤ s.length) := by
  induction n generalizing s with
  | zero =>
    have : s = [] := List.eq_nil_of_length_eq_zero (by omega)
    subst this
    refine ⟨fun {around r} h => ?_, fun {b around r} h => ?_, fun {around r} h => ?_⟩
    · rw [skipValue] at h; cases h
    · rw [skipOpened] at h; cases h
    · cases around with
      | nil => rw [skipRest] at h; cases h; exact Nat.le_refl _
      | cons b around => rw [skipRest] at h; cases h
  | succ n ih =>
    have value {u} (hu : u.length ≤ n + 1) {around r} (h : skipValue around u = .ok r) :
        r.length < u.length := by
      have hu := skipBlanks_length_le u
      rw [skipValue] at h
      split at h
      next t ht =>
        have := length_lt_of_skipBlanks ht
        have := (ih (by omega)).2.1 h
        omega
      next t ht =>
        have := length_lt_of_skipBlanks ht
        have := (ih (by omega)).2.1 h
        omega
      next =>
        split at h
        · cases h
        next t ht =>
          have := length_lt_of_skipScalar ht
          have := (ih (by omega)).2.2 h
          omega
    have hs := skipBlanks_length_le s
    refine ⟨value hn, fun {b around r} h => ?_, fun {around r} h => ?_⟩
    · rw [skipOpened] at h
      split at h
      · cases h
      next c t ht =>
        have := length_lt_of_skipBlanks ht
        split at h
        · have := (ih (by omega)).2.2 h
          omega
        · split at h
          · cases h
          next u hu =>
            have := Bracket.length_le_of_skipEntry hu
            rw [ht] at hs
            have := value (by omega) h
            omega
    · cases around with
      | nil => rw [skipRest] at h; cases h; exact Nat.le_refl _
      | cons b around =>
        rw [skipRest] at h
        split at h
        · cases h
        next c t ht =>
          have := length_lt_of_skipBlanks ht
          split at h
          · split at h
            · cases h
            next u hu =>
              have := Bracket.length_le_of_skipEntry hu
              have := value (by omega) h
              omega
          · split at h
            · have := (ih (by omega)).2.2 h
              omega
            · cases h

theorem length_lt_of_skipValue {around : List Bracket} {s r : List Char}
    (h : skipValue around s = .ok r) : r.length < s.length :=
  (length_of_skip s.length (Nat.le_refl _)).1 h

/-- Skips one value. -/
def skipper : Reader Unit where
  run s :=
    match skipValue [] s with
    | .error fault => .error fault
    | .ok r => .ok ((), r)
  shorter h := by
    split at h
    · cases h
    · cases h; exact length_lt_of_skipValue ‹_›

end StageMonitor.Json

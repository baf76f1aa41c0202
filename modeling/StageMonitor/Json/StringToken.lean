import StageMonitor.Json.Reader

/-! # String tokens

The text between two quotes. Reading one resolves its escapes and wants surrogates in pairs;
skipping one only looks for its end and at the form of its escapes.
-/

namespace StageMonitor.Json

open Text

def hexValue? (c : Char) : Option Nat :=
  if '0' ≤ c ∧ c ≤ '9' then some (c.toNat - '0'.toNat)
  else if 'a' ≤ c ∧ c ≤ 'f' then some (c.toNat - 'a'.toNat + 10)
  else if 'A' ≤ c ∧ c ≤ 'F' then some (c.toNat - 'A'.toNat + 10)
  else none

def hexUnit? (a b c d : Char) : Option Nat := do
  let w ← hexValue? a
  let x ← hexValue? b
  let y ← hexValue? c
  let z ← hexValue? d
  return ((w * 16 + x) * 16 + y) * 16 + z

/-- A text that does not start with four hexadecimal digits. The next four bytes count as read. -/
def unitFault (s : List Char) : Fault :=
  if byteLength s < 4 then Cause.endInString.before []
  else ⟨.invalidEscape, byteLength s - 4⟩

/-- A code unit, spelled with four hexadecimal digits. -/
def readUnit : List Char → Outcome Nat
  | a :: b :: c :: d :: r =>
    match hexUnit? a b c d with
    | some n => .ok (n, r)
    | none => .error (unitFault (a :: b :: c :: d :: r))
  | s => .error (unitFault s)

theorem length_lt_of_readUnit {s r : List Char} {n : Nat} (h : readUnit s = .ok (n, r)) :
    r.length < s.length := by
  unfold readUnit at h
  split at h
  · split at h
    · cases h; simp only [List.length_cons]; omega
    · cases h
  · cases h

def isLeading (n : Nat) : Bool :=
  0xD800 ≤ n && n < 0xDC00

def isTrailing (n : Nat) : Bool :=
  0xDC00 ≤ n && n < 0xE000

def pairValue (leading trailing : Nat) : Nat :=
  0x10000 + (leading - 0xD800) * 0x400 + (trailing - 0xDC00)

/-- The second half of a surrogate pair. -/
def readTrailing (leading : Nat) : List Char → Outcome Char
  | '\\' :: 'u' :: s =>
    match readUnit s with
    | .error fault => .error fault
    | .ok (n, r) =>
      if isTrailing n then .ok (Char.ofNat (pairValue leading n), r)
      else .error (Cause.loneSurrogate.before r)
  | [] => .error (Cause.endInString.before [])
  | ['\\'] => .error (Cause.endInString.before [])
  | '\\' :: s => .error (Cause.unpairedSurrogate.within s)
  | s => .error (Cause.unpairedSurrogate.within s)

theorem length_lt_of_readTrailing {leading : Nat} {s r : List Char} {c : Char}
    (h : readTrailing leading s = .ok (c, r)) : r.length < s.length := by
  unfold readTrailing at h
  split at h
  · split at h
    · cases h
    next n t hn =>
      have := length_lt_of_readUnit hn
      split at h
      · simp only [Except.ok.injEq, Prod.mk.injEq] at h
        rw [← h.2]; simp only [List.length_cons]; omega
      · cases h
  all_goals cases h

def readCodePoint (s : List Char) : Outcome Char :=
  match readUnit s with
  | .error fault => .error fault
  | .ok (n, r) =>
    if isTrailing n then .error (Cause.loneSurrogate.before r)
    else if isLeading n then readTrailing n r
    else .ok (Char.ofNat n, r)

theorem length_lt_of_readCodePoint {s r : List Char} {c : Char}
    (h : readCodePoint s = .ok (c, r)) : r.length < s.length := by
  unfold readCodePoint at h
  split at h
  · cases h
  next n t hn =>
    have := length_lt_of_readUnit hn
    split at h
    · cases h
    split at h
    · have := length_lt_of_readTrailing h; omega
    · cases h; assumption

def letterEscape? (c : Char) : Option Char :=
  match c with
  | '"' => some '"'
  | '\\' => some '\\'
  | '/' => some '/'
  | 'b' => some '\x08'
  | 'f' => some '\x0c'
  | 'n' => some '\n'
  | 'r' => some '\r'
  | 't' => some '\t'
  | _ => none

/-- What follows a backslash. -/
def readEscape : List Char → Outcome Char
  | [] => .error (Cause.endInString.before [])
  | 'u' :: s => readCodePoint s
  | c :: s =>
    match letterEscape? c with
    | some d => .ok (d, s)
    | none => .error (Cause.invalidEscape.within (c :: s))

theorem length_lt_of_readEscape {s r : List Char} {c : Char}
    (h : readEscape s = .ok (c, r)) : r.length < s.length := by
  unfold readEscape at h
  split at h
  · cases h
  · have := length_lt_of_readCodePoint h
    simp only [List.length_cons]; omega
  · split at h
    · cases h; simp
    · cases h

def isControl (c : Char) : Bool :=
  c.toNat < 32

/-- The rest of a string whose characters so far are `read`, the last one first. -/
def readChars (read : List Char) (s : List Char) : Outcome String :=
  match s with
  | [] => .error (Cause.endInString.before [])
  | '"' :: r => .ok (String.ofList read.reverse, r)
  | '\\' :: r =>
    match _h : readEscape r with
    | .error fault => .error fault
    | .ok (c, t) => readChars (c :: read) t
  | c :: r =>
    if isControl c then .error (Cause.controlCharacter.within (c :: r)) else readChars (c :: read) r
termination_by s.length
decreasing_by
  · have := length_lt_of_readEscape _h
    simp only [List.length_cons]; omega
  · simp

/-- The string that ends at the next quote. -/
def readString (s : List Char) : Outcome String :=
  readChars [] s

theorem length_lt_of_readChars {read s r : List Char} {t : String}
    (h : readChars read s = .ok (t, r)) : r.length < s.length := by
  fun_induction readChars read s with
  | case1 => cases h
  | case2 => cases h; simp
  | case3 => cases h
  | case4 read s c u hc ih =>
    have := ih h
    have := length_lt_of_readEscape hc
    simp only [List.length_cons]; omega
  | case5 => cases h
  | case6 read c s _ _ _ ih =>
    have := ih h
    simp only [List.length_cons]; omega

theorem length_lt_of_readString {s r : List Char} {t : String} (h : readString s = .ok (t, r)) :
    r.length < s.length :=
  length_lt_of_readChars h

def skipEscape : List Char → Except Fault (List Char)
  | [] => .error (Cause.endInString.before [])
  | 'u' :: s => (readUnit s).map (·.2)
  | c :: s =>
    match letterEscape? c with
    | some _ => .ok s
    | none => .error (Cause.invalidEscape.within (c :: s))

theorem length_lt_of_skipEscape {s r : List Char} (h : skipEscape s = .ok r) :
    r.length < s.length := by
  unfold skipEscape at h
  split at h
  · cases h
  next t =>
    cases ht : readUnit t with
    | error fault => simp [ht, Except.map] at h
    | ok nr =>
      simp only [ht, Except.map, Except.ok.injEq] at h
      have := length_lt_of_readUnit ht
      simp only [List.length_cons]; subst h; omega
  · split at h
    · cases h; simp
    · cases h

/-- The text after the next closing quote. -/
def skipString (s : List Char) : Except Fault (List Char) :=
  match s with
  | [] => .error (Cause.endInString.before [])
  | '"' :: r => .ok r
  | '\\' :: r =>
    match _h : skipEscape r with
    | .error fault => .error fault
    | .ok t => skipString t
  | c :: r =>
    if isControl c then .error (Cause.controlCharacter.before (c :: r)) else skipString r
termination_by s.length
decreasing_by
  · have := length_lt_of_skipEscape _h
    simp only [List.length_cons]; omega
  · simp

theorem length_lt_of_skipString {s r : List Char} (h : skipString s = .ok r) :
    r.length < s.length := by
  fun_induction skipString s with
  | case1 => cases h
  | case2 => cases h; simp
  | case3 => cases h
  | case4 s t ht ih =>
    have := ih h
    have := length_lt_of_skipEscape ht
    simp only [List.length_cons]; omega
  | case5 => cases h
  | case6 c s _ _ _ ih =>
    have := ih h
    simp only [List.length_cons]; omega

end StageMonitor.Json

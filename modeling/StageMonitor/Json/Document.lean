import StageMonitor.Json.Container
import StageMonitor.Json.Layout
import StageMonitor.Json.Numeral

/-! # Documents

A document is one value with blanks around it. A stored value is read in canonical form, and its
lists and objects may be nested to a limit.
-/

namespace StageMonitor.Json

/-- A word of which the first letter is read already. -/
def readWord : List Char → List Char → Except Fault (List Char)
  | [], s => .ok s
  | _ :: _, [] => .error (Cause.endInValue.before [])
  | w :: word, c :: s =>
    if c = w then readWord word s else .error (Cause.expectedWord.within (c :: s))

theorem length_le_of_readWord {word s r : List Char} (h : readWord word s = .ok r) :
    r.length ≤ s.length := by
  fun_induction readWord word s with
  | case1 => cases h; exact Nat.le_refl _
  | case2 => cases h
  | case3 word c s ih =>
    have := ih h
    simp only [List.length_cons]; omega
  | case4 => cases h

def wordAs (a : Scalar) (word s : List Char) : Outcome Scalar :=
  match readWord word s with
  | .error fault => .error fault
  | .ok r => .ok (a, r)

theorem length_le_of_wordAs {a b : Scalar} {word s r : List Char}
    (h : wordAs a word s = .ok (b, r)) : r.length ≤ s.length := by
  unfold wordAs at h
  split at h
  · cases h
  · cases h; exact length_le_of_readWord ‹_›

def readScalar : List Char → Outcome Scalar
  | [] => .error (Cause.endInValue.within [])
  | 'n' :: s => wordAs .null ['u', 'l', 'l'] s
  | 't' :: s => wordAs (.bool true) ['r', 'u', 'e'] s
  | 'f' :: s => wordAs (.bool false) ['a', 'l', 's', 'e'] s
  | '"' :: s =>
    match readString s with
    | .error fault => .error fault
    | .ok (t, r) => .ok (.string t, r)
  | c :: s =>
    if c = '-' ∨ c.isDigit then
      match readNumber (c :: s) with
      | .error fault => .error fault
      | .ok (n, r) => .ok (.number n, r)
    else .error (Cause.expectedValue.within (c :: s))

theorem length_lt_of_readScalar {s r : List Char} {a : Scalar} (h : readScalar s = .ok (a, r)) :
    r.length < s.length := by
  unfold readScalar at h
  split at h
  · cases h
  iterate 3
    · have := length_le_of_wordAs h
      simp only [List.length_cons]; omega
  · split at h
    · cases h
    next t u ht =>
      cases h
      have := length_lt_of_readString ht
      simp only [List.length_cons]; omega
  · split at h
    · split at h
      · cases h
      next n u hn => cases h; exact length_lt_of_readNumber hn
    · cases h

namespace Value

def member (item : Reader Value) (ms : List Member) (key : String) : Reader (List Member) :=
  item.afterColon.map fun v => insertMember key v ms

/-- Reads a value whose items and members, if it may have any, are read by `inside`. -/
def readInside (inside : Option (Reader Value)) (s : List Char) : Outcome Value :=
  match skipBlanks s with
  | '[' :: r =>
    match inside with
    | none => .error (Cause.tooDeep.within ('[' :: r))
    | some item =>
      match item.items [] r with
      | .error fault => .error fault
      | .ok (vs, t) => .ok (array vs, t)
  | '\x7b' :: r =>
    match inside with
    | none => .error (Cause.tooDeep.within ('\x7b' :: r))
    | some item =>
      match Reader.members (member item) true [] r with
      | .error fault => .error fault
      | .ok (ms, t) => .ok (object ms, t)
  | r =>
    match readScalar r with
    | .error fault => .error fault
    | .ok (a, t) => .ok (scalar a, t)

theorem length_lt_of_readInside {inside : Option (Reader Value)} {s r : List Char} {v : Value}
    (h : readInside inside s = .ok (v, r)) : r.length < s.length := by
  have hs := skipBlanks_length_le s
  unfold readInside at h
  split at h
  next t ht =>
    have := length_lt_of_skipBlanks ht
    split at h
    · cases h
    · split at h
      · cases h
      next vs u hu =>
        cases h
        have := Reader.length_lt_of_items hu
        omega
  next t ht =>
    have := length_lt_of_skipBlanks ht
    split at h
    · cases h
    · split at h
      · cases h
      next ms u hu =>
        cases h
        have := Reader.length_lt_of_members hu
        omega
  next =>
    split at h
    · cases h
    next a u ha =>
      cases h
      have := length_lt_of_readScalar ha
      omega

def inside (reader : Option (Reader Value)) : Reader Value where
  run := readInside reader
  shorter := length_lt_of_readInside

/-- Reads a value with at most `depth` lists and objects around one another. -/
def reader : Nat → Reader Value
  | 0 => inside none
  | depth + 1 => inside (some (reader depth))

end Value

def depthLimit : Nat := 127

/-- The value of a whole text. -/
def Reader.readAll {α : Type} (reader : Reader α) (s : List Char) : Except Fault α :=
  match reader.run s with
  | .error fault => .error fault
  | .ok (a, r) =>
    match skipBlanks r with
    | [] => .ok a
    | t => .error (Cause.trailingCharacters.within t)

def Reader.readDocument {α : Type} (reader : Reader α) (document : String) : Except Rejection α :=
  match reader.readAll document.toList with
  | .error fault => .error ⟨fault.cause, fault.position document.toList⟩
  | .ok a => .ok a

def Value.ofDocument (document : String) : Except Rejection Value :=
  (reader depthLimit).readDocument document

end StageMonitor.Json

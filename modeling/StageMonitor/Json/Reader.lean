import StageMonitor.Json.Fault

/-! # Readers

A reader takes a non-empty front part of a text and leaves the rest, so whatever is read over and
over comes to an end. The brackets, commas and colons around the entries of lists and objects are
read here.
-/

namespace StageMonitor.Json

abbrev Outcome (α : Type) := Except Fault (α × List Char)

structure Reader (α : Type) where
  run : List Char → Outcome α
  shorter : ∀ {s a r}, run s = .ok (a, r) → r.length < s.length

def isBlank (c : Char) : Bool :=
  c = ' ' || c = '\n' || c = '\t' || c = '\r'

def skipBlanks (s : List Char) : List Char :=
  s.dropWhile isBlank

theorem skipBlanks_length_le (s : List Char) : (skipBlanks s).length ≤ s.length :=
  (List.dropWhile_sublist _).length_le

theorem length_lt_of_skipBlanks {s r : List Char} {c : Char} (h : skipBlanks s = c :: r) :
    r.length < s.length := by
  have := skipBlanks_length_le s
  rw [h] at this
  exact this

/-- The text of the next item of a list, or none in front of the closing bracket. -/
def nextItem (first : Bool) (s : List Char) : Except Fault (Option (List Char)) :=
  match skipBlanks s with
  | [] => .error (Cause.endInList.within [])
  | ']' :: _ => .ok none
  | c :: r =>
    if first then .ok (some (c :: r))
    else if c = ',' then
      match skipBlanks r with
      | [] => .error (Cause.endInValue.within [])
      | ']' :: t => .error (Cause.trailingComma.within (']' :: t))
      | t => .ok (some t)
    else .error (Cause.expectedCommaInList.within (c :: r))

theorem length_le_of_nextItem {first : Bool} {s t : List Char}
    (h : nextItem first s = .ok (some t)) : t.length ≤ s.length := by
  have hs := skipBlanks_length_le s
  unfold nextItem at h
  split at h
  · cases h
  · cases h
  next c r _ hc =>
    rw [hc, List.length_cons] at hs
    have hr := skipBlanks_length_le r
    split at h
    · cases h; exact hs
    split at h
    · split at h
      · cases h
      · cases h
      · cases h; omega
    · cases h

/-- The text after the opening quote of a key. -/
def openKey : List Char → Except Fault (List Char)
  | '"' :: r => .ok r
  | [] => .error (Cause.endInValue.within [])
  | '\x7d' :: r => .error (Cause.trailingComma.within ('\x7d' :: r))
  | s => .error (Cause.keyNotString.within s)

theorem length_lt_of_openKey {s t : List Char} (h : openKey s = .ok t) : t.length < s.length := by
  unfold openKey at h
  split at h
  · cases h; simp
  all_goals cases h

/-- The text after the opening quote of the next key of an object, or none in front of the closing
brace. -/
def nextKey (first : Bool) (s : List Char) : Except Fault (Option (List Char)) :=
  match skipBlanks s with
  | [] => .error (Cause.endInObject.within [])
  | '\x7d' :: _ => .ok none
  | c :: r =>
    if first then (openKey (c :: r)).map some
    else if c = ',' then (openKey (skipBlanks r)).map some
    else .error (Cause.expectedCommaInObject.within (c :: r))

theorem length_lt_of_nextKey {first : Bool} {s t : List Char}
    (h : nextKey first s = .ok (some t)) : t.length < s.length := by
  have hs := skipBlanks_length_le s
  have key {u : List Char} (hu : (openKey u).map some = .ok (some t)) : t.length < u.length := by
    cases ho : openKey u with
    | error e => simp [ho, Except.map] at hu
    | ok v =>
      simp only [ho, Except.map, Except.ok.injEq, Option.some.injEq] at hu
      exact hu ▸ length_lt_of_openKey ho
  unfold nextKey at h
  split at h
  · cases h
  · cases h
  next c r _ hc =>
    rw [hc, List.length_cons] at hs
    have hr := skipBlanks_length_le r
    split at h
    · have := key h; simp only [List.length_cons] at this; omega
    · split at h
      · have := key h; omega
      · cases h

def closeList (s : List Char) : Except Fault (List Char) :=
  match skipBlanks s with
  | [] => .error (Cause.endInList.within [])
  | ']' :: r => .ok r
  | ',' :: r =>
    match skipBlanks r with
    | ']' :: t => .error (Cause.trailingComma.within (']' :: t))
    | t => .error (Cause.trailingCharacters.within t)
  | t => .error (Cause.trailingCharacters.within t)

theorem length_lt_of_closeList {s t : List Char} (h : closeList s = .ok t) :
    t.length < s.length := by
  unfold closeList at h
  split at h
  · cases h
  · cases h; exact length_lt_of_skipBlanks ‹_›
  · split at h <;> cases h
  · cases h

def closeObject (s : List Char) : Except Fault (List Char) :=
  match skipBlanks s with
  | [] => .error (Cause.endInObject.within [])
  | '\x7d' :: r => .ok r
  | ',' :: r => .error (Cause.trailingComma.within (',' :: r))
  | t => .error (Cause.trailingCharacters.within t)

theorem length_lt_of_closeObject {s t : List Char} (h : closeObject s = .ok t) :
    t.length < s.length := by
  unfold closeObject at h
  split at h
  · cases h
  · cases h; exact length_lt_of_skipBlanks ‹_›
  all_goals cases h

def colon (s : List Char) : Except Fault (List Char) :=
  match skipBlanks s with
  | [] => .error (Cause.endInObject.within [])
  | ':' :: r => .ok r
  | t => .error (Cause.expectedColon.within t)

theorem length_lt_of_colon {s t : List Char} (h : colon s = .ok t) : t.length < s.length := by
  unfold colon at h
  split at h
  · cases h
  · cases h; exact length_lt_of_skipBlanks ‹_›
  · cases h

end StageMonitor.Json

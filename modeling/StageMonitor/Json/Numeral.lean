import StageMonitor.Json.Reader

/-! # Numerals

The digits of a number as they are written, and the number they stand for. Only an integer whose
digits fit in a machine word stays an integer; every other numeral becomes a floating number, from
the digits that fit and a power of ten for the others.
-/

namespace StageMonitor.Json

open Text

structure Exponent where
  negative : Bool
  digits : List Char
  deriving DecidableEq, Repr

/-- A fraction that is written has digits. -/
structure Numeral where
  negative : Bool
  whole : List Char
  fraction : List Char
  exponent : Option Exponent
  deriving DecidableEq, Repr

def skipDigits (s : List Char) : List Char :=
  s.dropWhile Char.isDigit

theorem skipDigits_length_le (s : List Char) : (skipDigits s).length ≤ s.length :=
  (List.dropWhile_sublist _).length_le

namespace Numeral

/-- The digits before the point: a zero alone, or digits that do not start with zero. `atEnd` is the
cause if the text ends too soon, here and below. -/
def readWhole (atEnd : Cause) : List Char → Outcome (List Char)
  | [] => .error (atEnd.before [])
  | c :: s =>
    if c = '0' then
      if s.head?.any Char.isDigit then .error (Cause.invalidNumber.within s) else .ok ([c], s)
    else if c.isDigit then .ok (c :: s.takeWhile Char.isDigit, skipDigits s)
    else .error (Cause.invalidNumber.within (c :: s))

def readFraction (atEnd : Cause) : List Char → Outcome (List Char)
  | '.' :: s =>
    match s.takeWhile Char.isDigit with
    | [] => .error ((if s = [] then atEnd else .invalidNumber).within s)
    | digits => .ok (digits, skipDigits s)
  | s => .ok ([], s)

def readExponentDigits (atEnd : Cause) (negative : Bool) (s : List Char) :
    Outcome (Option Exponent) :=
  match s.takeWhile Char.isDigit with
  | [] => .error ((if s = [] then atEnd else .invalidNumber).within s)
  | digits => .ok (some ⟨negative, digits⟩, skipDigits s)

def readExponent (atEnd : Cause) : List Char → Outcome (Option Exponent)
  | c :: s =>
    if c = 'e' ∨ c = 'E' then
      match s with
      | '+' :: t => readExponentDigits atEnd false t
      | '-' :: t => readExponentDigits atEnd true t
      | t => readExponentDigits atEnd false t
    else .ok (none, c :: s)
  | [] => .ok (none, [])

def readUnsigned (atEnd : Cause) (negative : Bool) (s : List Char) :
    Except Fault (Numeral × List Char) := do
  let (whole, s) ← readWhole atEnd s
  let (fraction, s) ← readFraction atEnd s
  let (exponent, s) ← readExponent atEnd s
  return (⟨negative, whole, fraction, exponent⟩, s)

def read (atEnd : Cause) : List Char → Outcome Numeral
  | '-' :: s => readUnsigned atEnd true s
  | s => readUnsigned atEnd false s

theorem length_lt_of_readWhole {atEnd : Cause} {s r ds : List Char}
    (h : readWhole atEnd s = .ok (ds, r)) : r.length < s.length := by
  unfold readWhole at h
  split at h
  · cases h
  next c t =>
    have := skipDigits_length_le t
    split at h
    · split at h
      · cases h
      · cases h; simp
    · split at h
      · cases h; simp only [List.length_cons]; omega
      · cases h

theorem length_le_of_readFraction {atEnd : Cause} {s r ds : List Char}
    (h : readFraction atEnd s = .ok (ds, r)) : r.length ≤ s.length := by
  unfold readFraction at h
  split at h
  next t =>
    have := skipDigits_length_le t
    split at h
    · cases h
    · cases h; simp only [List.length_cons]; omega
  · cases h; exact Nat.le_refl _

theorem length_le_of_readExponentDigits {atEnd : Cause} {negative : Bool} {s r : List Char}
    {e : Option Exponent} (h : readExponentDigits atEnd negative s = .ok (e, r)) :
    r.length ≤ s.length := by
  unfold readExponentDigits at h
  split at h
  · cases h
  · cases h; exact skipDigits_length_le s

theorem length_le_of_readExponent {atEnd : Cause} {s r : List Char} {e : Option Exponent}
    (h : readExponent atEnd s = .ok (e, r)) : r.length ≤ s.length := by
  unfold readExponent at h
  split at h
  · split at h
    · split at h
      all_goals
        have := length_le_of_readExponentDigits h
        simp only [List.length_cons] at *
        omega
    · cases h; exact Nat.le_refl _
  · cases h; exact Nat.le_refl _

theorem length_lt_of_readUnsigned {atEnd : Cause} {negative : Bool} {s r : List Char} {n : Numeral}
    (h : readUnsigned atEnd negative s = .ok (n, r)) : r.length < s.length := by
  simp only [readUnsigned, bind, Except.bind] at h
  split at h
  · cases h
  next w hw =>
    have := length_lt_of_readWhole hw
    split at h
    · cases h
    next f hf =>
      have := length_le_of_readFraction hf
      split at h
      · cases h
      next e he =>
        have := length_le_of_readExponent he
        cases h; omega

theorem length_lt_of_read {atEnd : Cause} {s r : List Char} {n : Numeral}
    (h : read atEnd s = .ok (n, r)) : r.length < s.length := by
  unfold read at h
  split at h
  · have := length_lt_of_readUnsigned h
    simp only [List.length_cons]; omega
  · exact length_lt_of_readUnsigned h

end Numeral

def digitValue (c : Char) : Nat :=
  c.toNat - '0'.toNat

def digitsValue (s : List Char) : Nat :=
  s.foldl (fun n c => n * 10 + digitValue c) 0

/-- Appends digits to a number while it stays within a limit; the digits left over start with the
first one that does not fit. -/
def appendDigits (limit : Nat) : Nat → List Char → Nat × List Char
  | n, [] => (n, [])
  | n, c :: s =>
    if n * 10 + digitValue c ≤ limit then appendDigits limit (n * 10 + digitValue c) s
    else (n, c :: s)

/-- The greatest integer, `2 ^ 64 - 1`. -/
def wordLimit : Nat := 0xFFFFFFFFFFFFFFFF

/-- The greatest magnitude of a negative integer, `2 ^ 63`. -/
def negativeLimit : Nat := 0x8000000000000000

/-- The limit of a growing exponent, `2 ^ 31 - 1`. -/
def exponentLimit : Nat := 0x7FFFFFFF

def powerOfTen (n : Nat) : Float :=
  Float.ofScientific 1 false n

/-- Divides by a power of ten, in steps that a floating number can hold. -/
def divideByPower (x : Float) (n : Nat) : Float :=
  if n ≤ 308 then x / powerOfTen n
  else if x == 0 then x
  else divideByPower (x / powerOfTen 308) (n - 308)
termination_by n
decreasing_by omega

/-- The floating number `significand * 10 ^ exponent`, if it is in range. -/
def scale? (significand : Nat) (exponent : Int) : Option Float :=
  let x := significand.toUInt64.toFloat
  if exponent < 0 then some (divideByPower x exponent.natAbs)
  else if exponent ≤ 308 then
    let y := x * powerOfTen exponent.natAbs
    if y.isInf then none else some y
  else if x == 0 then some x
  else none

namespace Exponent

def value (e : Exponent) : Int :=
  if e.negative then -Int.ofNat (digitsValue e.digits) else Int.ofNat (digitsValue e.digits)

/-- The digits after the one with which a growing exponent passes its limit. -/
def excess (e : Exponent) : List Char :=
  if e.negative then [] else (appendDigits exponentLimit 0 e.digits).2.drop 1

end Exponent

namespace Numeral

def exponentValue (n : Numeral) : Int :=
  match n.exponent with
  | some e => e.value
  | none => 0

def integer (negative : Bool) (n : Nat) : Number :=
  if negative then
    if 0 < n ∧ n ≤ negativeLimit then .int (-Int.ofNat n) else .float (-n.toUInt64.toFloat)
  else .int n

def toNumber? (n : Numeral) : Option Number :=
  let (significand, wholeLeft) := appendDigits wordLimit 0 n.whole
  if n.fraction = [] ∧ n.exponent = none ∧ wholeLeft = [] then
    some (integer n.negative significand)
  else
    let (significand, fractionLeft) := appendDigits wordLimit significand n.fraction
    let exponent := Int.ofNat (wholeLeft.length + fractionLeft.length) - n.fraction.length
    (scale? significand (exponent + n.exponentValue)).map fun x =>
      .float (if n.negative then -x else x)

/-- A numeral out of range is noticed at its end, or at the digit that takes a growing exponent past
its limit. -/
def outOfRange (n : Numeral) (r : List Char) : Fault :=
  match n.exponent with
  | some e => Cause.numberOutOfRange.before (e.excess ++ r)
  | none => Cause.numberOutOfRange.before r

end Numeral

def readNumber (s : List Char) : Outcome Number :=
  match Numeral.read .endInValue s with
  | .error fault => .error fault
  | .ok (n, r) =>
    match n.toNumber? with
    | some x => .ok (x, r)
    | none => .error (n.outOfRange r)

theorem length_lt_of_readNumber {s r : List Char} {x : Number} (h : readNumber s = .ok (x, r)) :
    r.length < s.length := by
  unfold readNumber at h
  split at h
  · cases h
  next n t hn =>
    split at h
    · cases h; exact Numeral.length_lt_of_read hn
    · cases h

end StageMonitor.Json

import StageMonitor.Proofs.Json.Value
import StageMonitor.Json.Document

/-! # Spellings of a value

The texts that stand for a value. Blanks between tokens, the escapes of a character, the sign of an
exponent and the order of different keys are left open; equal keys keep their order.
-/

namespace StageMonitor.Json

def Blank (s : List Char) : Prop :=
  ∀ c ∈ s, c = ' ' ∨ c = '\n' ∨ c = '\t' ∨ c = '\r'

/-- A hexadecimal digit in either case. -/
inductive HexDigit : Nat → Char → Prop where
  | lower {d : Nat} : d < 16 → HexDigit d (Nat.digitChar d)
  | upper {d : Nat} : d < 16 → HexDigit d (Nat.digitChar d).toUpper

/-- A code unit is spelled with four hexadecimal digits. -/
inductive UnitSpelled : Nat → List Char → Prop where
  | mk {w x y z : Nat} {a b c d : Char} : HexDigit w a → HexDigit x b → HexDigit y c →
      HexDigit z d → UnitSpelled (w * 16 ^ 3 + x * 16 ^ 2 + y * 16 + z) [a, b, c, d]

/-- The characters that a letter after a backslash stands for. -/
def letterEscapes : List (Char × Char) :=
  [('"', '"'), ('\\', '\\'), ('/', '/'), ('b', '\x08'), ('f', '\x0c'), ('n', '\n'), ('r', '\r'),
    ('t', '\t')]

inductive CharSpelled : Char → List Char → Prop where
  | literal {c : Char} : 32 ≤ c.toNat → c ≠ '"' → c ≠ '\\' → CharSpelled c [c]
  | letter {e c : Char} : (e, c) ∈ letterEscapes → CharSpelled c ['\\', e]
  | unit {c : Char} {s : List Char} : UnitSpelled c.toNat s → CharSpelled c ('\\' :: 'u' :: s)
  | pair {c : Char} {high low : Nat} {s t : List Char} : 0xD800 ≤ high → high < 0xDC00 →
      0xDC00 ≤ low → low < 0xE000 →
      c.toNat = 0x10000 + (high - 0xD800) * 0x400 + (low - 0xDC00) →
      UnitSpelled high s → UnitSpelled low t →
      CharSpelled c ('\\' :: 'u' :: s ++ '\\' :: 'u' :: t)

inductive CharsSpelled : List Char → List Char → Prop where
  | nil : CharsSpelled [] []
  | cons {c : Char} {cs s t : List Char} : CharSpelled c s → CharsSpelled cs t →
      CharsSpelled (c :: cs) (s ++ t)

inductive StringSpelled : String → List Char → Prop where
  | mk {t : String} {s : List Char} : CharsSpelled t.toList s → StringSpelled t ('"' :: s ++ ['"'])

namespace Numeral

/-- The digits before the point. -/
inductive WholeSpelled : List Char → Prop where
  | zero : WholeSpelled ['0']
  | digits {c : Char} {cs : List Char} : c ≠ '0' → (∀ d ∈ c :: cs, d.isDigit = true) →
      WholeSpelled (c :: cs)

inductive FractionSpelled : List Char → List Char → Prop where
  | absent : FractionSpelled [] []
  | digits {cs : List Char} : cs ≠ [] → (∀ d ∈ cs, d.isDigit = true) →
      FractionSpelled cs ('.' :: cs)

inductive SignSpelled : Bool → List Char → Prop where
  | absent : SignSpelled false []
  | plus : SignSpelled false ['+']
  | minus : SignSpelled true ['-']

inductive ExponentSpelled : Option Exponent → List Char → Prop where
  | absent : ExponentSpelled none []
  | digits {e : Char} {negative : Bool} {sign cs : List Char} : e = 'e' ∨ e = 'E' →
      SignSpelled negative sign → cs ≠ [] → (∀ d ∈ cs, d.isDigit = true) →
      ExponentSpelled (some ⟨negative, cs⟩) (e :: sign ++ cs)

inductive Spelled : Numeral → List Char → Prop where
  | mk {n : Numeral} {f e : List Char} : WholeSpelled n.whole → FractionSpelled n.fraction f →
      ExponentSpelled n.exponent e →
      Spelled n ((if n.negative then ['-'] else []) ++ n.whole ++ f ++ e)

/-- The integer that the digits before the point stand for. -/
def wholeValue (n : Numeral) : Int :=
  if n.negative then -(digitsValue n.whole : Int) else digitsValue n.whole

/-- Whether a numeral stands for an integer: nothing but digits before the point, no negative zero,
and in range. -/
def IsInteger (n : Numeral) : Prop :=
  n.fraction = [] ∧ n.exponent = none ∧ (n.negative = true → n.wholeValue ≠ 0) ∧
    -0x8000000000000000 ≤ n.wholeValue ∧ n.wholeValue ≤ 0xffffffffffffffff

end Numeral

/-- Floating numbers are the numerals that do not stand for integers; the reader rounds them. -/
inductive NumberSpelled : Number → List Char → Prop where
  | int {n : Numeral} {s : List Char} : n.Spelled s → n.IsInteger →
      NumberSpelled (.int n.wholeValue) s
  | float {n : Numeral} {x : Float} {s : List Char} : n.Spelled s → ¬ n.IsInteger →
      n.toNumber? = some (.float x) → NumberSpelled (.float x) s

inductive ScalarSpelled : Scalar → List Char → Prop where
  | null : ScalarSpelled .null ['n', 'u', 'l', 'l']
  | boolTrue : ScalarSpelled (.bool true) ['t', 'r', 'u', 'e']
  | boolFalse : ScalarSpelled (.bool false) ['f', 'a', 'l', 's', 'e']
  | number {n : Number} {s : List Char} : NumberSpelled n s → ScalarSpelled (.number n) s
  | string {t : String} {s : List Char} : StringSpelled t s → ScalarSpelled (.string t) s

/-- What stands in front of an entry of a list or an object. -/
def Separator : Bool → List Char → Prop
  | true, s => Blank s
  | false, s => ∃ b b', Blank b ∧ Blank b' ∧ s = b ++ ',' :: b'

/-- The rest of a list or an object, from the separator of its next entry to the closing bracket. -/
def Listing (closing : Char) (first : Bool) : List (List Char) → List Char → Prop
  | [], s => ∃ b, Blank b ∧ s = b ++ [closing]
  | t :: ts, s => ∃ u r, Separator first u ∧ Listing closing false ts r ∧ s = u ++ t ++ r

/-- A member of an object with the texts of its key and value and the blanks around the colon. -/
structure Entry where
  key : String
  value : Value
  keyText : List Char
  valueText : List Char
  beforeColon : List Char
  afterColon : List Char
  key_spelled : StringSpelled key keyText
  blank_before : Blank beforeColon
  blank_after : Blank afterColon

namespace Entry

def member (e : Entry) : Member :=
  (e.key, e.value)

def text (e : Entry) : List Char :=
  e.keyText ++ e.beforeColon ++ ':' :: e.afterColon ++ e.valueText

end Entry

namespace Value

inductive Spelled : Value → List Char → Prop where
  | scalar {a : Scalar} {s : List Char} : ScalarSpelled a s → Spelled (.scalar a) s
  | array {items : List (Value × List Char)} {s : List Char} :
      (∀ i ∈ items, Spelled i.1 i.2) → Listing ']' true (items.map Prod.snd) s →
      Spelled (.array (items.map Prod.fst)) ('[' :: s)
  | object {ms : List Member} {entries : List Entry} {s : List Char} :
      (∀ e ∈ entries, Spelled e.value e.valueText) → Regrouped ms (entries.map Entry.member) →
      Listing '\x7d' true (entries.map Entry.text) s → Spelled (.object ms) ('\x7b' :: s)

/-- A text that holds one value, nested to the limit at most, with blanks around it. -/
def IsDocument (v : Value) (text : String) : Prop :=
  v.depth ≤ depthLimit ∧
    ∃ b s b', Blank b ∧ v.Spelled s ∧ Blank b' ∧ text.toList = b ++ s ++ b'

end Value

end StageMonitor.Json

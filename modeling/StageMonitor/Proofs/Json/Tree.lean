import StageMonitor.Proofs.Json.Document

/-! # Syntax trees of texts

The tree of a text resolves nothing: numbers are numerals of any size, members keep their order and
their repetitions, and any nesting will do. So every well-formed text has a tree, also one that
spells no value.
-/

namespace StageMonitor.Json

/-- A character as it stands between quotes, an escaped code unit being one by itself. -/
inductive CharForm : List Char → Prop where
  | literal {c : Char} : 32 ≤ c.toNat → c ≠ '"' → c ≠ '\\' → CharForm [c]
  | letter {e c : Char} : (e, c) ∈ letterEscapes → CharForm ['\\', e]
  | unit {n : Nat} {s : List Char} : UnitSpelled n s → CharForm ('\\' :: 'u' :: s)

inductive CharsForm : List Char → Prop where
  | nil : CharsForm []
  | cons {s t : List Char} : CharForm s → CharsForm t → CharsForm (s ++ t)

/-- A text in quotes with the string that it stands for. It stands for none if a surrogate is not
paired. -/
inductive Token : Option String → List Char → Prop where
  | string {t : String} {s : List Char} : StringSpelled t s → Token (some t) s
  | unpaired {s : List Char} : CharsForm s → (∀ t, ¬ StringSpelled t ('"' :: s ++ ['"'])) →
      Token none ('"' :: s ++ ['"'])

inductive Tree where
  | null
  | bool (b : Bool)
  | number (n : Numeral)
  | string (t : Option String)
  | array (items : List Tree)
  | object (members : List (Option String × Tree))
  deriving Inhabited

/-- A member of an object with the texts of its key and value and the blanks around the colon. -/
structure Branch where
  key : Option String
  value : Tree
  keyText : List Char
  valueText : List Char
  beforeColon : List Char
  afterColon : List Char
  key_token : Token key keyText
  blank_before : Blank beforeColon
  blank_after : Blank afterColon

namespace Branch

def member (b : Branch) : Option String × Tree :=
  (b.key, b.value)

/-- What follows the key. -/
def rest (b : Branch) : List Char :=
  b.beforeColon ++ ':' :: (b.afterColon ++ b.valueText)

def text (b : Branch) : List Char :=
  b.keyText ++ b.rest

end Branch

namespace Tree

/-- The texts of a tree, which differ in blanks and in the spelling of numbers and strings. -/
inductive Written : Tree → List Char → Prop where
  | null : Written null ['n', 'u', 'l', 'l']
  | boolTrue : Written (bool true) ['t', 'r', 'u', 'e']
  | boolFalse : Written (bool false) ['f', 'a', 'l', 's', 'e']
  | number {n : Numeral} {s : List Char} : n.Spelled s → Written (number n) s
  | string {t : Option String} {s : List Char} : Token t s → Written (string t) s
  | array {items : List (Tree × List Char)} {s : List Char} :
      (∀ i ∈ items, Written i.1 i.2) → Listing ']' true (items.map Prod.snd) s →
      Written (array (items.map Prod.fst)) ('[' :: s)
  | object {branches : List Branch} {s : List Char} :
      (∀ b ∈ branches, Written b.value b.valueText) →
      Listing '\x7d' true (branches.map Branch.text) s →
      Written (object (branches.map Branch.member)) ('\x7b' :: s)

/-- A text that holds one tree with blanks around it. -/
def IsDocument (t : Tree) (text : String) : Prop :=
  ∃ b s b', Blank b ∧ t.Written s ∧ Blank b' ∧ text.toList = b ++ s ++ b'

end Tree

theorem CharSpelled.charsForm {c : Char} {s : List Char} (h : CharSpelled c s) : CharsForm s := by
  have single {u : List Char} (hu : CharForm u) : CharsForm u := by
    simpa using CharsForm.cons hu .nil
  cases h with
  | literal h hq hb => exact single (.literal h hq hb)
  | letter h => exact single (.letter h)
  | unit h => exact single (.unit h)
  | pair _ _ _ _ _ hs ht => exact .cons (.unit hs) (single (.unit ht))

theorem CharsForm.append {s t : List Char} (hs : CharsForm s) (ht : CharsForm t) :
    CharsForm (s ++ t) := by
  induction hs with
  | nil => exact ht
  | cons hc _ ih =>
    rw [List.append_assoc]
    exact .cons hc ih

theorem CharsSpelled.charsForm {cs s : List Char} (h : CharsSpelled cs s) : CharsForm s := by
  induction h with
  | nil => exact .nil
  | cons hc _ ih => exact hc.charsForm.append ih

theorem Token.charsForm {t : Option String} {s : List Char} (h : Token t s) :
    ∃ u, CharsForm u ∧ s = '"' :: u ++ ['"'] := by
  cases h with
  | string h =>
    obtain ⟨hs⟩ := h
    exact ⟨_, hs.charsForm, rfl⟩
  | unpaired h => exact ⟨_, h, rfl⟩

namespace Tree

/-- How the text of a tree starts, which tells strings, lists and objects from the rest. -/
theorem Written.head {t : Tree} {s : List Char} (h : t.Written s) :
    ∃ c u, s = c :: u ∧ isBlank c = false ∧ c ≠ ']' ∧ c ≠ '\x7d' ∧
      (c = '"' → ∃ x, t = .string x) ∧ (c = '[' → ∃ ts, t = .array ts) ∧
      (c = '\x7b' → ∃ ms, t = .object ms) := by
  cases h with
  | null => exact ⟨_, _, rfl, by simp [isBlank]⟩
  | boolTrue => exact ⟨_, _, rfl, by simp [isBlank]⟩
  | boolFalse => exact ⟨_, _, rfl, by simp [isBlank]⟩
  | number h =>
    obtain ⟨c, u, rfl, hc⟩ := h.head
    obtain ⟨-, -, -, hq, hl, hl', ho, ho', hb⟩ := ne_of_number_head hc
    exact ⟨c, u, rfl, by simp [hb, hq, hl, hl', ho, ho']⟩
  | string h =>
    obtain ⟨u, -, rfl⟩ := h.charsForm
    exact ⟨_, _, rfl, by simp [isBlank]⟩
  | array => exact ⟨_, _, rfl, by simp [isBlank]⟩
  | object => exact ⟨_, _, rfl, by simp [isBlank]⟩

theorem Written.opens {t : Tree} {s : List Char} (h : t.Written s) : Opens s := by
  obtain ⟨c, u, rfl, hb, hl, ho, -⟩ := h.head
  exact ⟨c, u, rfl, hb, hl, ho⟩

end Tree

/-- The trees whose texts spell a value. -/
inductive Fits : Value → Tree → Prop where
  | null : Fits (.scalar .null) .null
  | bool {b : Bool} : Fits (.scalar (.bool b)) (.bool b)
  | number {x : Number} {n : Numeral} :
      n.toNumber? = some x → Fits (.scalar (.number x)) (.number n)
  | string {t : String} : Fits (.scalar (.string t)) (.string (some t))
  | array {items : List (Value × Tree)} : (∀ i ∈ items, Fits i.1 i.2) →
      Fits (.array (items.map Prod.fst)) (.array (items.map Prod.snd))
  | object {ms : List Member} {members : List (Member × Tree)} : (∀ m ∈ members, Fits m.1.2 m.2) →
      Regrouped ms (members.map Prod.fst) →
      Fits (.object ms) (.object (members.map fun m => (some m.1.1, m.2)))

theorem ScalarSpelled.exists_written {a : Scalar} {s : List Char} (h : ScalarSpelled a s) :
    ∃ t : Tree, t.Written s ∧ Fits (.scalar a) t := by
  cases h with
  | null => exact ⟨.null, .null, .null⟩
  | boolTrue => exact ⟨.bool true, .boolTrue, .bool⟩
  | boolFalse => exact ⟨.bool false, .boolFalse, .bool⟩
  | number h =>
    cases h with
    | int hs hi => exact ⟨.number _, .number hs, .number (Numeral.toNumber?_of_isInteger hi)⟩
    | float hs _ hx => exact ⟨.number _, .number hs, .number hx⟩
  | string h => exact ⟨.string _, .string (.string h), .string⟩

namespace Entry

/-- The entry with a tree for its value. -/
def branch (e : Entry) (t : Tree) : Branch :=
  ⟨some e.key, t, e.keyText, e.valueText, e.beforeColon, e.afterColon, .string e.key_spelled,
    e.blank_before, e.blank_after⟩

theorem text_branch (e : Entry) (t : Tree) : (e.branch t).text = e.text := by
  simp [branch, Branch.text, Branch.rest, text]

end Entry

/-- Every spelling of a value is the text of a tree. -/
theorem Value.Spelled.exists_written {v : Value} {s : List Char} (h : v.Spelled s) :
    ∃ t : Tree, t.Written s ∧ Fits v t := by
  induction h with
  | scalar h => exact h.exists_written
  | @array items s _ hs ih =>
    choose! tree hw hf using ih
    refine ⟨.array (items.map tree), ?_, ?_⟩
    · have ha : Tree.Written (.array ((items.map fun i => (tree i, i.2)).map Prod.fst))
          ('[' :: s) :=
        .array (List.forall_mem_map.mpr hw) (by simpa [Function.comp_def] using hs)
      simpa [Function.comp_def] using ha
    · have ha : Fits (.array ((items.map fun i => (i.1, tree i)).map Prod.fst))
          (.array ((items.map fun i => (i.1, tree i)).map Prod.snd)) :=
        .array (List.forall_mem_map.mpr hf)
      simpa [Function.comp_def] using ha
  | @object ms entries s _ hg hs ih =>
    choose! tree hw hf using ih
    refine ⟨.object (entries.map fun e => (some e.key, tree e)), ?_, ?_⟩
    · have ho : Tree.Written (.object ((entries.map fun e => e.branch (tree e)).map Branch.member))
          ('\x7b' :: s) :=
        .object (List.forall_mem_map.mpr hw)
          (by simpa [Function.comp_def, Entry.text_branch] using hs)
      simpa [Function.comp_def, Branch.member, Entry.branch] using ho
    · have ho : Fits (.object ms)
          (.object ((entries.map fun e => (e.member, tree e)).map fun m => (some m.1.1, m.2))) :=
        .object (List.forall_mem_map.mpr hf) (by simpa [Function.comp_def] using hg)
      simpa [Function.comp_def, Entry.member] using ho

end StageMonitor.Json

import StageMonitor.Json.Skipped
import StageMonitor.Proofs.Json.Tree

/-! # Skipped values

The text of any tree is skipped to its end, however deep it is nested and whatever its numbers and
strings stand for.
-/

namespace StageMonitor.Json

theorem skipEscape_of_letter {e c : Char} (h : (e, c) ∈ letterEscapes) (r : List Char) :
    skipEscape (e :: r) = .ok r := by
  have hu : e ≠ 'u' := by rintro rfl; simp [letterEscapes] at h
  unfold skipEscape
  split
  next heq => cases heq
  next heq => exact (hu (List.cons.inj heq).1).elim
  next heq =>
    obtain ⟨rfl, rfl⟩ := List.cons.inj heq
    rw [letterEscape?_eq_some_iff.mpr h]

theorem skipString_escape {s r : List Char} (h : skipEscape s = .ok r) :
    skipString ('\\' :: s) = skipString r := by
  rw [skipString]
  split
  next heq => rw [h] at heq; cases heq
  next heq => rw [h] at heq; cases heq; rfl

theorem skipString_of_charForm {s : List Char} (h : CharForm s) (r : List Char) :
    skipString (s ++ r) = skipString r := by
  cases h with
  | literal h hq hb =>
    rw [List.singleton_append, skipString]
    · simp [isControl, Nat.not_lt.mpr h]
    · exact hq
    · exact hb
  | letter h => exact skipString_escape (skipEscape_of_letter h r)
  | @unit n s h =>
    refine skipString_escape (s := 'u' :: (s ++ r)) ?_
    rw [skipEscape, readUnit_of_spelled h r]
    rfl

theorem skipString_of_charsForm {s : List Char} (h : CharsForm s) (r : List Char) :
    skipString (s ++ '"' :: r) = .ok r := by
  induction h with
  | nil => simp [skipString]
  | cons hc _ ih => rw [List.append_assoc, skipString_of_charForm hc, ih]

/-- A text in quotes that stands for no string is not read as one. -/
theorem readString_of_unpaired {s : List Char} (h : CharsForm s)
    (hn : ∀ t, ¬ StringSpelled t ('"' :: s ++ ['"'])) (r : List Char) :
    ∃ fault, readString (s ++ '"' :: r) = .error fault := by
  cases hs : readString (s ++ '"' :: r) with
  | error fault => exact ⟨fault, rfl⟩
  | ok tr =>
    obtain ⟨t, r'⟩ := tr
    obtain ⟨u, hu, he⟩ := spelled_of_readString hs
    -- Both texts end at the quote where skipping ends, so they are the same.
    have huf : CharsForm u := by
      obtain ⟨v, hv, hq⟩ := (Token.string hu).charsForm
      obtain rfl : u = v := List.append_cancel_right (List.cons.inj hq).2
      exact hv
    have hr := skipString_of_charsForm h r
    rw [he, skipString_of_charsForm huf] at hr
    cases hr
    obtain rfl : s = u := List.append_cancel_right he
    exact absurd hu (hn t)

theorem skipNumber_of_spelled {n : Numeral} {s r : List Char} (h : n.Spelled s) (hr : Stops r) :
    skipNumber (s ++ r) = .ok r := by
  rw [skipNumber, Numeral.read_of_spelled h hr]
  rfl

theorem skipScalar_number {c : Char} {s r : List Char} (h : c = '-' ∨ c.isDigit = true)
    (hn : skipNumber (c :: s) = .ok r) : skipScalar (c :: s) = .ok r := by
  obtain ⟨hw, ht, hf, hq, -⟩ := ne_of_number_head h
  unfold skipScalar
  split
  iterate 5 simp_all
  next heq =>
    obtain ⟨rfl, rfl⟩ := List.cons.inj heq
    rw [if_pos h, hn]

section Steps

variable {b : Bracket} {around : List Bracket} {c : Char} {s t r : List Char}

theorem skipValue_list (h : skipBlanks s = '[' :: r) :
    skipValue around s = skipOpened .list around r := by
  rw [skipValue]
  split <;> simp_all

theorem skipValue_object (h : skipBlanks s = '\x7b' :: r) :
    skipValue around s = skipOpened .object around r := by
  rw [skipValue]
  split <;> simp_all

theorem skipValue_scalar (h : skipBlanks s = c :: r) (hl : c ≠ '[') (ho : c ≠ '\x7b')
    (hs : skipScalar (c :: r) = .ok t) : skipValue around s = skipRest around t := by
  rw [skipValue]
  split
  next hu => exact absurd (List.cons.inj (h.symm.trans hu)).1 hl
  next hu => exact absurd (List.cons.inj (h.symm.trans hu)).1 ho
  next =>
    split
    next ht => rw [h, hs] at ht; cases ht
    next ht => rw [h, hs] at ht; cases ht; rfl

theorem skipOpened_close (h : skipBlanks s = b.closing :: r) :
    skipOpened b around s = skipRest around r := by
  rw [skipOpened]
  split
  · simp_all
  next hu =>
    rw [h] at hu
    cases hu
    rw [if_pos rfl]

theorem skipOpened_entry (h : skipBlanks s = c :: r) (hc : c ≠ b.closing)
    (he : b.skipEntry (c :: r) = .ok t) :
    skipOpened b around s = skipValue (b :: around) t := by
  rw [skipOpened]
  split
  · simp_all
  next hu =>
    rw [h] at hu
    cases hu
    rw [if_neg hc]
    split
    · simp_all
    next ht => rw [he] at ht; cases ht; rfl

theorem skipRest_close (h : skipBlanks s = b.closing :: r) :
    skipRest (b :: around) s = skipRest around r := by
  have hc : b.closing ≠ ',' := by cases b <;> decide
  rw [skipRest]
  split
  · simp_all
  next hu =>
    rw [h] at hu
    cases hu
    rw [if_neg hc, if_pos rfl]

theorem skipRest_entry (h : skipBlanks s = ',' :: r) (he : b.skipEntry r = .ok t) :
    skipRest (b :: around) s = skipValue (b :: around) t := by
  rw [skipRest]
  split
  · simp_all
  next hu =>
    rw [h] at hu
    cases hu
    rw [if_pos rfl]
    split
    · simp_all
    next ht => rw [he] at ht; cases ht; rfl

end Steps

namespace Bracket

/-- An entry of a list or an object is skipped wherever it stands. -/
def Skips (b : Bracket) (e : List Char) : Prop :=
  Opens e ∧ ∀ around blanks r, Blank blanks → Stops r →
    ∃ t, b.skipEntry (blanks ++ (e ++ r)) = .ok t ∧
      skipValue (b :: around) t = skipRest (b :: around) r

theorem closing_eq (b : Bracket) : b.closing = ']' ∨ b.closing = '\x7d' := by
  cases b with
  | list => exact Or.inl rfl
  | object => exact Or.inr rfl

theorem skipBlanks_closing (b : Bracket) {blanks : List Char} (hb : Blank blanks) (r : List Char) :
    skipBlanks (blanks ++ b.closing :: r) = b.closing :: r :=
  skipBlanks_append_cons hb (by cases b <;> decide) r

theorem skipRest_listing {b : Bracket} {ts : List (List Char)} {s : List Char}
    (h : ∀ e ∈ ts, b.Skips e) (hs : Listing b.closing false ts s) (around : List Bracket)
    (r : List Char) : skipRest (b :: around) (s ++ r) = skipRest around r := by
  induction ts generalizing s with
  | nil =>
    obtain ⟨blanks, hb, rfl⟩ := hs
    rw [List.append_assoc]
    exact skipRest_close (b.skipBlanks_closing hb r)
  | cons e ts ih =>
    obtain ⟨⟨-, he⟩, hts⟩ := List.forall_mem_cons.mp h
    obtain ⟨u, v, hu, hv, rfl⟩ := hs
    obtain ⟨blanks, hb, hc⟩ := skipBlanks_separator (t := e ++ (v ++ r)) hu
    obtain ⟨t, ht, hskip⟩ := he around blanks (v ++ r) hb (hv.stops b.closing_eq r)
    rw [List.append_assoc, List.append_assoc, skipRest_entry hc ht, hskip, ih hts hv]

theorem skipOpened_listing {b : Bracket} {ts : List (List Char)} {s : List Char}
    (h : ∀ e ∈ ts, b.Skips e) (hs : Listing b.closing true ts s) (around : List Bracket)
    (r : List Char) : skipOpened b around (s ++ r) = skipRest around r := by
  cases ts with
  | nil =>
    obtain ⟨blanks, hb, rfl⟩ := hs
    rw [List.append_assoc]
    exact skipOpened_close (b.skipBlanks_closing hb r)
  | cons e ts =>
    obtain ⟨⟨⟨c, w, rfl, hc, hl, ho⟩, he⟩, hts⟩ := List.forall_mem_cons.mp h
    obtain ⟨u, v, hu, hv, rfl⟩ := hs
    obtain ⟨t, ht, hskip⟩ := he around [] (v ++ r) blank_nil (hv.stops b.closing_eq r)
    have hne : c ≠ b.closing := by rcases b.closing_eq with hb | hb <;> rw [hb] <;> assumption
    have hs : skipBlanks (u ++ (c :: w) ++ v ++ r) = c :: (w ++ (v ++ r)) := by
      rw [List.append_assoc, List.append_assoc]
      exact skipBlanks_append_cons hu hc _
    rw [skipOpened_entry hs hne ht, hskip, skipRest_listing hts hv]

end Bracket

theorem Branch.opens_text (b : Branch) : Opens b.text := by
  obtain ⟨u, -, hk⟩ := b.key_token.charsForm
  rw [Branch.text, hk]
  exact ⟨'"', _, rfl, by decide⟩

theorem Branch.skipKey_text (b : Branch) {blanks : List Char} (hb : Blank blanks) (r : List Char) :
    skipKey (blanks ++ (b.text ++ r)) = .ok (b.afterColon ++ (b.valueText ++ r)) := by
  obtain ⟨u, hu, hk⟩ := b.key_token.charsForm
  have hs : skipBlanks (blanks ++ (b.text ++ r)) =
      '"' :: (u ++ '"' :: (b.beforeColon ++ ':' :: (b.afterColon ++ (b.valueText ++ r)))) := by
    rw [skipBlanks_append hb, Branch.text, hk, List.append_assoc, List.append_assoc,
      List.cons_append, skipBlanks_cons (by decide)]
    simp [Branch.rest]
  rw [skipKey, hs]
  simp only [skipString_of_charsForm hu, colon_of_blank b.blank_before]

namespace Tree

theorem skipScalar_of_written {t : Tree} {s r : List Char} (h : t.Written s)
    (hl : ∀ ts, t ≠ .array ts) (ho : ∀ ms, t ≠ .object ms) (hr : Stops r) :
    skipScalar (s ++ r) = .ok r := by
  cases h with
  | null => simp [skipScalar, readWord]
  | boolTrue => simp [skipScalar, readWord]
  | boolFalse => simp [skipScalar, readWord]
  | number h =>
    obtain ⟨c, u, rfl, hc⟩ := h.head
    have hn := skipNumber_of_spelled h hr
    rw [List.cons_append] at hn ⊢
    exact skipScalar_number hc hn
  | string h =>
    obtain ⟨u, hu, rfl⟩ := h.charsForm
    simpa [skipScalar] using skipString_of_charsForm hu r
  | array => exact (hl _ rfl).elim
  | object => exact (ho _ rfl).elim

theorem skipValue_of_scalar {t : Tree} {s : List Char} (h : t.Written s)
    (hl : ∀ ts, t ≠ .array ts) (ho : ∀ ms, t ≠ .object ms) (around : List Bracket)
    {blanks r : List Char} (hb : Blank blanks) (hr : Stops r) :
    skipValue around (blanks ++ (s ++ r)) = skipRest around r := by
  have hs := skipScalar_of_written h hl ho hr
  obtain ⟨c, u, rfl, hc, -, -, -, hl', ho'⟩ := h.head
  have hc' : skipBlanks (blanks ++ (c :: u ++ r)) = c :: (u ++ r) :=
    skipBlanks_append_cons hb hc _
  refine skipValue_scalar hc' ?_ ?_ hs
  · rintro rfl
    obtain ⟨ts, rfl⟩ := hl' rfl
    exact hl ts rfl
  · rintro rfl
    obtain ⟨ms, rfl⟩ := ho' rfl
    exact ho ms rfl

/-- The text of a tree is skipped to its end, whatever brackets are open around it. -/
theorem skipValue_of_written {t : Tree} {s : List Char} (h : t.Written s) (around : List Bracket)
    {blanks r : List Char} (hb : Blank blanks) (hr : Stops r) :
    skipValue around (blanks ++ (s ++ r)) = skipRest around r := by
  induction h generalizing around blanks r with
  | null => exact skipValue_of_scalar .null (by simp) (by simp) around hb hr
  | boolTrue => exact skipValue_of_scalar .boolTrue (by simp) (by simp) around hb hr
  | boolFalse => exact skipValue_of_scalar .boolFalse (by simp) (by simp) around hb hr
  | number h => exact skipValue_of_scalar (.number h) (by simp) (by simp) around hb hr
  | string h => exact skipValue_of_scalar (.string h) (by simp) (by simp) around hb hr
  | @array items s hw hs ih =>
    have hskip : ∀ e ∈ items.map Prod.snd, Bracket.list.Skips e := by
      rw [List.forall_mem_map]
      intro i hi
      exact ⟨(hw i hi).opens, fun around b r hb hr => ⟨_, rfl, ih i hi (.list :: around) hb hr⟩⟩
    have ho : skipBlanks (blanks ++ ('[' :: s ++ r)) = '[' :: (s ++ r) :=
      skipBlanks_append_cons hb rfl _
    rw [skipValue_list ho, Bracket.skipOpened_listing hskip hs]
  | @object branches s _ hs ih =>
    have hskip : ∀ e ∈ branches.map Branch.text, Bracket.object.Skips e := by
      rw [List.forall_mem_map]
      intro b hm
      exact ⟨b.opens_text, fun around blanks r hb hr => ⟨_, b.skipKey_text hb r,
        ih b hm (.object :: around) b.blank_after hr⟩⟩
    have ho : skipBlanks (blanks ++ ('\x7b' :: s ++ r)) = '\x7b' :: (s ++ r) :=
      skipBlanks_append_cons hb rfl _
    rw [skipValue_object ho, Bracket.skipOpened_listing hskip hs]

end Tree

end StageMonitor.Json

import StageMonitor.Proofs.Json.Container
import StageMonitor.Json.Document

/-! # Documents are read from their spellings

Reading a text gives the canonical form of the value that the text spells, and a text that spells no
value, or one nested too deep, is refused.
-/

namespace StageMonitor.Json

theorem eq_append_of_readWord {word s r : List Char} (h : readWord word s = .ok r) :
    s = word ++ r := by
  fun_induction readWord word s with
  | case1 => cases h; rfl
  | case2 => cases h
  | case3 word c s ih => rw [ih h]; rfl
  | case4 => cases h

theorem eq_append_of_wordAs {a b : Scalar} {word s r : List Char}
    (h : wordAs a word s = .ok (b, r)) : b = a ∧ s = word ++ r := by
  unfold wordAs at h
  split at h
  · cases h
  next hw => cases h; exact ⟨rfl, eq_append_of_readWord hw⟩

theorem Numeral.Spelled.head {n : Numeral} {s : List Char} (h : n.Spelled s) :
    ∃ c t, s = c :: t ∧ (c = '-' ∨ c.isDigit = true) := by
  obtain ⟨hw, -, -⟩ := h
  obtain ⟨c, cs, hc, hd⟩ := hw.head_isDigit
  cases n.negative with
  | true => exact ⟨'-', _, rfl, Or.inl rfl⟩
  | false => exact ⟨c, _, by simp only [hc]; rfl, Or.inr hd⟩

theorem NumberSpelled.head {x : Number} {s : List Char} (h : NumberSpelled x s) :
    ∃ c t, s = c :: t ∧ (c = '-' ∨ c.isDigit = true) := by
  cases h with
  | int h => exact h.head
  | float h => exact h.head

/-- The first character of a number is that of no other value. -/
theorem ne_of_number_head {c : Char} (h : c = '-' ∨ c.isDigit = true) :
    c ≠ 'n' ∧ c ≠ 't' ∧ c ≠ 'f' ∧ c ≠ '"' ∧ c ≠ '[' ∧ c ≠ ']' ∧ c ≠ '\x7b' ∧ c ≠ '\x7d' ∧
      isBlank c = false := by
  have hb : isBlank c = false := by
    rw [Bool.eq_false_iff, Ne, isBlank_iff]
    rintro (rfl | rfl | rfl | rfl) <;> simp at h
  refine ⟨?_, ?_, ?_, ?_, ?_, ?_, ?_, ?_, hb⟩ <;> rintro rfl <;> simp at h

theorem readScalar_number {c : Char} {s r : List Char} {n : Number}
    (h : c = '-' ∨ c.isDigit = true) (hn : readNumber (c :: s) = .ok (n, r)) :
    readScalar (c :: s) = .ok (.number n, r) := by
  obtain ⟨hw, ht, hf, hq, -⟩ := ne_of_number_head h
  unfold readScalar
  split
  iterate 5 simp_all
  next heq =>
    obtain ⟨rfl, rfl⟩ := List.cons.inj heq
    rw [if_pos h, hn]

theorem readScalar_of_spelled {a : Scalar} {s r : List Char} (h : ScalarSpelled a s)
    (hr : Stops r) : readScalar (s ++ r) = .ok (a, r) := by
  cases h with
  | null => simp [readScalar, wordAs, readWord]
  | boolTrue => simp [readScalar, wordAs, readWord]
  | boolFalse => simp [readScalar, wordAs, readWord]
  | number h =>
    obtain ⟨c, t, rfl, hc⟩ := h.head
    have hn := readNumber_of_spelled h hr
    rw [List.cons_append] at hn ⊢
    exact readScalar_number hc hn
  | string h =>
    obtain ⟨u, rfl, hu⟩ := readString_of_spelled h
    simp [readScalar, hu]

theorem spelled_of_readScalar {a : Scalar} {s r : List Char} (h : readScalar s = .ok (a, r)) :
    ∃ t, ScalarSpelled a t ∧ s = t ++ r := by
  unfold readScalar at h
  split at h
  · cases h
  · obtain ⟨rfl, rfl⟩ := eq_append_of_wordAs h
    exact ⟨_, .null, rfl⟩
  · obtain ⟨rfl, rfl⟩ := eq_append_of_wordAs h
    exact ⟨_, .boolTrue, rfl⟩
  · obtain ⟨rfl, rfl⟩ := eq_append_of_wordAs h
    exact ⟨_, .boolFalse, rfl⟩
  · split at h
    · cases h
    next t u ht =>
      cases h
      obtain ⟨v, hv, rfl⟩ := spelled_of_readString ht
      exact ⟨_, .string hv, by simp⟩
  · split at h
    · split at h
      · cases h
      next n u hn =>
        cases h
        obtain ⟨v, hv, hs⟩ := spelled_of_readNumber hn
        exact ⟨v, .number hv, hs⟩
    · cases h

theorem StringSpelled.head {t : String} {s : List Char} (h : StringSpelled t s) :
    ∃ u, s = '"' :: u := by
  obtain ⟨_⟩ := h
  exact ⟨_, rfl⟩

/-- How the text of a scalar starts. -/
theorem ScalarSpelled.head {a : Scalar} {s : List Char} (h : ScalarSpelled a s) :
    ∃ c t, s = c :: t ∧ isBlank c = false ∧ c ≠ '[' ∧ c ≠ ']' ∧ c ≠ '\x7b' ∧ c ≠ '\x7d' := by
  cases h with
  | null => exact ⟨_, _, rfl, by decide⟩
  | boolTrue => exact ⟨_, _, rfl, by decide⟩
  | boolFalse => exact ⟨_, _, rfl, by decide⟩
  | number h =>
    obtain ⟨c, t, rfl, hc⟩ := h.head
    obtain ⟨-, -, -, -, hl, hl', ho, ho', hb⟩ := ne_of_number_head hc
    exact ⟨c, t, rfl, hb, hl, hl', ho, ho'⟩
  | string h =>
    obtain ⟨u, rfl⟩ := h.head
    exact ⟨_, _, rfl, by decide⟩

theorem skipBlanks_eq_nil_iff {s : List Char} : skipBlanks s = [] ↔ Blank s := by
  constructor
  · intro h
    obtain ⟨b, hb, rfl⟩ := exists_blank_of_skipBlanks h
    simpa using hb
  · intro h
    simpa [skipBlanks] using skipBlanks_append h []

theorem Blank.stops {b : List Char} (hb : Blank b) : Stops b := by
  simpa using hb.stops_append stops_nil

/-- A whole document leaves nothing but blanks. -/
theorem Reader.readDocument_eq_ok_iff {α : Type} {reader : Reader α} {a : α} {document : String} :
    reader.readDocument document = .ok a ↔
      ∃ b, Blank b ∧ reader.run document.toList = .ok (a, b) := by
  simp only [readDocument, readAll, ← skipBlanks_eq_nil_iff]
  constructor
  · intro h
    split at h
    · cases h
    next ha =>
      cases h
      split at ha
      · cases ha
      next r hr =>
        split at ha
        next hs => cases ha; exact ⟨r, hs, hr⟩
        · cases ha
  · rintro ⟨b, hb, hr⟩
    simp only [hr, hb]

namespace Value

theorem Spelled.opens {v : Value} {s : List Char} (h : v.Spelled s) : Opens s := by
  cases h with
  | scalar h =>
    obtain ⟨c, t, rfl, hb, -, hl, -, ho⟩ := h.head
    exact ⟨c, t, rfl, hb, hl, ho⟩
  | array => exact ⟨_, _, rfl, by decide⟩
  | object => exact ⟨_, _, rfl, by decide⟩

theorem run_reader_zero (s : List Char) : (reader 0).run s = readInside none s := by
  rw [reader, inside]

theorem run_reader_succ (n : Nat) (s : List Char) :
    (reader (n + 1)).run s = readInside (some (reader n)) s := by
  rw [reader, inside]

theorem run_reader_blank {n : Nat} {b : List Char} (hb : Blank b) (s : List Char) :
    (reader n).run (b ++ s) = (reader n).run s := by
  cases n <;> simp [run_reader_zero, run_reader_succ, readInside, skipBlanks_append hb]

theorem readInside_scalar {inside : Option (Reader Value)} {a : Scalar} {s r : List Char}
    (h : ScalarSpelled a s) (hr : Stops r) : readInside inside (s ++ r) = .ok (.scalar a, r) := by
  obtain ⟨c, t, rfl, hb, hl, -, ho, -⟩ := h.head
  have hs := readScalar_of_spelled h hr
  rw [List.cons_append] at hs ⊢
  unfold readInside
  rw [skipBlanks_cons hb]
  split <;> simp_all

theorem readInside_array {item : Reader Value} {vs : List Value} {s r : List Char}
    (h : item.items [] s = .ok (vs, r)) :
    readInside (some item) ('[' :: s) = .ok (.array vs, r) := by
  simp [readInside, skipBlanks_cons (c := '[') (by decide), h]

theorem readInside_object {item : Reader Value} {ms : List Member} {s r : List Char}
    (h : Reader.members (member item) true [] s = .ok (ms, r)) :
    readInside (some item) ('\x7b' :: s) = .ok (.object ms, r) := by
  simp [readInside, skipBlanks_cons (c := '\x7b') (by decide), h]

end Value

namespace Entry

def field (e : Entry) : Reader.Field :=
  ⟨e.key, e.keyText, e.beforeColon ++ ':' :: (e.afterColon ++ e.valueText), e.key_spelled⟩

theorem text_field (e : Entry) : e.field.text = e.text := by
  simp [field, Reader.Field.text, text]

end Entry

namespace Value

/-- The members that are known after reading some entries. -/
theorem told_of_entries {n : Nat} {entries : List Entry} (known : List Member)
    (h : ∀ e ∈ entries, (reader n).Reads e.value.canonical e.valueText) :
    Reader.Told (fun known key t next => (member (reader n) known key).Reads next t) known
      (entries.map Entry.field)
      (entries.foldl (fun known e => insertMember e.key e.value.canonical known) known) := by
  induction entries generalizing known with
  | nil => exact .nil
  | cons e entries ih =>
    obtain ⟨he, hes⟩ := List.forall_mem_cons.mp h
    refine .cons (fun r hr => ?_) (ih _ hes)
    simp only [Entry.field, List.append_assoc, List.cons_append]
    refine Reader.run_map ?_
    rw [Reader.run_afterColon e.blank_before, run_reader_blank e.blank_after]
    exact he r hr

theorem foldl_insertMember (entries : List Entry) :
    entries.foldl (fun known e => insertMember e.key e.value.canonical known) [] =
      orderMembers ((entries.map Entry.member).map fun m => (m.1, m.2.canonical)) := by
  simp [orderMembers, Entry.member, List.foldl_map]

theorem reads_array {n : Nat} {items : List (Value × List Char)} {s : List Char}
    (hi : ∀ i ∈ items, i.1.Spelled i.2)
    (hr : ∀ i ∈ items, (reader n).Reads i.1.canonical i.2)
    (hs : Listing ']' true (items.map Prod.snd) s) :
    (reader (n + 1)).Reads (array (items.map Prod.fst)).canonical ('[' :: s) := by
  intro r _
  have hl : ∀ l ∈ items.map fun i => (i.1.canonical, i.2),
      Opens l.2 ∧ (reader n).Reads l.1 l.2 := by
    rw [List.forall_mem_map]
    exact fun i hm => ⟨(hi i hm).opens, hr i hm⟩
  have ht : (items.map fun i => (i.1.canonical, i.2)).map Prod.snd = items.map Prod.snd := by
    simp [Function.comp_def]
  have ha := readInside_array (Reader.items_of_listing hl (ht ▸ hs) r)
  rw [List.cons_append, run_reader_succ, ha]
  simp [canonical, Function.comp_def]

theorem reads_object {n : Nat} {ms : List Member} {entries : List Entry} {s : List Char}
    (hr : ∀ e ∈ entries, (reader n).Reads e.value.canonical e.valueText)
    (hg : Regrouped ms (entries.map Entry.member))
    (hs : Listing '\x7d' true (entries.map Entry.text) s) :
    (reader (n + 1)).Reads (object ms).canonical ('\x7b' :: s) := by
  intro r _
  have hf : (entries.map Entry.field).map Reader.Field.text = entries.map Entry.text := by
    simp [Entry.text_field]
  have ho := readInside_object (Reader.members_of_listing (told_of_entries [] hr) (hf ▸ hs) r)
  rw [List.cons_append, run_reader_succ, ho, foldl_insertMember,
    ← (hg.map canonical).orderMembers_eq]
  simp [canonical]

/-- A spelled value is read in canonical form, whatever follows. -/
theorem reads_of_spelled {v : Value} {s : List Char} (h : v.Spelled s) {n : Nat}
    (hn : v.depth ≤ n) : (reader n).Reads v.canonical s := by
  induction h generalizing n with
  | @scalar a s h =>
    intro r hr
    rw [canonical]
    cases n with
    | zero => rw [run_reader_zero, readInside_scalar h hr]
    | succ n => rw [run_reader_succ, readInside_scalar h hr]
  | @array items s hi hs ih =>
    cases n with
    | zero => simp [depth] at hn
    | succ n =>
      rw [depth_array_le_iff, List.forall_mem_map] at hn
      exact reads_array hi (fun i hm => ih i hm (hn i hm)) hs
  | @object ms entries s he hg hs ih =>
    cases n with
    | zero => simp [depth] at hn
    | succ n =>
      rw [depth_object_le_iff] at hn
      -- The entries hold the same members as the object, so they are no deeper.
      have hd : ∀ e ∈ entries, e.value.depth ≤ n := fun e hm =>
        hn e.member ((hg.mem_iff _).mpr (List.mem_map_of_mem hm))
      exact reads_object (fun e hm => ih e hm (hd e hm)) hg hs

/-- The text spells a value with a given canonical form, nested `n` deep at most. -/
def SpelledWithin (n : Nat) (v : Value) (u : List Char) : Prop :=
  ∃ w : Value, w.Spelled u ∧ w.depth ≤ n ∧ w.canonical = v

theorem SpelledWithin.scalar {n : Nat} {a : Scalar} {u : List Char} (h : ScalarSpelled a u) :
    SpelledWithin n (.scalar a) u :=
  ⟨.scalar a, .scalar h, by simp, by rw [canonical]⟩

theorem items_of_spelledWithin {n : Nat} {ls : List (Value × List Char)}
    (h : ∀ l ∈ ls, SpelledWithin n l.1 l.2) :
    ∃ items : List (Value × List Char), (∀ i ∈ items, i.1.Spelled i.2 ∧ i.1.depth ≤ n) ∧
      items.map Prod.snd = ls.map Prod.snd ∧
      (items.map Prod.fst).map canonical = ls.map Prod.fst := by
  induction ls with
  | nil => exact ⟨[], by simp⟩
  | cons l ls ih =>
    obtain ⟨⟨w, hw, hd, hc⟩, hls⟩ := List.forall_mem_cons.mp h
    obtain ⟨items, hi, ht, hv⟩ := ih hls
    refine ⟨(w, l.2) :: items, List.forall_mem_cons.mpr ⟨⟨hw, hd⟩, hi⟩, ?_, ?_⟩
    · rw [List.map_cons, List.map_cons, ht]
    · rw [List.map_cons, List.map_cons, List.map_cons, hc, hv]

theorem SpelledWithin.array {n : Nat} {ls : List (Value × List Char)} {u : List Char}
    (h : ∀ l ∈ ls, SpelledWithin n l.1 l.2) (hu : Listing ']' true (ls.map Prod.snd) u) :
    SpelledWithin (n + 1) (.array (ls.map Prod.fst)) ('[' :: u) := by
  obtain ⟨items, hi, ht, hv⟩ := items_of_spelledWithin h
  refine ⟨_, .array (fun i hm => (hi i hm).1) (ht ▸ hu), ?_, ?_⟩
  · rw [depth_array_le_iff, List.forall_mem_map]
    exact fun i hm => (hi i hm).2
  · rw [canonical, canonicalItems_eq, hv]

/-- What a member adds to the known ones. -/
def Adds (n : Nat) (known : List Member) (key : String) (t : List Char) (next : List Member) :
    Prop :=
  ∃ b b' u w, Blank b ∧ Blank b' ∧ SpelledWithin n w u ∧ t = b ++ ':' :: (b' ++ u) ∧
    next = insertMember key w known

theorem entries_of_told {n : Nat} {known told : List Member} {fs : List Reader.Field}
    (h : Reader.Told (Adds n) known fs told) :
    ∃ entries : List Entry, (∀ e ∈ entries, e.value.Spelled e.valueText ∧ e.value.depth ≤ n) ∧
      entries.map Entry.text = fs.map Reader.Field.text ∧
      told = entries.foldl (fun known e => insertMember e.key e.value.canonical known) known := by
  induction h with
  | nil => exact ⟨[], by simp⟩
  | @cons known next told f fs hm _ ih =>
    obtain ⟨b, b', u, _, hb, hb', ⟨w, hw, hd, rfl⟩, ht, rfl⟩ := hm
    obtain ⟨entries, he, hf, rfl⟩ := ih
    let e : Entry := ⟨f.key, w, f.keyText, u, b, b', f.key_spelled, hb, hb'⟩
    refine ⟨e :: entries, List.forall_mem_cons.mpr ⟨⟨hw, hd⟩, he⟩, ?_, rfl⟩
    simp [hf, e, Reader.Field.text, Entry.text, ht]

theorem SpelledWithin.object {n : Nat} {ms : List Member} {fs : List Reader.Field} {u : List Char}
    (h : Reader.Told (Adds n) [] fs ms) (hu : Listing '\x7d' true (fs.map Reader.Field.text) u) :
    SpelledWithin (n + 1) (.object ms) ('\x7b' :: u) := by
  obtain ⟨entries, he, ht, rfl⟩ := entries_of_told h
  refine ⟨_, .object (fun e hm => (he e hm).1) (.refl _) (ht ▸ hu), ?_, ?_⟩
  · rw [depth_object_le_iff, List.forall_mem_map]
    exact fun e hm => (he e hm).2
  · rw [canonical, canonicalMembers_eq, foldl_insertMember]

/-- A reader takes only texts that spell a value. -/
def Sound (item : Reader Value) (n : Nat) : Prop :=
  ∀ {v s r}, item.run s = .ok (v, r) →
    ∃ b u, Blank b ∧ SpelledWithin n v u ∧ s = b ++ u ++ r

theorem Sound.member {item : Reader Value} {n : Nat} (hi : Sound item n) {known next : List Member}
    {key : String} {t r : List Char} (h : (member item known key).run t = .ok (next, r)) :
    ∃ u, Adds n known key u next ∧ t = u ++ r := by
  obtain ⟨v, hv, rfl⟩ := Reader.run_of_map h
  obtain ⟨b, t', hb, rfl, ht⟩ := Reader.blank_of_afterColon hv
  obtain ⟨b', u, hb', hu, rfl⟩ := hi ht
  exact ⟨b ++ ':' :: (b' ++ u), ⟨b, b', u, v, hb, hb', hu, rfl, rfl⟩, by simp⟩

theorem Sound.array {item : Reader Value} {n : Nat} (hi : Sound item n) {vs : List Value}
    {s r : List Char} (h : item.items [] s = .ok (vs, r)) :
    ∃ u, SpelledWithin (n + 1) (.array vs) ('[' :: u) ∧ s = u ++ r := by
  obtain ⟨ls, u, hls, hu, rfl, rfl⟩ := Reader.listing_of_items hi h
  exact ⟨u, .array hls hu, rfl⟩

theorem Sound.object {item : Reader Value} {n : Nat} (hi : Sound item n) {ms : List Member}
    {s r : List Char} (h : Reader.members (Value.member item) true [] s = .ok (ms, r)) :
    ∃ u, SpelledWithin (n + 1) (.object ms) ('\x7b' :: u) ∧ s = u ++ r := by
  obtain ⟨fs, u, hfs, hu, rfl⟩ := Reader.listing_of_members hi.member h
  exact ⟨u, .object hfs hu, rfl⟩

theorem spelledWithin_of_readInside {inside : Option (Reader Value)} {n : Nat}
    (hi : ∀ item, inside = some item → ∃ m, n = m + 1 ∧ Sound item m) {v : Value}
    {s r : List Char} (h : readInside inside s = .ok (v, r)) :
    ∃ b u, Blank b ∧ SpelledWithin n v u ∧ s = b ++ u ++ r := by
  obtain ⟨b, hb, hs⟩ := exists_blank_append_skipBlanks s
  suffices ∃ u, SpelledWithin n v u ∧ skipBlanks s = u ++ r by
    obtain ⟨u, hu, ht⟩ := this
    exact ⟨b, u, hb, hu, by rw [List.append_assoc, ← ht, ← hs]⟩
  unfold readInside at h
  split at h
  next heq =>
    split at h
    · cases h
    next item =>
      obtain ⟨m, rfl, hm⟩ := hi item rfl
      split at h
      · cases h
      next hv =>
        cases h
        obtain ⟨u, hu, rfl⟩ := hm.array hv
        exact ⟨_, hu, heq⟩
  next heq =>
    split at h
    · cases h
    next item =>
      obtain ⟨m, rfl, hm⟩ := hi item rfl
      split at h
      · cases h
      next hv =>
        cases h
        obtain ⟨u, hu, rfl⟩ := hm.object hv
        exact ⟨_, hu, heq⟩
  next =>
    split at h
    · cases h
    next ha =>
      cases h
      obtain ⟨u, hu, ht⟩ := spelled_of_readScalar ha
      exact ⟨u, .scalar hu, ht⟩

/-- Whatever is read is the canonical form of a value that the text spells. -/
theorem sound_reader (n : Nat) : Sound (reader n) n := by
  induction n with
  | zero =>
    intro v s r h
    rw [run_reader_zero] at h
    exact spelledWithin_of_readInside (by simp) h
  | succ n ih =>
    intro v s r h
    rw [run_reader_succ] at h
    refine spelledWithin_of_readInside (fun item hi => ?_) h
    obtain rfl := Option.some.inj hi
    exact ⟨n, rfl, ih⟩

/-- A document is read exactly if it spells a value, and then in canonical form. -/
theorem ofDocument_eq_ok_iff {v : Value} {text : String} :
    ofDocument text = .ok v ↔ ∃ w : Value, w.IsDocument text ∧ w.canonical = v := by
  rw [ofDocument, Reader.readDocument_eq_ok_iff]
  constructor
  · rintro ⟨b', hb', hr⟩
    obtain ⟨b, u, hb, ⟨w, hw, hd, hc⟩, ht⟩ := sound_reader _ hr
    exact ⟨w, ⟨hd, b, u, b', hb, hw, hb', ht⟩, hc⟩
  · rintro ⟨w, ⟨hd, b, s, b', hb, hs, hb', ht⟩, rfl⟩
    refine ⟨b', hb', ?_⟩
    rw [ht, List.append_assoc, run_reader_blank hb]
    exact reads_of_spelled hs hd b' hb'.stops

/-- A document has one value, however it is read. -/
theorem IsDocument.canonical_eq {v w : Value} {text : String} (hv : v.IsDocument text)
    (hw : w.IsDocument text) : v.canonical = w.canonical := by
  have h := ofDocument_eq_ok_iff.mpr ⟨v, hv, rfl⟩
  rw [ofDocument_eq_ok_iff.mpr ⟨w, hw, rfl⟩] at h
  exact (Except.ok.inj h).symm

end Value

end StageMonitor.Json

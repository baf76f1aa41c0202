import StageMonitor.Proofs.Json.Numeral
import StageMonitor.Proofs.Json.StringToken
import StageMonitor.Json.Container

/-! # Lists and objects are read from their entries

Whatever reads the items of a list or the members of an object, the text between the brackets is
split at the right places, and only a text that can be split is read.
-/

namespace StageMonitor.Json

theorem isBlank_iff {c : Char} :
    isBlank c = true ↔ c = ' ' ∨ c = '\n' ∨ c = '\t' ∨ c = '\r' := by
  simp [isBlank, or_assoc]

theorem blank_nil : Blank [] :=
  fun _ h => nomatch h

theorem Blank.append {b b' : List Char} (h : Blank b) (h' : Blank b') : Blank (b ++ b') :=
  fun c hc => (List.mem_append.mp hc).elim (h c) (h' c)

theorem skipBlanks_append {b : List Char} (h : Blank b) (s : List Char) :
    skipBlanks (b ++ s) = skipBlanks s :=
  List.dropWhile_append_of_pos fun c hc => isBlank_iff.mpr (h c hc)

theorem skipBlanks_cons {c : Char} (h : isBlank c = false) (s : List Char) :
    skipBlanks (c :: s) = c :: s :=
  List.dropWhile_cons_of_neg (by simp [h])

theorem skipBlanks_append_cons {b : List Char} {c : Char} (hb : Blank b) (hc : isBlank c = false)
    (s : List Char) : skipBlanks (b ++ c :: s) = c :: s := by
  rw [skipBlanks_append hb, skipBlanks_cons hc]

theorem exists_blank_append_skipBlanks (s : List Char) : ∃ b, Blank b ∧ s = b ++ skipBlanks s :=
  ⟨s.takeWhile isBlank, fun _ hc => isBlank_iff.mp (List.mem_takeWhile_imp hc),
    List.takeWhile_append_dropWhile.symm⟩

theorem exists_blank_of_skipBlanks {s t : List Char} (h : skipBlanks s = t) :
    ∃ b, Blank b ∧ s = b ++ t :=
  h ▸ exists_blank_append_skipBlanks s

theorem Separator.append_blank {first : Bool} {u b : List Char} (h : Separator first u)
    (hb : Blank b) : Separator first (u ++ b) := by
  cases first with
  | true => exact Blank.append h hb
  | false =>
    obtain ⟨c, c', hc, hc', rfl⟩ := h
    exact ⟨c, c' ++ b, hc, hc'.append hb, by simp⟩

/-- How the text of an entry starts: neither blank nor closing a bracket. -/
def Opens (s : List Char) : Prop :=
  ∃ c r, s = c :: r ∧ isBlank c = false ∧ c ≠ ']' ∧ c ≠ '\x7d'

theorem Opens.append {s : List Char} (h : Opens s) (r : List Char) : Opens (s ++ r) := by
  obtain ⟨c, t, rfl, hc⟩ := h
  exact ⟨c, t ++ r, rfl, hc⟩

theorem skipBlanks_separator {u t : List Char} (hu : Separator false u) :
    ∃ b, Blank b ∧ skipBlanks (u ++ t) = ',' :: (b ++ t) := by
  obtain ⟨b, b', hb, hb', rfl⟩ := hu
  refine ⟨b', hb', ?_⟩
  rw [List.append_assoc, skipBlanks_append hb]
  rfl

theorem nextItem_of_separator {first : Bool} {u t : List Char} (hu : Separator first u)
    (ht : Opens t) : nextItem first (u ++ t) = .ok (some t) := by
  obtain ⟨c, r, rfl, hc, hl, -⟩ := ht
  cases first with
  | true =>
    simp only [nextItem, skipBlanks_append (show Blank u from hu), skipBlanks_cons hc]
    split <;> simp_all
  | false =>
    obtain ⟨b, hb, hs⟩ := skipBlanks_separator (t := c :: r) hu
    have hr : skipBlanks (b ++ c :: r) = c :: r := skipBlanks_append_cons hb hc r
    simp only [nextItem, hs]
    split
    · simp_all
    · simp_all
    next d t _ heq =>
      obtain ⟨rfl, rfl⟩ := List.cons.inj heq
      simp only [Bool.false_eq_true, if_false, if_true, hr]
      split <;> simp_all

theorem separator_of_nextItem {first : Bool} {s t : List Char}
    (h : nextItem first s = .ok (some t)) : ∃ u, Separator first u ∧ s = u ++ t := by
  unfold nextItem at h
  split at h
  · cases h
  · cases h
  next c r _ hs =>
    obtain ⟨b, hb, rfl⟩ := exists_blank_of_skipBlanks hs
    cases first with
    | true => cases h; exact ⟨b, hb, rfl⟩
    | false =>
      simp only [Bool.false_eq_true, if_false] at h
      split at h
      next hc =>
        split at h
        · cases h
        · cases h
        next t' _ _ =>
          cases h
          obtain ⟨b', hb', hr⟩ := exists_blank_append_skipBlanks r
          exact ⟨b ++ ',' :: b', ⟨b, b', hb, hb', rfl⟩, by simp [hc, ← hr]⟩
      · cases h

theorem nextItem_of_closing (first : Bool) {b : List Char} (hb : Blank b) (r : List Char) :
    nextItem first (b ++ ']' :: r) = .ok none ∧ closeList (b ++ ']' :: r) = .ok r := by
  have hs : skipBlanks (b ++ ']' :: r) = ']' :: r := skipBlanks_append_cons hb rfl r
  simp [nextItem, closeList, hs]

theorem blank_of_closeList {s r : List Char} (h : closeList s = .ok r) :
    ∃ b, Blank b ∧ s = b ++ ']' :: r := by
  unfold closeList at h
  split at h
  · cases h
  next hs => cases h; exact exists_blank_of_skipBlanks hs
  · split at h <;> cases h
  · cases h

theorem nextKey_of_separator {first : Bool} {u t : List Char} (hu : Separator first u) :
    nextKey first (u ++ '"' :: t) = .ok (some t) := by
  have hq : skipBlanks ('"' :: t) = '"' :: t := rfl
  cases first with
  | true => simp [nextKey, skipBlanks_append (show Blank u from hu), hq, openKey, Except.map]
  | false =>
    obtain ⟨b, hb, hs⟩ := skipBlanks_separator (t := '"' :: t) hu
    simp [nextKey, hs, skipBlanks_append hb, hq, openKey, Except.map]

theorem quote_of_openKey {s t : List Char} (h : (openKey s).map some = .ok (some t)) :
    s = '"' :: t := by
  unfold openKey at h
  split at h <;> simp_all [Except.map]

theorem separator_of_nextKey {first : Bool} {s t : List Char}
    (h : nextKey first s = .ok (some t)) : ∃ u, Separator first u ∧ s = u ++ '"' :: t := by
  unfold nextKey at h
  split at h
  · cases h
  · cases h
  next c r _ hs =>
    obtain ⟨b, hb, rfl⟩ := exists_blank_of_skipBlanks hs
    cases first with
    | true => exact ⟨b, hb, by rw [quote_of_openKey h]⟩
    | false =>
      simp only [Bool.false_eq_true, if_false] at h
      split at h
      next hc =>
        obtain ⟨b', hb', hr⟩ := exists_blank_of_skipBlanks (quote_of_openKey h)
        exact ⟨b ++ ',' :: b', ⟨b, b', hb, hb', rfl⟩, by simp [hc, hr]⟩
      · cases h

theorem nextKey_of_closing (first : Bool) {b : List Char} (hb : Blank b) (r : List Char) :
    nextKey first (b ++ '\x7d' :: r) = .ok none ∧ closeObject (b ++ '\x7d' :: r) = .ok r := by
  have hs : skipBlanks (b ++ '\x7d' :: r) = '\x7d' :: r := skipBlanks_append_cons hb rfl r
  simp [nextKey, closeObject, hs]

theorem blank_of_closeObject {s r : List Char} (h : closeObject s = .ok r) :
    ∃ b, Blank b ∧ s = b ++ '\x7d' :: r := by
  unfold closeObject at h
  split at h
  · cases h
  next hs => cases h; exact exists_blank_of_skipBlanks hs
  all_goals cases h

theorem colon_of_blank {b : List Char} (hb : Blank b) (s : List Char) :
    colon (b ++ ':' :: s) = .ok s := by
  have hs : skipBlanks (b ++ ':' :: s) = ':' :: s := skipBlanks_append_cons hb rfl s
  simp [colon, hs]

theorem blank_of_colon {s r : List Char} (h : colon s = .ok r) :
    ∃ b, Blank b ∧ s = b ++ ':' :: r := by
  unfold colon at h
  split at h
  · cases h
  next hs => cases h; exact exists_blank_of_skipBlanks hs
  · cases h

theorem stops_nil : Stops [] :=
  fun _ h => nomatch h

theorem stops_cons {c : Char} (hc : isBlank c = true ∨ c = ',' ∨ c = ']' ∨ c = '\x7d')
    (r : List Char) : Stops (c :: r) := by
  rintro d hd
  obtain rfl : c = d := by simpa using hd
  rcases hc with hc | rfl | rfl | rfl
  · rcases isBlank_iff.mp hc with rfl | rfl | rfl | rfl <;> decide
  all_goals decide

theorem Blank.stops_append {b r : List Char} (hb : Blank b) (hr : Stops r) : Stops (b ++ r) := by
  cases b with
  | nil => exact hr
  | cons c b => exact stops_cons (Or.inl (isBlank_iff.mpr (hb c List.mem_cons_self))) _

theorem Listing.stops {closing : Char} {ts : List (List Char)} {s : List Char}
    (h : Listing closing false ts s) (hc : closing = ']' ∨ closing = '\x7d') (r : List Char) :
    Stops (s ++ r) := by
  cases ts with
  | nil =>
    obtain ⟨b, hb, rfl⟩ := h
    rw [List.append_assoc]
    exact hb.stops_append (stops_cons (Or.inr (Or.inr hc)) r)
  | cons t ts =>
    obtain ⟨u, v, ⟨b, b', hb, -, rfl⟩, -, rfl⟩ := h
    simp only [List.append_assoc]
    exact hb.stops_append (stops_cons (Or.inr (Or.inl rfl)) _)

namespace Reader

variable {α σ : Type}

/-- What is read from a text, whatever follows it. -/
def Reads (reader : Reader α) (a : α) (t : List Char) : Prop :=
  ∀ r, Stops r → reader.run (t ++ r) = .ok (a, r)

theorem items_close {item : Reader α} {read : List α} {s r : List Char}
    (hn : nextItem read.isEmpty s = .ok none) (hc : closeList s = .ok r) :
    item.items read s = .ok (read.reverse, r) := by
  rw [items]
  split <;> simp_all

theorem items_next {item : Reader α} {a : α} {read : List α} {s t r : List Char}
    (hn : nextItem read.isEmpty s = .ok (some t)) (ht : item.run t = .ok (a, r)) :
    item.items read s = item.items (a :: read) r := by
  rw [items]
  split
  · simp_all
  · simp_all
  next t' ht' =>
    obtain rfl : t' = t := by simpa [hn] using ht'.symm
    split
    · simp_all
    next ha =>
      rw [ht] at ha
      cases ha
      rfl

theorem items_of_listing {item : Reader α} {ls : List (α × List Char)}
    (h : ∀ l ∈ ls, Opens l.2 ∧ item.Reads l.1 l.2) {read : List α} {s : List Char}
    (hs : Listing ']' read.isEmpty (ls.map Prod.snd) s) (r : List Char) :
    item.items read (s ++ r) = .ok (read.reverse ++ ls.map Prod.fst, r) := by
  induction ls generalizing read s with
  | nil =>
    obtain ⟨b, hb, rfl⟩ := hs
    obtain ⟨hn, hc⟩ := nextItem_of_closing read.isEmpty hb r
    simpa using items_close (by simpa using hn) (by simpa using hc)
  | cons l ls ih =>
    obtain ⟨⟨ho, hl⟩, hls⟩ := List.forall_mem_cons.mp h
    obtain ⟨u, v, hu, hv, rfl⟩ := hs
    have hn : nextItem read.isEmpty (u ++ (l.2 ++ (v ++ r))) = .ok (some (l.2 ++ (v ++ r))) :=
      nextItem_of_separator hu (ho.append _)
    have hrest := @ih hls (l.1 :: read) v hv
    rw [List.append_assoc, List.append_assoc,
      items_next hn (hl (v ++ r) (hv.stops (Or.inl rfl) r)), hrest]
    simp

/-- The items that were read, each with its text. -/
theorem listing_of_items {item : Reader α} {p : α → List Char → Prop}
    (h : ∀ {t a r}, item.run t = .ok (a, r) → ∃ b u, Blank b ∧ p a u ∧ t = b ++ u ++ r)
    {read as : List α} {s r : List Char} (hs : item.items read s = .ok (as, r)) :
    ∃ (ls : List (α × List Char)) (u : List Char), (∀ l ∈ ls, p l.1 l.2) ∧
      Listing ']' read.isEmpty (ls.map Prod.snd) u ∧ as = read.reverse ++ ls.map Prod.fst ∧
      s = u ++ r := by
  fun_induction items item read s with
  | case1 => cases hs
  | case2 => cases hs
  | case3 read s _ t ht =>
    cases hs
    obtain ⟨b, hb, rfl⟩ := blank_of_closeList ht
    exact ⟨[], b ++ [']'], by simp, ⟨b, hb, rfl⟩, by simp, by simp⟩
  | case4 => cases hs
  | case5 read s t hn a v ha ih =>
    obtain ⟨ls, w, hls, hw, rfl, rfl⟩ := ih hs
    obtain ⟨u, hu, rfl⟩ := separator_of_nextItem hn
    obtain ⟨b, x, hb, hx, rfl⟩ := h ha
    refine ⟨(a, x) :: ls, u ++ b ++ x ++ w, List.forall_mem_cons.mpr ⟨hx, hls⟩, ?_, by simp,
      by simp⟩
    exact ⟨u ++ b, w, hu.append_blank hb, hw, rfl⟩

/-- A member of an object by its key and the text after the key. -/
structure Field where
  key : String
  keyText : List Char
  rest : List Char
  key_spelled : StringSpelled key keyText

def Field.text (f : Field) : List Char :=
  f.keyText ++ f.rest

/-- What is known after some members, if `p` tells what a single one adds. -/
inductive Told (p : σ → String → List Char → σ → Prop) : σ → List Field → σ → Prop where
  | nil {known : σ} : Told p known [] known
  | cons {known next told : σ} {f : Field} {fs : List Field} : p known f.key f.rest next →
      Told p next fs told → Told p known (f :: fs) told

variable {member : σ → String → Reader σ}

theorem members_close {first : Bool} {known : σ} {s r : List Char}
    (hn : nextKey first s = .ok none) (hc : closeObject s = .ok r) :
    members member first known s = .ok (known, r) := by
  rw [members]
  split <;> simp_all

theorem members_next {first : Bool} {known next : σ} {key : String} {s t u r : List Char}
    (hn : nextKey first s = .ok (some t)) (hk : readString t = .ok (key, u))
    (hm : (member known key).run u = .ok (next, r)) :
    members member first known s = members member false next r := by
  rw [members]
  split
  · simp_all
  · simp_all
  next t' ht' =>
    obtain rfl : t' = t := by simpa [hn] using ht'.symm
    split
    · simp_all
    next hk' =>
      rw [hk] at hk'
      cases hk'
      split
      · simp_all
      next hm' =>
        rw [hm] at hm'
        cases hm'
        rfl

theorem members_of_listing {known told : σ} {fs : List Field}
    (h : Told (fun known key t next => (member known key).Reads next t) known fs told)
    {first : Bool} {s : List Char} (hs : Listing '\x7d' first (fs.map Field.text) s)
    (r : List Char) : members member first known (s ++ r) = .ok (told, r) := by
  induction h generalizing first s with
  | nil =>
    obtain ⟨b, hb, rfl⟩ := hs
    obtain ⟨hn, hc⟩ := nextKey_of_closing first hb r
    exact members_close (by simpa using hn) (by simpa using hc)
  | @cons known next told f fs hm _ ih =>
    obtain ⟨u, v, hu, hv, rfl⟩ := hs
    obtain ⟨k, hk, hread⟩ := readString_of_spelled f.key_spelled
    have hn := nextKey_of_separator (t := k ++ (f.rest ++ (v ++ r))) hu
    have ht := hm (v ++ r) (hv.stops (Or.inr rfl) r)
    rw [← ih hv, ← members_next hn (hread _) ht]
    simp [Field.text, hk]

/-- The members that were read, each with its text. -/
theorem listing_of_members {p : σ → String → List Char → σ → Prop}
    (h : ∀ {known key t next r}, (member known key).run t = .ok (next, r) →
      ∃ u, p known key u next ∧ t = u ++ r)
    {first : Bool} {known told : σ} {s r : List Char}
    (hs : members member first known s = .ok (told, r)) :
    ∃ fs u, Told p known fs told ∧ Listing '\x7d' first (fs.map Field.text) u ∧ s = u ++ r := by
  fun_induction members member first known s with
  | case1 => cases hs
  | case2 => cases hs
  | case3 first known s _ t ht =>
    cases hs
    obtain ⟨b, hb, rfl⟩ := blank_of_closeObject ht
    exact ⟨[], b ++ ['\x7d'], .nil, ⟨b, hb, rfl⟩, by simp⟩
  | case4 => cases hs
  | case5 => cases hs
  | case6 first known s t hn key u hk next v hm ih =>
    obtain ⟨fs, w, hfs, hw, rfl⟩ := ih hs
    obtain ⟨b, hb, rfl⟩ := separator_of_nextKey hn
    obtain ⟨k, hks, rfl⟩ := spelled_of_readString hk
    obtain ⟨x, hx, rfl⟩ := h hm
    refine ⟨⟨key, '"' :: k ++ ['"'], x, hks⟩ :: fs, b ++ ('"' :: k ++ ['"'] ++ x) ++ w,
      .cons hx hfs, ⟨b, w, hb, hw, rfl⟩, by simp⟩

/-- A colon with blanks around it stands in front of a value. -/
theorem run_afterColon {reader : Reader α} {b : List Char} (hb : Blank b) (s : List Char) :
    reader.afterColon.run (b ++ ':' :: s) = reader.run s := by
  simp [afterColon, colon_of_blank hb]

theorem blank_of_afterColon {reader : Reader α} {a : α} {s r : List Char}
    (h : reader.afterColon.run s = .ok (a, r)) :
    ∃ b t, Blank b ∧ s = b ++ ':' :: t ∧ reader.run t = .ok (a, r) := by
  simp only [afterColon] at h
  split at h
  · cases h
  next t ht =>
    obtain ⟨b, hb, rfl⟩ := blank_of_colon ht
    exact ⟨b, t, hb, rfl, h⟩

theorem run_map {β : Type} {f : α → β} {reader : Reader α} {a : α} {s r : List Char}
    (h : reader.run s = .ok (a, r)) : (reader.map f).run s = .ok (f a, r) := by
  simp [map, h]

theorem run_of_map {β : Type} {f : α → β} {reader : Reader α} {b : β} {s r : List Char}
    (h : (reader.map f).run s = .ok (b, r)) : ∃ a, reader.run s = .ok (a, r) ∧ b = f a := by
  simp only [map] at h
  split at h
  · cases h
  next a t ha => cases h; exact ⟨a, ha, rfl⟩

end Reader

end StageMonitor.Json

import StageMonitor.Proofs.Json.Skipped

/-! # Reading is decoding trees

What a reader makes of a well-formed text, accepting and refusing alike, is told by a function of
the tree of the text. Lists and objects inherit this from what reads their items and members.
-/

namespace StageMonitor.Json

theorem toOption_eq_some_iff {ε α : Type} {e : Except ε α} {a : α} :
    e.toOption = some a ↔ e = .ok a := by
  cases e <;> simp [Except.toOption]

theorem toOption_eq_none_iff {ε α : Type} {e : Except ε α} :
    e.toOption = none ↔ ∃ fault, e = .error fault := by
  cases e <;> simp [Except.toOption]

/-- A text in quotes is read as a string exactly if it stands for one. -/
theorem Token.readString {t : Option String} {s : List Char} (h : Token t s) :
    ∃ u, s = '"' :: u ∧ ∀ r, (readString (u ++ r)).toOption = t.map fun t => (t, r) := by
  cases h with
  | string h =>
    obtain ⟨u, rfl, hu⟩ := readString_of_spelled h
    exact ⟨u, rfl, fun r => toOption_eq_some_iff.mpr (hu r)⟩
  | @unpaired u h hn =>
    refine ⟨u ++ ['"'], rfl, fun r => ?_⟩
    rw [List.append_assoc]
    exact toOption_eq_none_iff.mpr (readString_of_unpaired h hn r)

/-- What is known after the members of an object, if `tell` says what a single one adds. -/
def told? {σ : Type} (tell : σ → String → Tree → Option σ) :
    σ → List (Option String × Tree) → Option σ
  | known, [] => some known
  | _, (none, _) :: _ => none
  | known, (some key, t) :: ms => (tell known key t).bind fun next => told? tell next ms

namespace Reader

variable {α β σ : Type} {reader : Reader α} {decode : Tree → Option α}

/-- What a reader makes of a text, whatever follows it. Nothing is made of a refused text. -/
def Answers (reader : Reader α) (a : Option α) (s : List Char) : Prop :=
  ∀ r, Stops r → (reader.run (s ++ r)).toOption = a.map fun a => (a, r)

/-- The text of a tree is read as the function tells. -/
def Decodes (reader : Reader α) (decode : Tree → Option α) : Prop :=
  ∀ ⦃t : Tree⦄ ⦃blanks s : List Char⦄, Blank blanks → t.Written s →
    reader.Answers (decode t) (blanks ++ s)

theorem answers_refuse (fault : List Char → Fault) (s : List Char) :
    (refuse fault : Reader α).Answers none s :=
  fun _ _ => rfl

theorem Answers.map {a : Option α} {s : List Char} (h : reader.Answers a s) (f : α → β) :
    (reader.map f).Answers (a.map f) s := by
  intro r hr
  have hs := h r hr
  simp only [Reader.map]
  cases hrun : reader.run (s ++ r) with
  | error fault =>
    rw [hrun] at hs
    cases a <;> simp_all [Except.toOption]
  | ok ar =>
    rw [hrun] at hs
    cases a <;> simp_all [Except.toOption]

theorem Decodes.afterColon (h : reader.Decodes decode) {b : Branch}
    (hw : b.value.Written b.valueText) : reader.afterColon.Answers (decode b.value) b.rest := by
  intro r hr
  have hs := h b.blank_after hw r hr
  rw [Branch.rest, List.append_assoc, List.cons_append, run_afterColon b.blank_before]
  exact hs

theorem items_fail {item : Reader α} {read : List α} {s t : List Char} {fault : Fault}
    (hn : nextItem read.isEmpty s = .ok (some t)) (ht : item.run t = .error fault) :
    item.items read s = .error fault := by
  rw [items]
  split
  · simp_all
  · simp_all
  next t' ht' =>
    obtain rfl : t' = t := by simpa [hn] using ht'.symm
    split
    next hf => rw [ht] at hf; exact congrArg Except.error (Except.error.inj hf).symm
    next ha => rw [ht] at ha; cases ha

/-- A list is read item by item, or refused with its first bad item. -/
theorem Decodes.items (h : reader.Decodes decode) {items : List (Tree × List Char)}
    (hw : ∀ i ∈ items, i.1.Written i.2) {read : List α} {s : List Char}
    (hs : Listing ']' read.isEmpty (items.map Prod.snd) s) (r : List Char) :
    (reader.items read (s ++ r)).toOption =
      ((items.map Prod.fst).mapM decode).map fun as => (read.reverse ++ as, r) := by
  induction items generalizing read s with
  | nil =>
    obtain ⟨b, hb, rfl⟩ := hs
    obtain ⟨hn, hc⟩ := nextItem_of_closing read.isEmpty hb r
    rw [items_close (by simpa using hn) (by simpa using hc)]
    simp [Except.toOption]
  | cons i items ih =>
    obtain ⟨hi, his⟩ := List.forall_mem_cons.mp hw
    obtain ⟨u, v, hu, hv, rfl⟩ := hs
    have hn : nextItem read.isEmpty (u ++ (i.2 ++ (v ++ r))) = .ok (some (i.2 ++ (v ++ r))) :=
      nextItem_of_separator hu (hi.opens.append _)
    have hd := h blank_nil hi (v ++ r) (hv.stops (Or.inl rfl) r)
    rw [List.append_assoc, List.append_assoc, List.map_cons, List.mapM_cons]
    cases ha : decode i.1 with
    | none =>
      rw [ha] at hd
      obtain ⟨fault, hf⟩ := toOption_eq_none_iff.mp hd
      rw [items_fail hn hf]
      rfl
    | some a =>
      rw [ha] at hd
      rw [items_next hn (toOption_eq_some_iff.mp hd), @ih his (a :: read) v hv]
      cases (items.map Prod.fst).mapM decode <;> simp

variable {member : σ → String → Reader σ} {tell : σ → String → Tree → Option σ}

theorem members_fail_key {first : Bool} {known : σ} {s t : List Char} {fault : Fault}
    (hn : nextKey first s = .ok (some t)) (hk : readString t = .error fault) :
    members member first known s = .error fault := by
  rw [members]
  split
  · simp_all
  · simp_all
  next t' ht' =>
    obtain rfl : t' = t := by simpa [hn] using ht'.symm
    split
    next hf => rw [hk] at hf; exact congrArg Except.error (Except.error.inj hf).symm
    next ha => rw [hk] at ha; cases ha

theorem members_fail {first : Bool} {known : σ} {key : String} {s t u : List Char} {fault : Fault}
    (hn : nextKey first s = .ok (some t)) (hk : readString t = .ok (key, u))
    (hm : (member known key).run u = .error fault) :
    members member first known s = .error fault := by
  rw [members]
  split
  · simp_all
  · simp_all
  next t' ht' =>
    obtain rfl : t' = t := by simpa [hn] using ht'.symm
    split
    · simp_all
    next hk' =>
      rw [hk] at hk'
      cases hk'
      split
      next hf => rw [hm] at hf; exact congrArg Except.error (Except.error.inj hf).symm
      next ha => rw [hm] at ha; cases ha

/-- An object is read member by member, or refused with its first bad member. -/
theorem members_told {branches : List Branch}
    (h : ∀ b ∈ branches, ∀ known key, b.key = some key →
      (member known key).Answers (tell known key b.value) b.rest)
    {first : Bool} {known : σ} {s : List Char}
    (hs : Listing '\x7d' first (branches.map Branch.text) s) (r : List Char) :
    (members member first known (s ++ r)).toOption =
      (told? tell known (branches.map Branch.member)).map fun told => (told, r) := by
  induction branches generalizing first known s with
  | nil =>
    obtain ⟨b, hb, rfl⟩ := hs
    obtain ⟨hn, hc⟩ := nextKey_of_closing first hb r
    rw [members_close (by simpa using hn) (by simpa using hc)]
    rfl
  | cons b branches ih =>
    obtain ⟨hb, hbs⟩ := List.forall_mem_cons.mp h
    obtain ⟨u, v, hu, hv, rfl⟩ := hs
    obtain ⟨w, hk, hread⟩ := b.key_token.readString
    have hn := nextKey_of_separator (t := w ++ (b.rest ++ (v ++ r))) hu
    have ht : u ++ b.text ++ v ++ r = u ++ '"' :: (w ++ (b.rest ++ (v ++ r))) := by
      simp [Branch.text, hk]
    have hkey := hread (b.rest ++ (v ++ r))
    rw [ht, List.map_cons, Branch.member]
    cases hbk : b.key with
    | none =>
      rw [hbk] at hkey
      obtain ⟨fault, hf⟩ := toOption_eq_none_iff.mp hkey
      rw [members_fail_key hn hf]
      rfl
    | some key =>
      rw [hbk] at hkey
      have hkey := toOption_eq_some_iff.mp hkey
      have hm := hb known key hbk (v ++ r) (hv.stops (Or.inr rfl) r)
      rw [told?]
      cases htell : tell known key b.value with
      | none =>
        rw [htell] at hm
        obtain ⟨fault, hf⟩ := toOption_eq_none_iff.mp hm
        rw [members_fail hn hkey hf]
        rfl
      | some next =>
        rw [htell] at hm
        rw [members_next hn hkey (toOption_eq_some_iff.mp hm)]
        exact ih hbs hv

theorem Decodes.readDocument (h : reader.Decodes decode) {t : Tree} {text : String}
    (ht : t.IsDocument text) : (reader.readDocument text).toOption = decode t := by
  obtain ⟨b, s, b', hb, hs, hb', htext⟩ := ht
  have hd := h hb hs b' hb'.stops
  rw [← htext] at hd
  cases ha : decode t with
  | none =>
    rw [ha] at hd
    obtain ⟨fault, hf⟩ := toOption_eq_none_iff.mp hd
    simp [Reader.readDocument, readAll, hf, Except.toOption]
  | some a =>
    rw [ha] at hd
    exact toOption_eq_some_iff.mpr
      (readDocument_eq_ok_iff.mpr ⟨b', hb', toOption_eq_some_iff.mp hd⟩)

end Reader

theorem decodes_skipper : skipper.Decodes fun _ => some () := by
  intro t blanks s hb hs r hr
  have h := Tree.skipValue_of_written hs [] hb hr
  rw [skipRest] at h
  simp only [skipper, List.append_assoc, h]
  rfl

end StageMonitor.Json

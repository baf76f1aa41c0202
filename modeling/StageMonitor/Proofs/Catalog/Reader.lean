import StageMonitor.Catalog.Reader
import StageMonitor.Proofs.Catalog.Shape
import StageMonitor.Proofs.Json.Decoding

/-! # Catalogs are read from their trees

The reader accepts exactly the trees of catalogs and refuses every other one.
-/

namespace StageMonitor

open Json Json.Tree

namespace Json.Tree

def text? : Tree → Option String
  | string t => t
  | _ => none

def list? {α : Type} (item : Tree → Option α) : Tree → Option (List α)
  | array ts => ts.mapM item
  | _ => none

@[simp] theorem text?_eq_some_iff {t : Tree} {x : String} :
    t.text? = some x ↔ t = .string (some x) := by
  cases t <;> simp [text?]

theorem list?_eq_some_iff {α : Type} {item : Tree → Option α} {t : Tree} {as : List α} :
    t.list? item = some as ↔ ∃ ts, t = .array ts ∧ ts.mapM item = some as := by
  cases t <;> simp [list?]

theorem mapM_eq_some_iff {α : Type} {decode : Tree → Option α} {ts : List Tree} {as : List α} :
    ts.mapM decode = some as ↔ List.Forall₂ (fun a t => decode t = some a) as ts := by
  induction ts generalizing as with
  | nil => simp [eq_comm]
  | cons t ts ih =>
    rw [List.mapM_cons, List.forall₂_cons_right_iff]
    simp only [Option.bind_eq_bind, Option.bind_eq_some_iff, Option.pure_def, Option.some.injEq, ih]
    constructor
    · rintro ⟨a, ha, as, has, rfl⟩
      exact ⟨a, as, ha, has, rfl⟩
    · rintro ⟨a, as, ha, has, rfl⟩
      exact ⟨a, ha, as, has, rfl⟩

end Json.Tree

section Readers

open Json.Reader

variable {α : Type} {reader : Reader α} {decode : Tree → Option α}

theorem skipBlanks_of_written {blanks u r : List Char} {c : Char} (hb : Blank blanks)
    (hc : isBlank c = false) : skipBlanks (blanks ++ (c :: u) ++ r) = c :: (u ++ r) := by
  rw [List.append_assoc]
  exact skipBlanks_append_cons hb hc _

theorem decodes_textReader : textReader.Decodes Tree.text? := by
  intro t blanks s hb hs r _
  obtain ⟨c, u, rfl, hc, -, -, hq, -⟩ := hs.head
  simp only [textReader, skipBlanks_of_written hb hc]
  cases hs with
  | string h =>
    obtain ⟨w, hw, hread⟩ := h.readString
    obtain ⟨rfl, rfl⟩ := List.cons.inj hw
    exact hread r
  | _ =>
    split
    next heq => obtain ⟨x, hx⟩ := hq (List.cons.inj heq).1; cases hx
    · rfl

theorem decodes_listReader (h : reader.Decodes decode) :
    (listReader reader).Decodes (Tree.list? decode) := by
  intro t blanks s hb hs r _
  obtain ⟨c, u, rfl, hc, -, -, -, hl, -⟩ := hs.head
  simp only [listReader, skipBlanks_of_written hb hc]
  cases hs with
  | array hw hs =>
    simpa [Tree.list?] using @Reader.Decodes.items _ _ _ h _ hw [] _ hs r
  | _ =>
    split
    next heq => obtain ⟨ts, ht⟩ := hl (List.cons.inj heq).1; cases ht
    · rfl

theorem closeList_of_empty {first : Bool} {s : List Char} (hs : Listing ']' first [] s)
    (r : List Char) : closeList (s ++ r) = .ok r := by
  obtain ⟨b, hb, rfl⟩ := hs
  simpa using (nextItem_of_closing first hb r).2

theorem closeList_of_more {t : List Char} {ts : List (List Char)} {s : List Char}
    (hs : Listing ']' false (t :: ts) s) (r : List Char) :
    ∃ fault, closeList (s ++ r) = .error fault := by
  obtain ⟨u, v, hu, -, rfl⟩ := hs
  obtain ⟨b, -, hc⟩ := skipBlanks_separator (t := t ++ (v ++ r)) hu
  rw [closeList, List.append_assoc, List.append_assoc, hc]
  simp only
  split <;> exact ⟨_, rfl⟩

theorem readField_of_empty (reader : Reader α) (index : Nat) (expected : String) {s : List Char}
    (hs : Listing ']' (index = 0) [] s) (r : List Char) :
    ∃ fault, readField reader index expected (s ++ r) = .error fault := by
  have hc := closeList_of_empty hs r
  obtain ⟨b, hb, rfl⟩ := hs
  have hn := (nextItem_of_closing (index = 0) hb r).1
  rw [readField, List.append_assoc, List.singleton_append, hn]
  rw [List.append_assoc, List.singleton_append] at hc
  simp only [hc]
  exact ⟨_, rfl⟩

/-- A field in a list is there and can be read, or there is a fault. -/
theorem readField_cases (h : reader.Decodes decode) (index : Nat) (expected : String)
    {items : List (Tree × List Char)} (hw : ∀ i ∈ items, i.1.Written i.2) {s : List Char}
    (hs : Listing ']' (index = 0) (items.map Prod.snd) s) (r : List Char) :
    ((∃ fault, readField reader index expected (s ++ r) = .error fault) ∧
      ∀ i ∈ items.head?, decode i.1 = none) ∨
    ∃ i rest a v, items = i :: rest ∧ decode i.1 = some a ∧
      Listing ']' false (rest.map Prod.snd) v ∧
      readField reader index expected (s ++ r) = .ok (a, v ++ r) := by
  cases items with
  | nil => exact Or.inl ⟨readField_of_empty reader index expected hs r, by simp⟩
  | cons i rest =>
    obtain ⟨hi, -⟩ := List.forall_mem_cons.mp hw
    obtain ⟨u, v, hu, hv, rfl⟩ := hs
    have hd := h blank_nil hi (v ++ r) (hv.stops (Or.inl rfl) r)
    have hr : readField reader index expected (u ++ i.2 ++ v ++ r) =
        reader.run (i.2 ++ (v ++ r)) := by
      rw [readField, List.append_assoc, List.append_assoc,
        nextItem_of_separator hu (hi.opens.append _)]
    rw [hr]
    cases ha : decode i.1 with
    | none =>
      rw [ha] at hd
      exact Or.inl ⟨toOption_eq_none_iff.mp hd, by simpa using ha⟩
    | some a =>
      rw [ha] at hd
      exact Or.inr ⟨i, rest, a, v, rfl, ha, hv, toOption_eq_some_iff.mp hd⟩

/-- A record is read as a list or as an object, by the bracket with which it opens. -/
theorem decodes_record {readObject readList : List Char → Outcome α} {expected : String}
    (hrun : ∀ s, reader.run s = match skipBlanks s with
      | '\x7b' :: r => readObject r
      | '[' :: r => readList r
      | t => .error (wrongType expected t))
    (ho : ∀ {branches : List Branch} {s : List Char},
      (∀ b ∈ branches, b.value.Written b.valueText) →
      Listing '\x7d' true (branches.map Branch.text) s → ∀ r, (readObject (s ++ r)).toOption =
        (decode (.object (branches.map Branch.member))).map fun a => (a, r))
    (hl : ∀ {items : List (Tree × List Char)} {s : List Char}, (∀ i ∈ items, i.1.Written i.2) →
      Listing ']' true (items.map Prod.snd) s → ∀ r, (readList (s ++ r)).toOption =
        (decode (.array (items.map Prod.fst))).map fun a => (a, r))
    (hn : ∀ t : Tree, ¬ t.IsList → (∀ members, t ≠ .object members) → decode t = none) :
    reader.Decodes decode := by
  intro t blanks s hb hs r _
  obtain ⟨c, u, rfl, hc, -, -, -, hlist, hobject⟩ := hs.head
  simp only [hrun, skipBlanks_of_written hb hc]
  cases hs with
  | array hw hs => exact hl hw hs r
  | object hw hs => exact ho hw hs r
  | _ =>
    split
    next heq => obtain ⟨ms, ht⟩ := hobject (List.cons.inj heq).1; cases ht
    next heq => obtain ⟨ts, ht⟩ := hlist (List.cons.inj heq).1; cases ht
    · rw [hn _ (by simp [IsList]) (by simp)]
      rfl

end Readers

/-- A field that is given at most once, before a list of values and after it. -/
inductive Filled {α : Type} (decode : Tree → Option α) :
    Option α → List Tree → Option α → Prop where
  | nil {a : Option α} : Filled decode a [] a
  | cons {t : Tree} {ts : List Tree} {a : α} {b : Option α} :
      decode t = some a → Filled decode (some a) ts b → Filled decode none (t :: ts) b

section Filled

variable {α : Type} {decode : Tree → Option α} {t : Tree} {ts : List Tree} {a : α} {b c : Option α}

@[simp] theorem filled_nil_iff : Filled decode b [] c ↔ b = c :=
  ⟨fun | .nil => rfl, fun h => h ▸ .nil⟩

@[simp] theorem not_filled_some_cons : ¬ Filled decode (some a) (t :: ts) b :=
  fun h => nomatch h

@[simp] theorem filled_none_cons_iff :
    Filled decode none (t :: ts) b ↔ ∃ a, decode t = some a ∧ Filled decode (some a) ts b :=
  ⟨fun | .cons ha h => ⟨_, ha, h⟩, fun ⟨_, ha, h⟩ => .cons ha h⟩

theorem filled_none_some_iff :
    Filled decode none ts (some a) ↔ ∃ t, ts = [t] ∧ decode t = some a := by
  cases ts with
  | nil => simp
  | cons t ts => cases ts <;> simp

end Filled

namespace Stage

def tell (known : Fields) (key : String) (t : Tree) : Option Fields :=
  if key = "id" then
    if known.id.isSome then none else t.text?.map fun x => ⟨some x, known.label⟩
  else if key = "label" then
    if known.label.isSome then none else t.text?.map fun x => ⟨known.id, some x⟩
  else some known

theorem member_answers {b : Branch} (hw : b.value.Written b.valueText) (known : Fields)
    (key : String) : (member known key).Answers (tell known key b.value) b.rest := by
  unfold member tell
  split
  · split
    · exact Reader.answers_refuse _ _
    · exact (decodes_textReader.afterColon hw).map _
  split
  · split
    · exact Reader.answers_refuse _ _
    · exact (decodes_textReader.afterColon hw).map _
  · exact (decodes_skipper.afterColon hw).map fun _ => known

/-- In whatever order the members come, each field is filled by the values under its own key. -/
theorem told?_tell_eq_some_iff {known fields : Fields} {members : List (Option String × Tree)} :
    told? tell known members = some fields ↔
      (∀ m ∈ members, m.1 ≠ none) ∧ Filled Tree.text? known.id (under "id" members) fields.id ∧
        Filled Tree.text? known.label (under "label" members) fields.label := by
  induction members generalizing known with
  | nil =>
    obtain ⟨id, label⟩ := known
    obtain ⟨id', label'⟩ := fields
    simp [told?, under]
  | cons m members ih =>
    obtain ⟨key, t⟩ := m
    obtain ⟨id, label⟩ := known
    cases key with
    | none => simp [told?]
    | some key =>
      by_cases hid : key = "id"
      · subst hid
        cases id with
        | none => cases ht : t.text? <;> simp [told?, tell, under_cons, ht, ih]
        | some x => simp [told?, tell, under_cons]
      by_cases hlabel : key = "label"
      · subst hlabel
        cases label with
        | none => cases ht : t.text? <;> simp [told?, tell, under_cons, ht, ih]
        | some x => simp [told?, tell, under_cons]
      · simp [told?, tell, under_cons, hid, hlabel, ih]

def ofTree? : Tree → Option Stage
  | .array [id, label] => id.text?.bind fun id => label.text?.map fun label => ⟨id, label⟩
  | .object members =>
    (told? tell ⟨none, none⟩ members).bind fun fields => (ofFields fields).toOption
  | _ => none

theorem ofFields_toOption_eq_some_iff {fields : Fields} {stage : Stage} :
    (ofFields fields).toOption = some stage ↔ fields = ⟨some stage.id, some stage.label⟩ := by
  obtain ⟨id, label⟩ := fields
  obtain ⟨id', label'⟩ := stage
  cases id <;> cases label <;> simp [ofFields, Except.toOption]

theorem ofTree?_eq_some_iff {t : Tree} {stage : Stage} :
    ofTree? t = some stage ↔ stage.Shape t := by
  unfold ofTree? Shape
  split
  next id label =>
    obtain ⟨x, y⟩ := stage
    simp [hasFields_array_iff, Option.bind_eq_some_iff, and_comm]
  next members =>
    simp [hasFields_object_iff, Option.bind_eq_some_iff, ofFields_toOption_eq_some_iff,
      told?_tell_eq_some_iff, filled_none_some_iff]
  next h h' =>
    simp only [reduceCtorEq, false_iff]
    intro hf
    cases hf with
    | list => exact h _ _ rfl
    | object => exact h' _ rfl

theorem readObject_toOption {branches : List Branch} {s : List Char}
    (hw : ∀ b ∈ branches, b.value.Written b.valueText)
    (hs : Listing '\x7d' true (branches.map Branch.text) s) (r : List Char) :
    (readObject (s ++ r)).toOption =
      (ofTree? (.object (branches.map Branch.member))).map fun stage => (stage, r) := by
  have ht : (Reader.members member true ⟨none, none⟩ (s ++ r)).toOption = _ :=
    Reader.members_told (fun b hb known key _ => member_answers (hw b hb) known key) hs r
  rw [ofTree?]
  cases hf : told? tell ⟨none, none⟩ (branches.map Branch.member) with
  | none =>
    rw [hf] at ht
    obtain ⟨fault, hm⟩ := toOption_eq_none_iff.mp ht
    simp [readObject, hm, Except.toOption]
  | some fields =>
    rw [hf] at ht
    simp only [readObject, toOption_eq_some_iff.mp ht, Option.bind_some]
    cases ofFields fields <;> rfl

theorem readList_toOption {items : List (Tree × List Char)} {s : List Char}
    (hw : ∀ i ∈ items, i.1.Written i.2) (hs : Listing ']' true (items.map Prod.snd) s)
    (r : List Char) :
    (readList (s ++ r)).toOption =
      (ofTree? (.array (items.map Prod.fst))).map fun stage => (stage, r) := by
  obtain ⟨⟨fault, hf⟩, hn⟩ | ⟨i, rest, id, t, rfl, hid, ht, hf⟩ :=
    readField_cases decodes_textReader 0 listForm hw hs r
  · have hnone : ofTree? (.array (items.map Prod.fst)) = none := by
      rcases items with _ | ⟨i, _ | ⟨_, _ | _⟩⟩
      · rfl
      · rfl
      · simp [ofTree?, hn i rfl]
      · rfl
    simp only [readList, hf, hnone]
    rfl
  simp only [readList, hf]
  obtain ⟨⟨fault, hf⟩, hn⟩ | ⟨j, rest, label, u, rfl, hlabel, hu, hf⟩ :=
    readField_cases decodes_textReader 1 listForm (List.forall_mem_cons.mp hw).2 ht r
  · have hnone : ofTree? (.array ((i :: rest).map Prod.fst)) = none := by
      rcases rest with _ | ⟨j, _ | _⟩
      · rfl
      · simp [ofTree?, hn j rfl]
      · rfl
    simp only [hf, hnone]
    rfl
  simp only [hf]
  cases rest with
  | nil => simp [closeList_of_empty hu r, ofTree?, hid, hlabel, Except.toOption]
  | cons k rest =>
    obtain ⟨fault, hc⟩ := closeList_of_more hu r
    simp [hc, ofTree?, Except.toOption]

theorem decodes_reader : Stage.reader.Decodes ofTree? :=
  decodes_record (fun _ => rfl) readObject_toOption readList_toOption fun
    | .null, _, _ | .bool _, _, _ | .number _, _, _ | .string _, _, _ => rfl
    | .array ts, hl, _ => absurd ⟨ts, rfl⟩ hl
    | .object ms, _, ho => absurd rfl (ho ms)

end Stage

namespace Catalog

variable {known told : Option (List Stage)}

def tell (known : Option (List Stage)) (key : String) (t : Tree) : Option (Option (List Stage)) :=
  if key = "stages" then
    if known.isSome then none else (t.list? Stage.ofTree?).map some
  else some known

theorem member_answers {b : Branch} (hw : b.value.Written b.valueText)
    (known : Option (List Stage)) (key : String) :
    (member known key).Answers (tell known key b.value) b.rest := by
  unfold member tell
  split
  · split
    · exact Reader.answers_refuse _ _
    · exact ((decodes_listReader Stage.decodes_reader).afterColon hw).map _
  · exact (decodes_skipper.afterColon hw).map fun _ => known

theorem told?_tell_eq_some_iff {members : List (Option String × Tree)} :
    told? tell known members = some told ↔
      (∀ m ∈ members, m.1 ≠ none) ∧
        Filled (Tree.list? Stage.ofTree?) known (under "stages" members) told := by
  induction members generalizing known with
  | nil => simp [told?, under]
  | cons m members ih =>
    obtain ⟨key, t⟩ := m
    cases key with
    | none => simp [told?]
    | some key =>
      by_cases hs : key = "stages"
      · subst hs
        cases known with
        | none => cases ht : t.list? Stage.ofTree? <;> simp [told?, tell, under_cons, ht, ih]
        | some stages => simp [told?, tell, under_cons]
      · simp [told?, tell, under_cons, hs, ih]

def ofTree? : Tree → Option Catalog
  | .array [t] => (t.list? Stage.ofTree?).map mk
  | .object members => (told? tell none members).bind fun stages => stages.map mk
  | _ => none

theorem ofTree?_eq_some_iff {t : Tree} {catalog : Catalog} :
    ofTree? t = some catalog ↔ catalog.Shape t := by
  obtain ⟨stages⟩ := catalog
  unfold ofTree? Shape
  split
  next t =>
    simp [hasFields_array_iff, list?_eq_some_iff, mapM_eq_some_iff, Stage.ofTree?_eq_some_iff]
  next members =>
    simp [hasFields_object_iff, Option.bind_eq_some_iff, told?_tell_eq_some_iff, and_assoc,
      filled_none_some_iff, list?_eq_some_iff, mapM_eq_some_iff, Stage.ofTree?_eq_some_iff]
  next h h' =>
    simp only [reduceCtorEq, false_iff]
    rintro ⟨ts, hf, -⟩
    cases hf with
    | list => exact h _ rfl
    | object => exact h' _ rfl

theorem readObject_toOption {branches : List Branch} {s : List Char}
    (hw : ∀ b ∈ branches, b.value.Written b.valueText)
    (hs : Listing '\x7d' true (branches.map Branch.text) s) (r : List Char) :
    (readObject (s ++ r)).toOption =
      (ofTree? (.object (branches.map Branch.member))).map fun catalog => (catalog, r) := by
  have ht : (Reader.members member true none (s ++ r)).toOption = _ :=
    Reader.members_told (fun b hb known key _ => member_answers (hw b hb) known key) hs r
  rw [ofTree?]
  cases hf : told? tell none (branches.map Branch.member) with
  | none =>
    rw [hf] at ht
    obtain ⟨fault, hm⟩ := toOption_eq_none_iff.mp ht
    simp [readObject, hm, Except.toOption]
  | some told =>
    rw [hf] at ht
    rw [readObject, toOption_eq_some_iff.mp ht]
    cases told <;> rfl

theorem readList_toOption {items : List (Tree × List Char)} {s : List Char}
    (hw : ∀ i ∈ items, i.1.Written i.2) (hs : Listing ']' true (items.map Prod.snd) s)
    (r : List Char) :
    (readList (s ++ r)).toOption =
      (ofTree? (.array (items.map Prod.fst))).map fun catalog => (catalog, r) := by
  obtain ⟨⟨fault, hf⟩, hn⟩ | ⟨i, rest, stages, t, rfl, hstages, ht, hf⟩ :=
    readField_cases (decodes_listReader Stage.decodes_reader) 0
      "struct DashboardConfig with 1 element" hw hs r
  · have hnone : ofTree? (.array (items.map Prod.fst)) = none := by
      rcases items with _ | ⟨i, _ | _⟩
      · rfl
      · simp [ofTree?, hn i rfl]
      · rfl
    simp only [readList, hf, hnone]
    rfl
  simp only [readList, hf]
  cases rest with
  | nil => simp [closeList_of_empty ht r, ofTree?, hstages, Except.toOption]
  | cons j rest =>
    obtain ⟨fault, hc⟩ := closeList_of_more ht r
    simp [hc, ofTree?, Except.toOption]

theorem decodes_reader : Catalog.reader.Decodes ofTree? :=
  decodes_record (fun _ => rfl) readObject_toOption readList_toOption fun
    | .null, _, _ | .bool _, _, _ | .number _, _, _ | .string _, _, _ => rfl
    | .array ts, hl, _ => absurd ⟨ts, rfl⟩ hl
    | .object ms, _, ho => absurd rfl (ho ms)

/-- Of all well-formed texts, those of catalogs are read, each as its own catalog. -/
theorem ofDocument_eq_ok_iff {t : Tree} {text : String} (ht : t.IsDocument text)
    {catalog : Catalog} : ofDocument text = .ok catalog ↔ catalog.Shape t := by
  rw [← toOption_eq_some_iff, ofDocument, decodes_reader.readDocument ht, ofTree?_eq_some_iff]

end Catalog

end StageMonitor

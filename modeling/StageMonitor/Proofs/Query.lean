import StageMonitor.Panel.Family
import StageMonitor.Proofs.Catalog.Report
import Mathlib.Data.List.Infix

/-! # Queries and the ids inside them

A query is a frame around a quoted id. If the id has neither quotes nor backslashes, it cannot break
out of its quotes, so the frame alone decides how the query is built and which stage it matches.
-/

namespace StageMonitor

namespace Query

/-- The text that is not between quotes; `quoted` tells on which side it starts. -/
def outside (quoted : Bool) : List Char → List Char
  | [] => []
  | c :: s =>
    if c = '"' then outside (!quoted) s
    else if quoted then outside quoted s
    else c :: outside quoted s

def closing? : Char → Option Char
  | '(' => some ')'
  | '[' => some ']'
  | '\x7b' => some '\x7d'
  | _ => none

/-- The brackets that have to be closed after a character, the next one first. Closing another one
is a fault. -/
def awaited? (awaited : List Char) (c : Char) : Option (List Char) :=
  match closing? c with
  | some d => some (d :: awaited)
  | none =>
    if c = ')' ∨ c = ']' ∨ c = '\x7d' then
      if awaited.head? = some c then some awaited.tail else none
    else some awaited

/-- The last bracket that was opened is always closed first, and none stays open. -/
def Nested (s : List Char) : Prop :=
  s.foldlM awaited? [] = some []

def matcher (stage : String) : String :=
  "stage=\"" ++ stage ++ "\""

/-- A query that matches one stage and keeps its id between its only quotes. -/
structure Confined (id expression : String) : Prop where
  two_quotes : expression.toList.count '"' = 2
  no_backslash : '\\' ∉ expression.toList
  between : ∃ before after, expression.toList = before ++ '"' :: id.toList ++ '"' :: after
  nested_outside : Nested (outside false expression.toList)
  matches_iff : ∀ stage, (matcher stage).toList <:+: expression.toList ↔ stage = id

/-- A character that stands for itself between quotes. -/
def isLiteral (c : Char) : Bool :=
  c ≠ '"' && c ≠ '\\'

theorem not_mem_of_all_isLiteral {s : List Char} (h : s.all isLiteral = true) :
    '"' ∉ s ∧ '\\' ∉ s := by
  rw [List.all_eq_true] at h
  exact ⟨fun hm => absurd (h _ hm) (by decide), fun hm => absurd (h _ hm) (by decide)⟩

/-- What stands around a quoted id. -/
structure IsFrame (before after : List Char) : Prop where
  literal : (before ++ after).all isLiteral = true
  label : "stage=".toList <:+ before
  nested : Nested (before ++ after)

theorem eq_of_append_quote {a a' b b' : List Char} (ha : '"' ∉ a) (ha' : '"' ∉ a')
    (h : a ++ '"' :: b = a' ++ '"' :: b') : a = a' ∧ b = b' := by
  induction a generalizing a' with
  | nil =>
    cases a' with
    | nil => exact ⟨rfl, (List.cons.inj h).2⟩
    | cons c a' => exact absurd (List.mem_cons.mpr (Or.inl (List.cons.inj h).1)) ha'
  | cons c a ih =>
    cases a' with
    | nil => exact absurd (List.mem_cons.mpr (Or.inl (List.cons.inj h).1.symm)) ha
    | cons c' a' =>
      obtain ⟨rfl, ht⟩ := List.cons.inj h
      obtain ⟨rfl, rfl⟩ := ih (fun hm => ha (List.mem_cons_of_mem _ hm))
        (fun hm => ha' (List.mem_cons_of_mem _ hm)) ht
      exact ⟨rfl, rfl⟩

theorem outside_append (quoted : Bool) {a : List Char} (ha : '"' ∉ a) (s : List Char) :
    outside quoted (a ++ s) = (if quoted then [] else a) ++ outside quoted s := by
  induction a with
  | nil => cases quoted <;> rfl
  | cons c a ih =>
    rw [List.mem_cons, not_or] at ha
    rw [List.cons_append, outside, if_neg (Ne.symm ha.1), ih ha.2]
    cases quoted <;> rfl

theorem outside_quote (quoted : Bool) (s : List Char) :
    outside quoted ('"' :: s) = outside (!quoted) s := by
  rw [outside, if_pos rfl]

theorem toList_matcher (stage : String) :
    (matcher stage).toList = "stage=".toList ++ '"' :: stage.toList ++ ['"'] := by
  simp [matcher]

section Frame

variable {before after : List Char} {id expression : String}

theorem IsFrame.no_quote (hf : IsFrame before after) : '"' ∉ before ∧ '"' ∉ after :=
  not_or.mp fun hm => (not_mem_of_all_isLiteral hf.literal).1 (List.mem_append.mpr hm)

theorem IsFrame.no_backslash (hf : IsFrame before after) : '\\' ∉ before ∧ '\\' ∉ after :=
  not_or.mp fun hm => (not_mem_of_all_isLiteral hf.literal).2 (List.mem_append.mpr hm)

theorem IsFrame.count_quote (hf : IsFrame before after) (hid : '"' ∉ id.toList) :
    (before ++ '"' :: id.toList ++ '"' :: after).count '"' = 2 := by
  obtain ⟨hb, ha⟩ := hf.no_quote
  simp [List.count_append, List.count_eq_zero.mpr hb, List.count_eq_zero.mpr ha,
    List.count_eq_zero.mpr hid]

/-- A frame matches the id inside it and no other: the only quotes are those around the id. -/
theorem IsFrame.infix_iff (hf : IsFrame before after) (hid : '"' ∉ id.toList) (stage : String) :
    (matcher stage).toList <:+: before ++ '"' :: id.toList ++ '"' :: after ↔ stage = id := by
  constructor
  · rintro ⟨u, v, h⟩
    -- Both quotes of the query are taken by the match, so none is left beside or inside them.
    have hl : '"' ∉ "stage=".toList := by decide
    have hc : u.count '"' + stage.toList.count '"' + v.count '"' = 0 := by
      have hc := hf.count_quote hid
      rw [← h, toList_matcher] at hc
      simp only [List.count_append, List.count_cons_self, List.count_eq_zero.mpr hl,
        List.count_nil] at hc
      omega
    have hu : '"' ∉ u ++ "stage=".toList := by
      rw [List.mem_append, not_or]
      exact ⟨List.count_eq_zero.mp (by omega), hl⟩
    have hs : '"' ∉ stage.toList := List.count_eq_zero.mp (by omega)
    rw [toList_matcher] at h
    have hsplit : (u ++ "stage=".toList) ++ '"' :: (stage.toList ++ '"' :: v) =
        before ++ '"' :: (id.toList ++ '"' :: after) := by
      simpa using h
    obtain ⟨-, hrest⟩ := eq_of_append_quote hu hf.no_quote.1 hsplit
    exact String.toList_inj.mp (eq_of_append_quote hs hid hrest).1
  · rintro rfl
    obtain ⟨u, hu⟩ := hf.label
    exact ⟨u, after, by rw [toList_matcher, ← hu]; simp⟩

theorem IsFrame.outside_eq (hf : IsFrame before after) (hid : '"' ∉ id.toList) :
    outside false (before ++ '"' :: id.toList ++ '"' :: after) = before ++ after := by
  obtain ⟨hb, ha⟩ := hf.no_quote
  have hend := outside_append false ha []
  rw [List.append_nil] at hend
  rw [List.append_assoc, outside_append false hb, List.cons_append, outside_quote, Bool.not_false,
    outside_append true hid, outside_quote, Bool.not_true, hend]
  simp [outside]

/-- An id with no quotes and no backslashes stays inside its frame. -/
theorem IsFrame.confined (hf : IsFrame before after)
    (hid : id.toList.all isLiteral = true)
    (h : expression.toList = before ++ '"' :: id.toList ++ '"' :: after) :
    Confined id expression := by
  obtain ⟨hq, hs⟩ := not_mem_of_all_isLiteral hid
  obtain ⟨hb, ha⟩ := hf.no_backslash
  constructor
  · rw [h, hf.count_quote hq]
  · simp [h, hb, ha, hs]
  · exact ⟨before, after, h⟩
  · rw [h, hf.outside_eq hq]
    exact hf.nested
  · intro stage
    rw [h, hf.infix_iff hq]

end Frame

section Words

variable {word : List Char}

/-- A word holds no bracket, quote or backslash. -/
theorem awaited?_of_isIdChar {c : Char} (h : isIdChar c = true) (awaited : List Char) :
    awaited? awaited c = some awaited := by
  have ho : closing? c = none := by
    unfold closing?
    split
    iterate 3 cases h
    rfl
  have hn : ¬ (c = ')' ∨ c = ']' ∨ c = '\x7d') := by
    rintro (rfl | rfl | rfl) <;> cases h
  unfold awaited?
  rw [ho]
  exact if_neg hn

theorem foldlM_word (h : word.all isIdChar = true) (awaited : List Char) :
    word.foldlM awaited? awaited = some awaited := by
  induction word with
  | nil => rfl
  | cons c word ih =>
    rw [List.all_cons, Bool.and_eq_true] at h
    rw [List.foldlM_cons, awaited?_of_isIdChar h.1]
    exact ih h.2

theorem all_isLiteral_word (h : word.all isIdChar = true) : word.all isLiteral = true := by
  rw [List.all_eq_true] at h ⊢
  intro c hc
  have hi := h c hc
  simp only [isLiteral, Bool.and_eq_true, decide_eq_true_eq]
  constructor
  · rintro rfl; cases hi
  · rintro rfl; cases hi

end Words

/-- The name of a metric and its label stand between the calls that open and close around them. -/
theorem isFrame_of_name {opening name after awaited : List Char}
    (hp : (opening ++ after).all isLiteral = true) (hn : name.all isIdChar = true)
    (ho : opening.foldlM awaited? [] = some awaited)
    (ha : ("\x7bstage=".toList ++ after).foldlM awaited? awaited = some []) :
    IsFrame (opening ++ (name ++ "\x7bstage=".toList)) after where
  literal := by
    have hs : "\x7bstage=".toList.all isLiteral = true := by decide
    rw [List.all_append, Bool.and_eq_true] at hp
    simp only [List.all_append, hp.1, hp.2, all_isLiteral_word hn, hs, Bool.and_true]
  label := by
    have hs : "stage=".toList <:+ "\x7bstage=".toList := ⟨['\x7b'], rfl⟩
    exact (hs.trans (List.suffix_append name _)).trans (List.suffix_append opening _)
  nested := by
    rw [Nested, List.append_assoc, List.append_assoc, List.foldlM_append, ho]
    exact (List.foldlM_append ..).trans (by rw [foldlM_word hn]; exact ha)

def quantileOpening (q : Quantile) : List Char :=
  "histogram_quantile(".toList ++ (q.fraction.toList ++ ", sum by (le) (rate(".toList)

def quantileClosing : List Char :=
  "\x7d[30m])))".toList

theorem toList_quantile (q : Quantile) (metric : Histogram) (stage : String) :
    (quantile q metric stage window).toList =
      quantileOpening q ++ (metric.bucketName.toList ++ "\x7bstage=".toList) ++
        '"' :: stage.toList ++ '"' :: quantileClosing := by
  unfold quantile selector quantileOpening quantileClosing window
  simp

def increaseOpening : List Char :=
  "sum(increase(".toList

def increaseClosing : List Char :=
  "\x7d[30m]))".toList

theorem toList_increase (metric : Counter) (stage : String) :
    (increase metric stage window).toList =
      increaseOpening ++ (metric.name.toList ++ "\x7bstage=".toList) ++
        '"' :: stage.toList ++ '"' :: increaseClosing := by
  unfold increase selector increaseOpening increaseClosing window
  simp

variable {id : String}

/-- If the id and the name of the metric are words, the query for a quantile confines the id. -/
theorem confined_quantile (q : Quantile) {metric : Histogram}
    (hm : metric.bucketName.toList.all isIdChar = true)
    (hid : id.toList.all isIdChar = true) : Confined id (quantile q metric id window) := by
  have hp : (quantileOpening q ++ quantileClosing).all isLiteral = true := by
    cases q <;> decide
  have ho : (quantileOpening q).foldlM awaited? [] = some [')', ')', ')'] := by
    cases q <;> decide
  have hc : ("\x7bstage=".toList ++ quantileClosing).foldlM awaited? [')', ')', ')'] =
      some [] := by
    decide
  have hf := isFrame_of_name hp hm ho hc
  exact hf.confined (all_isLiteral_word hid) (toList_quantile q metric id)

theorem confined_increase {metric : Counter} (hm : metric.name.toList.all isIdChar = true)
    (hid : id.toList.all isIdChar = true) : Confined id (increase metric id window) := by
  have hp : (increaseOpening ++ increaseClosing).all isLiteral = true := by decide
  have ho : increaseOpening.foldlM awaited? [] = some [')', ')'] := by decide
  have hc : ("\x7bstage=".toList ++ increaseClosing).foldlM awaited? [')', ')'] = some [] := by
    decide
  have hf := isFrame_of_name hp hm ho hc
  exact hf.confined (all_isLiteral_word hid) (toList_increase metric id)

end Query

theorem Histogram.bucketName_word {metric : Histogram} (h : metric ∈ Histogram.all) :
    metric.bucketName.toList.all isIdChar = true := by
  simp only [Histogram.all, List.mem_cons, List.not_mem_nil, or_false] at h
  rcases h with rfl | rfl | rfl <;> decide

theorem Counter.name_word {metric : Counter} (h : metric ∈ Counter.all) :
    metric.name.toList.all isIdChar = true := by
  simp only [Counter.all, List.mem_cons, List.not_mem_nil, or_false] at h
  rcases h with rfl | rfl <;> decide

namespace Family

variable {stage : Stage}

theorem confined_quantileSeries {name : String} {metric : Histogram} (hm : metric ∈ Histogram.all)
    (hid : stage.id.toList.all isIdChar = true) :
    ∀ s ∈ quantileSeries name metric stage, Query.Confined stage.id s.expression := by
  unfold quantileSeries
  rw [List.forall_mem_map]
  exact fun q _ => Query.confined_quantile q (Histogram.bucketName_word hm) hid

theorem confined_increaseSeries {name : String} {metric : Counter} (hm : metric ∈ Counter.all)
    (hid : stage.id.toList.all isIdChar = true) :
    Query.Confined stage.id (increaseSeries name metric stage).expression :=
  Query.confined_increase (Counter.name_word hm) hid

/-- Every series of a stage is confined to it. -/
theorem confined_series (family : Family) (hid : stage.id.toList.all isIdChar = true) :
    ∀ s ∈ family.series stage, Query.Confined stage.id s.expression := by
  cases family with
  | latency =>
    rw [series, List.forall_mem_append]
    exact ⟨confined_quantileSeries (by decide) hid, confined_quantileSeries (by decide) hid⟩
  | payload => exact confined_quantileSeries (by decide) hid
  | issues =>
    simp only [series, List.forall_mem_cons]
    exact ⟨confined_increaseSeries (by decide) hid, confined_increaseSeries (by decide) hid,
      fun _ h => nomatch h⟩

end Family

end StageMonitor

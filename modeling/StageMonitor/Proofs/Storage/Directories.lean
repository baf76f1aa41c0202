import StageMonitor.Proofs.Storage

/-! # The directories of a path

Each directory of a path is a start of the path, and the names on its way are the first names on the
way of the path. So wherever the path can be approached, all its directories are there.
-/

namespace StageMonitor

namespace Path

/-- The names that some segments stand for. -/
def named (segments : List (List Char)) : List String :=
  (segments.filter (· ≠ [])).map String.ofList

/-- The names on the way of a path. -/
def names (path : List Char) : List String :=
  named (segments path)

theorem named_append (as bs : List (List Char)) : named (as ++ bs) = named as ++ named bs := by
  simp only [named, List.filter_append, List.map_append]

theorem named_ne_nil {segments : List (List Char)} {segment : List Char}
    (hm : segment ∈ segments) (hs : segment ≠ []) : named segments ≠ [] := by
  have hf : segment ∈ segments.filter (· ≠ []) := List.mem_filter.mpr ⟨hm, by simp [hs]⟩
  exact List.ne_nil_of_mem (List.mem_map_of_mem hf)

theorem segments_eq_splitOn (s : List Char) : segments s = s.splitOn '/' := by
  induction s with
  | nil => rfl
  | cons c s ih =>
    rw [segments, ih, List.splitOn_cons_eq_if_modifyHead]
    cases h : s.splitOn '/' with
    | nil => exact absurd h (List.splitOn_ne_nil '/' s)
    | cons first rest => simp

theorem slash_not_mem_of_mem_segments {s segment : List Char} (h : segment ∈ segments s) :
    '/' ∉ segment := by
  induction s generalizing segment with
  | nil =>
    rw [segments, List.mem_singleton] at h
    simp [h]
  | cons c s ih =>
    rw [segments] at h
    split at h
    · cases h
    next first rest hs =>
      rw [hs] at ih
      split at h
      · rcases List.mem_cons.mp h with rfl | h
        · simp
        · exact ih h
      next hc =>
        rcases List.mem_cons.mp h with rfl | h
        · simp [Ne.symm hc, ih List.mem_cons_self]
        · exact ih (List.mem_cons_of_mem _ h)

theorem names_append_slash (s t : List Char) : names (s ++ '/' :: t) = names s ++ names t := by
  simp only [names, segments_eq_splitOn, List.splitOn_append_cons_self, named_append]

theorem names_intercalate {ks : List (List Char)} (h : ∀ k ∈ ks, '/' ∉ k) :
    names (List.intercalate ['/'] ks) = named ks := by
  by_cases hk : ks = []
  · subst hk
    rfl
  · rw [names, segments_eq_splitOn, List.splitOn_intercalate '/' h hk]

theorem intercalate_isPrefix (sep : List Char) (ks ms : List (List Char)) :
    List.intercalate sep ks <+: List.intercalate sep (ks ++ ms) := by
  induction ks with
  | nil => exact List.nil_prefix
  | cons k ks ih =>
    cases ks with
    | nil =>
      cases ms with
      | nil => exact List.prefix_rfl
      | cons m ms =>
        rw [List.intercalate_singleton, List.singleton_append, List.intercalate_cons_cons,
          List.append_assoc]
        exact List.prefix_append _ _
    | cons k' ks =>
      rw [List.cons_append, List.cons_append, List.intercalate_cons_cons,
        List.intercalate_cons_cons, List.prefix_append_right_inj]
      exact ih

/-- The first segments of a text, joined again. -/
theorem names_of_segments_eq_append {s : List Char} {ks ms : List (List Char)}
    (h : segments s = ks ++ ms) :
    List.intercalate ['/'] ks <+: s ∧ names s = names (List.intercalate ['/'] ks) ++ named ms := by
  constructor
  · have hp := intercalate_isPrefix ['/'] ks ms
    rwa [← h, segments_eq_splitOn, List.intercalate_splitOn] at hp
  · have hk : ∀ k ∈ ks, '/' ∉ k := fun k hk =>
      slash_not_mem_of_mem_segments (h ▸ List.mem_append_left ms hk)
    rw [names_intercalate hk, names, h, named_append]

/-- A stem and the text behind it. A dot at the start is a segment of its own. -/
theorem stem_spec (s : List Char) :
    (stem s).1 ++ (stem s).2 = s ∧
      ∀ t, t <+: (stem s).2 → names ((stem s).1 ++ t) = names (stem s).1 ++ names t := by
  unfold stem
  split
  next s => exact ⟨rfl, fun t _ => names_append_slash [] t⟩
  next s =>
    refine ⟨rfl, fun t ht => ?_⟩
    -- what stands behind the dot starts with a slash
    cases t with
    | nil => rfl
    | cons c t =>
      obtain ⟨rfl, -⟩ := List.cons_prefix_cons.mp ht
      rw [show names ('/' :: t) = names t from names_append_slash [] t]
      exact names_append_slash ['.'] t
  next =>
    refine ⟨rfl, fun t ht => ?_⟩
    rw [List.prefix_nil.mp ht]
    rfl
  next => exact ⟨rfl, fun t _ => rfl⟩

section DirectoriesFrom

variable {stem segment : List Char} {segments rest : List (List Char)} {d : Path}

theorem mem_directoriesFrom_cons (h : d ∈ directoriesFrom stem (segment :: rest)) :
    (segment ≠ [] ∧
      d = String.ofList (stem ++ List.intercalate ['/'] (rest.dropWhile idle).reverse)) ∨
    d ∈ directoriesFrom stem rest := by
  rw [directoriesFrom] at h
  split at h
  · exact Or.inr h
  next hi =>
    rcases List.mem_cons.mp h with rfl | h
    · refine Or.inl ⟨?_, rfl⟩
      rintro rfl
      exact hi rfl
    · exact Or.inr h

/-- A directory comes from a segment that is not empty: it is made of the segments before it. -/
theorem exists_of_mem_directoriesFrom (h : d ∈ directoriesFrom stem segments) :
    (stem = ['.'] ∧ d = "") ∨
      ∃ segment rest, segment :: rest <:+ segments ∧ segment ≠ [] ∧
        d = String.ofList (stem ++ List.intercalate ['/'] (rest.dropWhile idle).reverse) := by
  induction segments with
  | nil =>
    rw [directoriesFrom] at h
    split at h
    next hs => exact Or.inl ⟨hs, List.mem_singleton.mp h⟩
    · cases h
  | cons segment rest ih =>
    rcases mem_directoriesFrom_cons h with ⟨hs, hd⟩ | h
    · exact Or.inr ⟨segment, rest, List.suffix_rfl, hs, hd⟩
    rcases ih h with ih | ⟨s, r, hr, hs⟩
    · exact Or.inl ih
    · exact Or.inr ⟨s, r, hr.trans (List.suffix_cons segment rest), hs⟩

end DirectoriesFrom

/-- A directory of a path is a start of it, and there are names behind. -/
theorem names_of_mem_directories {d path : Path} (h : d ∈ directories path) :
    d.toList <+: path.toList ∧
      ∃ more, more ≠ [] ∧ names path.toList = names d.toList ++ more := by
  obtain ⟨happ, hnames⟩ := stem_spec path.toList
  unfold directories at h
  generalize stem path.toList = parts at h happ hnames
  obtain ⟨lead, body⟩ := parts
  simp only at happ hnames
  have hpath : names path.toList = names lead ++ names body := by
    rw [← happ]
    exact hnames body List.prefix_rfl
  rw [hpath, ← happ]
  rcases exists_of_mem_directoriesFrom h with ⟨rfl, rfl⟩ | ⟨segment, rest, ⟨inner, hi⟩, hs, rfl⟩
  · refine ⟨List.nil_prefix, names ['.'] ++ names body, ?_, rfl⟩
    exact List.append_ne_nil_of_left_ne_nil (by decide) _
  · have hseg : segments body =
        (rest.dropWhile idle).reverse ++
          ((rest.takeWhile idle).reverse ++ segment :: inner.reverse) := by
      rw [← List.append_assoc, ← List.reverse_append, List.takeWhile_append_dropWhile,
        ← List.reverse_reverse (segments body), ← hi]
      simp
    obtain ⟨hpre, hbody⟩ := names_of_segments_eq_append hseg
    rw [String.toList_ofList, hnames _ hpre, hbody, ← List.append_assoc]
    exact ⟨(List.prefix_append_right_inj lead).mpr hpre, _, named_ne_nil (by simp) hs, rfl⟩

end Path

namespace FileSystem

variable {fs : FileSystem} {path d : Path}

theorem walk_append (fs : FileSystem) (here : Location) (names more : List String) :
    fs.walk here (names ++ more) = (fs.walk here names).bind (fs.walk · more) := by
  induction names generalizing here with
  | nil => rfl
  | cons name names ih =>
    rw [List.cons_append, walk, walk]
    split
    · rfl
    · split
      · exact ih _
      · rfl
      · rfl

/-- What a route tells about its path. -/
theorem route_eq_ok {route : Route} (h : fs.route path = .ok route) :
    path.toList.contains '\x00' = false ∧ path.utf8ByteSize ≤ maxPathSize ∧
      route.start = (if path.toList.head? = some '/' then [] else fs.workingDirectory) ∧
      route.names = Path.names path.toList := by
  unfold FileSystem.route at h
  split at h
  · cases h
  next hz =>
    split at h
    · cases h
    split at h
    · cases h
    next hn =>
      cases h
      exact ⟨Bool.eq_false_iff.mpr hz, Nat.le_of_not_lt hn, rfl, rfl⟩

/-- A start of a path begins at the same place. -/
theorem route_of_isPrefix {route : Route} (h : fs.route path = .ok route)
    (hp : d.toList <+: path.toList) (hd : d ≠ "") :
    ∃ route', fs.route d = .ok route' ∧ route'.start = route.start ∧
      route'.names = Path.names d.toList := by
  obtain ⟨hz, hn, hs, -⟩ := route_eq_ok h
  obtain ⟨rest, hrest⟩ := hp
  have hz' : d.toList.contains '\x00' = false := by
    rw [← hrest] at hz
    simp at hz ⊢
    exact hz.1
  have hn' : ¬ maxPathSize < d.utf8ByteSize := by
    have happ : path = d ++ String.ofList rest := by
      rw [← String.toList_inj, String.toList_append, String.toList_ofList, hrest]
    rw [happ, String.utf8ByteSize_append] at hn
    omega
  have hh : path.toList.head? = d.toList.head? := by
    rw [← hrest, List.head?_append, Option.or_of_isSome]
    simpa using hd
  refine ⟨⟨route.start, Path.names d.toList, d.toList.getLast? = some '/'⟩, ?_, rfl, rfl⟩
  rw [hs, hh, FileSystem.route, if_neg (by rw [hz']; exact Bool.false_ne_true), if_neg hd,
    if_neg hn']
  rfl

/-- Where all the names of a path can be taken, there is a directory. -/
theorem isDirectory_of_walk {route : Route} {there : Location} (hr : fs.route path = .ok route)
    (hw : fs.walk route.start route.names = .ok there) : fs.isDirectory path = true := by
  rw [isDirectory_iff, resolve, approach, hr]
  rcases List.eq_nil_or_concat route.names with hn | ⟨init, last, hn⟩
  · simp [hn, walk]
  · rw [List.concat_eq_append] at hn
    rw [hn, walk_append] at hw
    cases hi : fs.walk route.start init with
    | error => rw [hi] at hw; cases hw
    | ok here =>
      simp only [hi, Except.bind, walk] at hw
      simp only [hn, List.dropLast_concat, hi, List.getLast?_concat, Option.map_some]
      split at hw
      · cases hw
      next l hl =>
        split at hw
        next hd => simp only [hd]
        · cases hw
        · cases hw

/-- Wherever a path can be approached, its directories are there. -/
theorem isDirectory_of_mem_directories {place : Location × Option (String × Bool)}
    (h : fs.approach path = .ok place) (hd : d ∈ Path.directories path) :
    d = "" ∨ fs.isDirectory d = true := by
  by_cases hne : d = ""
  · exact Or.inl hne
  right
  obtain ⟨hp, more, hm, hnames⟩ := Path.names_of_mem_directories hd
  unfold approach at h
  split at h
  · cases h
  next route hr =>
    obtain ⟨route', hr', hs, hn⟩ := route_of_isPrefix hr hp hne
    split at h
    · cases h
    next here hw =>
      rw [(route_eq_ok hr).2.2.2, hnames, List.dropLast_append_of_ne_nil hm, walk_append, ← hn,
        ← hs] at hw
      cases hi : fs.walk route'.start route'.names with
      | error => rw [hi] at hw; cases hw
      | ok there => exact isDirectory_of_walk hr' hi

end FileSystem

end StageMonitor

import StageMonitor.Json.StringToken

/-! # Lists and objects

A list is read item by item. An object is read key by key, and each key says how the value under it
changes what is known so far.
-/

namespace StageMonitor.Json

namespace Reader

variable {α β σ : Type}

def map (f : α → β) (reader : Reader α) : Reader β where
  run s :=
    match reader.run s with
    | .error fault => .error fault
    | .ok (a, r) => .ok (f a, r)
  shorter {s b r} h := by
    split at h
    · cases h
    next a t ha => cases h; exact reader.shorter ha

/-- Reads the colon after a key, and then the value. -/
def afterColon (reader : Reader α) : Reader α where
  run s :=
    match colon s with
    | .error fault => .error fault
    | .ok r => reader.run r
  shorter {s a r} h := by
    split at h
    · cases h
    next t ht =>
      have := length_lt_of_colon ht
      have := reader.shorter h
      omega

/-- Refuses every text. -/
def refuse (fault : List Char → Fault) : Reader α where
  run s := .error (fault s)
  shorter h := by cases h

/-- The rest of a list whose items so far are `read`, the last one first. -/
def items (item : Reader α) (read : List α) (s : List Char) : Outcome (List α) :=
  match _h : nextItem read.isEmpty s with
  | .error fault => .error fault
  | .ok none =>
    match closeList s with
    | .error fault => .error fault
    | .ok r => .ok (read.reverse, r)
  | .ok (some t) =>
    match _ht : item.run t with
    | .error fault => .error fault
    | .ok (a, r) => item.items (a :: read) r
termination_by s.length
decreasing_by
  have := length_le_of_nextItem _h
  have := item.shorter _ht
  omega

theorem length_lt_of_items {item : Reader α} {read as : List α} {s r : List Char}
    (h : item.items read s = .ok (as, r)) : r.length < s.length := by
  fun_induction items item read s with
  | case1 => cases h
  | case2 => cases h
  | case3 read s _ t ht => cases h; exact length_lt_of_closeList ht
  | case4 => cases h
  | case5 read s t hs a u ha ih =>
    have := length_le_of_nextItem hs
    have := item.shorter ha
    have := ih h
    omega

/-- The rest of an object; `known` is what the members so far have told. -/
def members (member : σ → String → Reader σ) (first : Bool) (known : σ) (s : List Char) :
    Outcome σ :=
  match _h : nextKey first s with
  | .error fault => .error fault
  | .ok none =>
    match closeObject s with
    | .error fault => .error fault
    | .ok r => .ok (known, r)
  | .ok (some t) =>
    match _ht : readString t with
    | .error fault => .error fault
    | .ok (key, u) =>
      match _hu : (member known key).run u with
      | .error fault => .error fault
      | .ok (known, r) => members member false known r
termination_by s.length
decreasing_by
  have := length_lt_of_nextKey _h
  have := length_lt_of_readString _ht
  have := (member _ key).shorter _hu
  omega

theorem length_lt_of_members {member : σ → String → Reader σ} {first : Bool} {known told : σ}
    {s r : List Char} (h : members member first known s = .ok (told, r)) :
    r.length < s.length := by
  fun_induction members member first known s with
  | case1 => cases h
  | case2 => cases h
  | case3 first known s _ t ht => cases h; exact length_lt_of_closeObject ht
  | case4 => cases h
  | case5 => cases h
  | case6 first known s t hs key u ht known' v hu ih =>
    have := length_lt_of_nextKey hs
    have := length_lt_of_readString ht
    have := (member known key).shorter hu
    have := ih h
    omega

end Reader

end StageMonitor.Json

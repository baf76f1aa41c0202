import StageMonitor.Catalog.Basic
import StageMonitor.Json.Skipped

/-! # Reading a catalog

A catalog and each of its stages are written either as an object or as the list of its fields. In an
object the fields come in any order, each once, and other keys are skipped.
-/

namespace StageMonitor

open Json

/-- Another kind of value stands where `expected` is wanted. A scalar counts as read. -/
def wrongType (expected : String) (s : List Char) : Fault :=
  match s with
  | '[' :: _ => (Cause.wrongType .list expected).before s
  | '\x7b' :: _ => (Cause.wrongType .object expected).before s
  | _ =>
    match readScalar s with
    | .error fault => fault
    | .ok (a, r) => (Cause.wrongType (.scalar a) expected).before r

def textReader : Reader String where
  run s :=
    match skipBlanks s with
    | '"' :: r => readString r
    | t => .error (wrongType "a string" t)
  shorter {s t r} h := by
    split at h
    next u hu =>
      have := length_lt_of_skipBlanks hu
      have := length_lt_of_readString h
      omega
    · cases h

def listReader {α : Type} (item : Reader α) : Reader (List α) where
  run s :=
    match skipBlanks s with
    | '[' :: r => item.items [] r
    | t => .error (wrongType "a sequence" t)
  shorter {s as r} h := by
    split at h
    next u hu =>
      have := length_lt_of_skipBlanks hu
      have := Reader.length_lt_of_items h
      omega
    · cases h

/-- A key that was there before. A closing brace right after it counts as read. -/
def repeatedField (name : String) (s : List Char) : Fault :=
  match skipBlanks s with
  | '\x7d' :: r => (Cause.repeatedField name).before r
  | t => (Cause.repeatedField name).before t

/-- The item at `index` of a list that holds the fields of `expected`. -/
def readField {α : Type} (reader : Reader α) (index : Nat) (expected : String) (s : List Char) :
    Outcome α :=
  match nextItem (index = 0) s with
  | .error fault => .error fault
  | .ok none =>
    match closeList s with
    | .error fault => .error fault
    | .ok r => .error ((Cause.wrongLength index expected).before r)
  | .ok (some t) => reader.run t

theorem length_lt_of_readField {α : Type} {reader : Reader α} {index : Nat} {expected : String}
    {s r : List Char} {a : α} (h : readField reader index expected s = .ok (a, r)) :
    r.length < s.length := by
  unfold readField at h
  split at h
  · cases h
  · split at h <;> cases h
  next t ht =>
    have := length_le_of_nextItem ht
    have := reader.shorter h
    omega

namespace Stage

structure Fields where
  id : Option String
  label : Option String

def member (known : Fields) (key : String) : Reader Fields :=
  if key = "id" then
    if known.id.isSome then .refuse (repeatedField key)
    else textReader.afterColon.map fun t => ⟨some t, known.label⟩
  else if key = "label" then
    if known.label.isSome then .refuse (repeatedField key)
    else textReader.afterColon.map fun t => ⟨known.id, some t⟩
  else skipper.afterColon.map fun _ => known

def ofFields (fields : Fields) : Except Cause Stage :=
  match fields with
  | ⟨some id, some label⟩ => .ok ⟨id, label⟩
  | ⟨none, _⟩ => .error (.missingField "id")
  | ⟨some _, none⟩ => .error (.missingField "label")

def readObject (s : List Char) : Outcome Stage :=
  match Reader.members member true ⟨none, none⟩ s with
  | .error fault => .error fault
  | .ok (fields, r) =>
    match ofFields fields with
    | .error cause => .error (cause.before r)
    | .ok stage => .ok (stage, r)

def listForm : String := "struct Stage with 2 elements"

def readList (s : List Char) : Outcome Stage :=
  match readField textReader 0 listForm s with
  | .error fault => .error fault
  | .ok (id, t) =>
    match readField textReader 1 listForm t with
    | .error fault => .error fault
    | .ok (label, u) =>
      match closeList u with
      | .error fault => .error fault
      | .ok r => .ok (⟨id, label⟩, r)

def reader : Reader Stage where
  run s :=
    match skipBlanks s with
    | '\x7b' :: r => readObject r
    | '[' :: r => readList r
    | t => .error (wrongType "struct Stage" t)
  shorter {s stage r} h := by
    split at h
    next t ht =>
      have := length_lt_of_skipBlanks ht
      unfold readObject at h
      split at h
      · cases h
      next fields u hu =>
        have := Reader.length_lt_of_members hu
        split at h
        · cases h
        · cases h; omega
    next t ht =>
      have := length_lt_of_skipBlanks ht
      unfold readList at h
      split at h
      · cases h
      next id u hu =>
        have := length_lt_of_readField hu
        split at h
        · cases h
        next label v hv =>
          have := length_lt_of_readField hv
          split at h
          · cases h
          next w hw =>
            have := length_lt_of_closeList hw
            cases h; omega
    · cases h

end Stage

namespace Catalog

def member (known : Option (List Stage)) (key : String) : Reader (Option (List Stage)) :=
  if key = "stages" then
    if known.isSome then .refuse (repeatedField key)
    else (listReader Stage.reader).afterColon.map some
  else skipper.afterColon.map fun _ => known

def readObject (s : List Char) : Outcome Catalog :=
  match Reader.members member true none s with
  | .error fault => .error fault
  | .ok (none, r) => .error ((Cause.missingField "stages").before r)
  | .ok (some stages, r) => .ok (⟨stages⟩, r)

def readList (s : List Char) : Outcome Catalog :=
  match readField (listReader Stage.reader) 0 "struct DashboardConfig with 1 element" s with
  | .error fault => .error fault
  | .ok (stages, t) =>
    match closeList t with
    | .error fault => .error fault
    | .ok r => .ok (⟨stages⟩, r)

def reader : Reader Catalog where
  run s :=
    match skipBlanks s with
    | '\x7b' :: r => readObject r
    | '[' :: r => readList r
    | t => .error (wrongType "struct DashboardConfig" t)
  shorter {s catalog r} h := by
    split at h
    next t ht =>
      have := length_lt_of_skipBlanks ht
      unfold readObject at h
      split at h
      · cases h
      · cases h
      next stages u hu =>
        have := Reader.length_lt_of_members hu
        cases h; omega
    next t ht =>
      have := length_lt_of_skipBlanks ht
      unfold readList at h
      split at h
      · cases h
      next stages u hu =>
        have := length_lt_of_readField hu
        split at h
        · cases h
        next v hv =>
          have := length_lt_of_closeList hv
          cases h; omega
    · cases h

def ofDocument (document : String) : Except Rejection Catalog :=
  reader.readDocument document

end Catalog

end StageMonitor

import StageMonitor.Json.Scalar

/-! # Values

The members of an object stay in the order in which they are given. In canonical form every object
has its keys in increasing order and each key once.
-/

namespace StageMonitor.Json

inductive Value
  | scalar (a : Scalar)
  | array (items : List Value)
  | object (members : List (String × Value))

abbrev Member := String × Value

/-- Puts a value under a key of an ordered list of members; a value already there gives way. -/
def insertMember (key : String) (v : Value) : List Member → List Member
  | [] => [(key, v)]
  | (k, w) :: ms =>
    if key = k then (key, v) :: ms
    else if key < k then (key, v) :: (k, w) :: ms
    else (k, w) :: insertMember key v ms

/-- The ordered members that a list of members stands for: the last of equal keys wins. -/
def orderMembers (ms : List Member) : List Member :=
  ms.foldl (fun ordered (key, v) => insertMember key v ordered) []

namespace Value

def null : Value := scalar .null

def bool (b : Bool) : Value := scalar (.bool b)

def nat (n : Nat) : Value := scalar (.number (.int n))

def string (s : String) : Value := scalar (.string s)

mutual

def canonical : Value → Value
  | scalar a => scalar a
  | array vs => array (canonicalItems vs)
  | object ms => object (orderMembers (canonicalMembers ms))

def canonicalItems : List Value → List Value
  | [] => []
  | v :: vs => v.canonical :: canonicalItems vs

def canonicalMembers : List Member → List Member
  | [] => []
  | (key, v) :: ms => (key, v.canonical) :: canonicalMembers ms

end

mutual

/-- Agreement of two values in canonical form. -/
def same : Value → Value → Bool
  | scalar a, scalar b => a.same b
  | array vs, array ws => sameItems vs ws
  | object ms, object ns => sameMembers ms ns
  | _, _ => false

def sameItems : List Value → List Value → Bool
  | [], [] => true
  | v :: vs, w :: ws => v.same w && sameItems vs ws
  | _, _ => false

def sameMembers : List Member → List Member → Bool
  | [], [] => true
  | (k, v) :: ms, (l, w) :: ns => k == l && v.same w && sameMembers ms ns
  | _, _ => false

end

end Value

end StageMonitor.Json

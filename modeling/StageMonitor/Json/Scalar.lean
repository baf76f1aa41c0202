import StageMonitor.Json.Number

/-! # Scalars

The values that hold no other value, and their one spelling in a written document.
-/

namespace StageMonitor.Json

inductive Scalar
  | null
  | bool (b : Bool)
  | number (n : Number)
  | string (s : String)

def escapedChar (c : Char) : List Char :=
  match c with
  | '"' => ['\\', '"']
  | '\\' => ['\\', '\\']
  | '\x08' => ['\\', 'b']
  | '\t' => ['\\', 't']
  | '\n' => ['\\', 'n']
  | '\x0c' => ['\\', 'f']
  | '\r' => ['\\', 'r']
  | c =>
    if c.toNat < 16 then ['\\', 'u', '0', '0', '0'] ++ Nat.toDigits 16 c.toNat
    else if c.toNat < 32 then ['\\', 'u', '0', '0'] ++ Nat.toDigits 16 c.toNat
    else [c]

def stringText (s : String) : List Char :=
  '"' :: s.toList.flatMap escapedChar ++ ['"']

namespace Scalar

def text : Scalar → List Char
  | null => ['n', 'u', 'l', 'l']
  | bool true => ['t', 'r', 'u', 'e']
  | bool false => ['f', 'a', 'l', 's', 'e']
  | number n => n.text
  | string s => stringText s

def same : Scalar → Scalar → Bool
  | null, null => true
  | bool b, bool c => b == c
  | number n, number m => n.same m
  | string s, string t => s == t
  | _, _ => false

end Scalar

end StageMonitor.Json

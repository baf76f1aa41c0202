import StageMonitor.Decimal.Shortest

/-! # Numbers

A number is an integer or a floating one, and the two kinds never agree. A floating number is
written with a point or an exponent, so that its kind can be read off its text.
-/

namespace StageMonitor

namespace Decimal

/-- Positional from `0.00001` up to sixteen places before the point, and with an exponent beyond. -/
def text (d : Decimal) : List Char :=
  if -5 < d.point ∧ d.point ≤ 0 then
    ['0', '.'] ++ List.replicate (-d.point).toNat '0' ++ d.digits
  else if 0 < d.point ∧ d.point ≤ 16 then
    if d.digits.length ≤ d.point.toNat then
      d.digits ++ List.replicate (d.point.toNat - d.digits.length) '0' ++ ['.', '0']
    else d.digits.take d.point.toNat ++ '.' :: d.digits.drop d.point.toNat
  else
    let fraction := d.digits.drop 1
    let exponent := d.point - 1
    d.digits.take 1 ++ (if fraction = [] then [] else '.' :: fraction) ++
      ['e', if exponent < 0 then '-' else '+'] ++ Nat.toDigits 10 exponent.natAbs

end Decimal

def floatText (x : Float) : List Char :=
  let sign := if x.toBits.toNat < 0x8000000000000000 then [] else ['-']
  let magnitude := Binary.ofFloat x
  sign ++ if magnitude.significand = 0 then ['0', '.', '0'] else magnitude.shortest.text

def intText (i : Int) : List Char :=
  if i < 0 then '-' :: Nat.toDigits 10 i.natAbs else Nat.toDigits 10 i.natAbs

namespace Json

inductive Number
  | int (i : Int)
  | float (x : Float)

namespace Number

def text : Number → List Char
  | int i => intText i
  | float x => floatText x

def same : Number → Number → Bool
  | int i, int j => i == j
  | float x, float y => x == y
  | _, _ => false

end Number

end Json

end StageMonitor

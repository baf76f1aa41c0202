/-! # Shortest decimals

A positive binary value is written with the fewest digits that still round to it, and among those
with the nearest ones; an exact tie goes to the even neighbour. All tests are made on natural
numbers, on grids of powers of ten.
-/

namespace StageMonitor

/-- The value `significand * 2 ^ exponent`; `halved` says that the gap below it is half the gap
above it. -/
structure Binary where
  significand : Nat
  exponent : Int
  halved : Bool
  deriving DecidableEq, Repr

/-- The value `0.d₁d₂… * 10 ^ point`. -/
structure Decimal where
  digits : List Char
  point : Int
  deriving DecidableEq, Repr

namespace Binary

/-- The significand of the least normal value, `2 ^ 52`. -/
def unit : Nat := 0x10000000000000

def ofFloat (x : Float) : Binary :=
  let bits := x.toBits.toNat
  let scale : Nat := bits / unit % 2048
  let fraction := bits % unit
  if scale = 0 then ⟨fraction, -1074, false⟩
  else ⟨unit + fraction, Int.ofNat scale - 1075, fraction = 0 && scale ≠ 1⟩

/-- A quarter of the last place of `x`, in steps of `10 ^ grid`, as a fraction. -/
def quarter (x : Binary) (grid : Int) : Nat × Nat :=
  (Nat.pow 2 (x.exponent - 2).toNat * Nat.pow 10 (-grid).toNat,
    Nat.pow 2 (2 - x.exponent).toNat * Nat.pow 10 grid.toNat)

/-- The number of steps of `10 ^ grid` that rounds to `x`, the nearest if there are several. -/
def onGrid? (x : Binary) (grid : Int) : Option Nat :=
  let (num, den) := x.quarter grid
  let low := (4 * x.significand - if x.halved then 1 else 2) * num
  let value := 4 * x.significand * num
  let high := (4 * x.significand + 2) * num
  let rounds (n : Nat) : Bool :=
    if x.significand % 2 = 0 then low ≤ n * den && n * den ≤ high
    else low < n * den && n * den < high
  let below := value / den
  let nearest :=
    if 2 * value < (2 * below + 1) * den then below
    else if (2 * below + 1) * den < 2 * value then below + 1
    else if below % 2 = 0 then below else below + 1
  if rounds nearest then some nearest
  else [below, below + 1].find? rounds

/-- The place of the point when `x` is written as `0.d₁d₂…` with `d₁` not zero. -/
def magnitude (x : Binary) : Int :=
  let num := x.significand * Nat.pow 2 x.exponent.toNat
  let den := Nat.pow 2 (-x.exponent).toNat
  let gap : Int := (Nat.toDigits 10 den).length - (Nat.toDigits 10 num).length
  if den * Nat.pow 10 (-gap).toNat ≤ num * Nat.pow 10 gap.toNat then 1 - gap else -gap

def shortest (x : Binary) : Decimal :=
  let grids := (List.range 17).map fun n : Nat => x.magnitude - Int.ofNat (n + 1)
  match grids.findSome? fun grid => (x.onGrid? grid).map (·, grid) with
  | some (n, grid) =>
    let digits := Nat.toDigits 10 n
    ⟨(digits.reverse.dropWhile (· = '0')).reverse, grid + digits.length⟩
  | none => ⟨[], 0⟩

end Binary

end StageMonitor

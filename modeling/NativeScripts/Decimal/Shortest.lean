import NativeScripts.Decimal.Binary64

/-! The fewest decimal digits that read back as a given binary value. For one
digit, two and so on the two neighbours of the value on the decimal grid are
tried, and the first grid with a neighbour that reads back decides. -/

namespace NativeScripts

/-- The number `digits * 10 ^ exponent`. -/
structure Decimal where
  digits : Nat
  exponent : Int
  deriving DecidableEq

/-- What becomes of a value halfway between two candidates. -/
inductive Tie where
  | toEven
  | upward
  deriving DecidableEq

namespace Decimal

/-- Compares `d` with `quarters` quarters of a unit. -/
def compareQuarters (d : Decimal) (quarters : Nat) : Ordering :=
  compare (d.digits * Nat.pow 10 d.exponent.toNat * (4 * Binary64.unitsInOne))
    (quarters * Nat.pow 10 (-d.exponent).toNat)

/-- Whether `d` lies among the reals that are rounded to the magnitude of `x`.
The gap below a power of two is half as wide as the one above, and the ends of
the interval belong to it if the significand is even. -/
def readsBack (x : Binary64) (d : Decimal) : Bool :=
  let narrow := x.fractionField = 0 ∧ 1 < x.exponentField
  let low := 4 * x.units - if narrow then x.gap else 2 * x.gap
  let high := 4 * x.units + 2 * x.gap
  let even := x.significand % 2 = 0
  let fromLow := d.compareQuarters low
  let fromHigh := d.compareQuarters high
  (fromLow = .gt || (even && fromLow = .eq)) && (fromHigh = .lt || (even && fromHigh = .eq))

/-- The least `k` such that the magnitude of `x` is below `10 ^ k`. The guess
by the binary logarithm is at most three short of it. -/
def magnitude (x : Binary64) : Int :=
  let guess := Int.fdiv (((x.units.log2 : Int) - 1074) * 1233) 4096
  let candidates := [guess, guess + 1, guess + 2]
  (candidates.find? fun k => (Decimal.mk 1 k).compareQuarters (4 * x.units) = .gt).getD (guess + 3)

/-- The neighbour that reads back on the grid of `10 ^ exponent`, the nearer
one if both do. -/
def onGrid? (tie : Tie) (x : Binary64) (exponent : Int) : Option Decimal :=
  let low := x.units * Nat.pow 10 (-exponent).toNat /
    (Binary64.unitsInOne * Nat.pow 10 exponent.toNat)
  let below : Decimal := ⟨low, exponent⟩
  let above : Decimal := ⟨low + 1, exponent⟩
  match readsBack x below, readsBack x above with
  | false, false => none
  | true, false => some below
  | false, true => some above
  | true, true =>
    match (Decimal.mk (2 * low + 1) exponent).compareQuarters (8 * x.units) with
    | .gt => some below
    | .lt => some above
    | .eq => if tie = .toEven ∧ low % 2 = 0 then some below else some above

/-- The value itself, with as many digits as it takes. -/
def exact (x : Binary64) : Decimal :=
  ⟨x.units * Nat.pow 5 1074, -1074⟩

/-- Moves trailing zeros from the digits into the exponent. -/
def strip : Nat → Decimal → Decimal
  | 0, d => d
  | fuel + 1, d =>
    if d.digits % 10 = 0 ∧ d.digits ≠ 0 then strip fuel ⟨d.digits / 10, d.exponent + 1⟩ else d

/-- Of a positive magnitude. -/
def shortest (tie : Tie) (x : Binary64) : Decimal :=
  let k := magnitude x
  let grids := (List.range 17).map fun n => k - 1 - Int.ofNat n
  let found := (grids.findSome? (onGrid? tie x)).getD (exact x)
  strip 1100 found

end Decimal

end NativeScripts

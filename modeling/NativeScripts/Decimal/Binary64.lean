/-! Floating-point numbers of sixty-four bits, by exact arithmetic. A finite
value is a whole number of units, the unit being the least positive value. -/

namespace NativeScripts

structure Binary64 where
  word : UInt64
  deriving DecidableEq

namespace Binary64

/-- The place of the sign. -/
def signBit : Nat := 0x8000000000000000

/-- How many fractions go with each exponent. -/
def fractionCount : Nat := 0x10000000000000

/-- The exponent of what is not finite. -/
def greatestExponent : Nat := 2047

def isNegative (x : Binary64) : Bool :=
  signBit ≤ x.word.toNat

def exponentField (x : Binary64) : Nat :=
  x.word.toNat / fractionCount % (greatestExponent + 1)

def fractionField (x : Binary64) : Nat :=
  x.word.toNat % fractionCount

def isFinite (x : Binary64) : Bool :=
  x.exponentField < greatestExponent

def isNaN (x : Binary64) : Bool :=
  !x.isFinite && x.fractionField ≠ 0

/-- How many units make the value one. -/
def unitsInOne : Nat := Nat.pow 2 1074

/-- The distance in units to the next value away from zero. -/
def gap (x : Binary64) : Nat :=
  Nat.pow 2 (x.exponentField - 1)

def significand (x : Binary64) : Nat :=
  if x.exponentField = 0 then x.fractionField else fractionCount + x.fractionField

/-- The magnitude of a finite value. -/
def units (x : Binary64) : Nat :=
  x.significand * x.gap

/-- Exponent and fraction together count the values from zero upwards, so
`place` is also the position of the magnitude in that order. -/
def ofPlace (negative : Bool) (place : Nat) : Binary64 :=
  ⟨UInt64.ofNat ((if negative then signBit else 0) + place)⟩

def infinity (negative : Bool) : Binary64 :=
  ofPlace negative (greatestExponent * fractionCount)

/-- The quotient rounded to the nearest whole number, a half going to the
even neighbour. -/
def roundHalfEven (num den : Nat) : Nat :=
  let q := num / den
  let twice := 2 * (num % den)
  if twice < den then q
  else if den < twice then q + 1
  else q + q % 2

/-- The value nearest to `num / den`, or the infinity if that is too large. -/
def nearest (negative : Bool) (num den : Nat) : Binary64 :=
  let scaled := num * unitsInOne
  let whole := scaled / den
  let shift := whole.log2 - 52
  let place := shift * fractionCount + roundHalfEven scaled (den * Nat.pow 2 shift)
  ofPlace negative (min place (greatestExponent * fractionCount))

/-- A word of a narrower format with the given field widths, whose values are
all values of this format too. -/
def ofNarrow (exponentBits fractionBits : Nat) (word : Nat) : Binary64 :=
  let fractions := Nat.pow 2 fractionBits
  let exponents := Nat.pow 2 exponentBits
  let negative := word / (exponents * fractions) % 2 = 1
  let exponent := word / fractions % exponents
  let fraction := word % fractions
  if exponent = exponents - 1 then
    ofPlace negative (greatestExponent * fractionCount + fraction * (fractionCount / fractions))
  else
    let significand := if exponent = 0 then fraction else fractions + fraction
    nearest negative (significand * Nat.pow 2 (exponent - 1))
      (Nat.pow 2 (exponents / 2 - 2 + fractionBits))

end Binary64

end NativeScripts

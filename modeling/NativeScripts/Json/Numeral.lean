import NativeScripts.Json.Value

/-! Number literals of JSON. A literal without a fraction and an exponent that
fits sixty-four bits is an integer; any other is a floating-point number, made
from the leading digits that fit by one scaling with a power of ten. -/

namespace NativeScripts.Json

structure Numeral where
  negative : Bool
  whole : List Nat
  fraction : Option (List Nat)
  exponent : Option Int
  deriving DecidableEq

namespace Numeral

def valueOf (digits : List Nat) : Nat :=
  digits.foldl (fun n d => n * 10 + d) 0

/-- Appends digits to `n` for as long as the result fits, and leaves the
others. -/
def absorb (n : Nat) : List Nat → Nat × List Nat
  | [] => (n, [])
  | d :: ds => if n * 10 + d < UInt64.size then absorb (n * 10 + d) ds else (n, d :: ds)

def powerOfTen (k : Nat) : Binary64 :=
  Binary64.nearest false (Nat.pow 10 k) 1

def times (x y : Binary64) : Binary64 :=
  Binary64.nearest false (x.units * y.units) (Binary64.unitsInOne * Binary64.unitsInOne)

def dividedBy (x y : Binary64) : Binary64 :=
  Binary64.nearest false x.units y.units

/-- The greatest power of ten that is a finite value. -/
def greatestPower : Nat := 308

/-- Divides by `10 ^ k`, in steps that are powers of ten themselves. -/
def shrink (x : Binary64) (k : Nat) : Binary64 :=
  if k ≤ greatestPower then dividedBy x (powerOfTen k)
  else if x.units = 0 then x
  else shrink (dividedBy x (powerOfTen greatestPower)) (k - greatestPower)
termination_by k
decreasing_by simp [greatestPower] at *; omega

/-- Multiplies by `10 ^ exponent`, if the result is finite. -/
def scale? (x : Binary64) (exponent : Int) : Option Binary64 :=
  if exponent < 0 then some (shrink x exponent.natAbs)
  else if exponent ≤ greatestPower then
    let product := times x (powerOfTen exponent.natAbs)
    if product.isFinite then some product else none
  else if x.units = 0 then some x
  else none

def magnitude? (n : Numeral) : Option Binary64 :=
  let fraction := n.fraction.getD []
  let (leading, dropped) := absorb 0 n.whole
  let (leading, droppedAfter) := absorb leading fraction
  let exponent := (dropped.length : Int) - (fraction.length - droppedAfter.length : Nat) +
    n.exponent.getD 0
  scale? (Binary64.nearest false leading 1) exponent

def real? (n : Numeral) : Option Json :=
  n.magnitude?.map fun x =>
    .real (if n.negative then ⟨UInt64.ofNat Binary64.signBit + x.word⟩ else x)

def toJson? (n : Numeral) : Option Json :=
  let value := valueOf n.whole
  match n.fraction, n.exponent with
  | none, none =>
    if n.negative then
      if 0 < value ∧ value ≤ 0x8000000000000000 then some (.integer (-value)) else n.real?
    else if value < UInt64.size then some (.integer value)
    else n.real?
  | _, _ => n.real?

end Numeral

/-- The digits at the front of a text. -/
def takeDigits : List Char → List Nat × List Char
  | [] => ([], [])
  | c :: cs =>
    if c.isDigit then
      let (digits, rest) := takeDigits cs
      ((c.toNat - 48) :: digits, rest)
    else ([], c :: cs)

/-- A number has one leading zero at most, and only if no digit follows. -/
def readWhole? : List Char → Option (List Nat × List Char)
  | '0' :: rest => some ([0], rest)
  | cs =>
    match takeDigits cs with
    | ([], _) => none
    | taken => some taken

def readFraction? : List Char → Option (Option (List Nat) × List Char)
  | '.' :: rest =>
    match takeDigits rest with
    | ([], _) => none
    | (digits, rest) => some (some digits, rest)
  | cs => some (none, cs)

def readExponentDigits? (negative : Bool) (cs : List Char) : Option (Option Int × List Char) :=
  match takeDigits cs with
  | ([], _) => none
  | (digits, rest) =>
    let value : Int := Numeral.valueOf digits
    some (some (if negative then -value else value), rest)

def readExponent? : List Char → Option (Option Int × List Char)
  | c :: rest =>
    if c = 'e' ∨ c = 'E' then
      match rest with
      | '+' :: rest => readExponentDigits? false rest
      | '-' :: rest => readExponentDigits? true rest
      | rest => readExponentDigits? false rest
    else some (none, c :: rest)
  | [] => some (none, [])

def readUnsigned? (negative : Bool) (cs : List Char) : Option (Numeral × List Char) :=
  match readWhole? cs with
  | none => none
  | some (whole, cs) =>
    match readFraction? cs with
    | none => none
    | some (fraction, cs) =>
      match readExponent? cs with
      | none => none
      | some (exponent, cs) => some (⟨negative, whole, fraction, exponent⟩, cs)

def readNumeral? : List Char → Option (Numeral × List Char)
  | '-' :: rest => readUnsigned? true rest
  | cs => readUnsigned? false cs

end NativeScripts.Json

import NativeScripts.Decimal.Shortest

/-! How floating-point numbers are written. A style says where the digits
stand without an exponent and how an exponent begins; a whole number written
without one keeps `.0`. -/

namespace NativeScripts

/-- Numbers whose leading digit has an exponent from `plainFrom` up to, but
not with, `plainBelow` stand without an exponent; without bounds all do. -/
structure NumberStyle where
  plainBounds : Option (Int × Int)
  growingMark : String
  shrinkingMark : String
  tie : Tie

namespace NumberStyle

/-- Numbers in JSON text. -/
def json : NumberStyle where
  plainBounds := some (-5, 16)
  growingMark := "e+"
  shrinkingMark := "e-"
  tie := .toEven

/-- Numbers inside a displayed CBOR item. -/
def item : NumberStyle where
  plainBounds := some (-4, 16)
  growingMark := "e"
  shrinkingMark := "e-"
  tie := .upward

/-- Numbers named in a fault, always written out. -/
def writtenOut : NumberStyle where
  plainBounds := none
  growingMark := "e"
  shrinkingMark := "e-"
  tie := .upward

def isPlain (style : NumberStyle) (leading : Int) : Bool :=
  match style.plainBounds with
  | none => true
  | some (first, below) => first ≤ leading && leading < below

def zeros (n : Nat) : List Char :=
  List.replicate n '0'

/-- Digits with the point after the first `point` of them. -/
def layPlain (digits : List Char) (point : Int) : List Char :=
  if point ≤ 0 then '0' :: '.' :: zeros (-point).toNat ++ digits
  else if digits.length ≤ point.toNat then
    digits ++ zeros (point.toNat - digits.length) ++ ['.', '0']
  else digits.take point.toNat ++ '.' :: digits.drop point.toNat

def layScientific (style : NumberStyle) (digits : List Char) (leading : Int) : List Char :=
  let mark := if leading < 0 then style.shrinkingMark else style.growingMark
  let fraction := if digits.length ≤ 1 then [] else '.' :: digits.drop 1
  digits.take 1 ++ fraction ++ mark.toList ++ Nat.toDigits 10 leading.natAbs

def layDecimal (style : NumberStyle) (d : Decimal) : List Char :=
  let digits := Nat.toDigits 10 d.digits
  let leading := d.exponent + digits.length - 1
  if style.isPlain leading then layPlain digits (leading + 1)
  else style.layScientific digits leading

def magnitudeText (style : NumberStyle) (x : Binary64) : List Char :=
  if !x.isFinite then ['i', 'n', 'f']
  else if x.units = 0 then ['0', '.', '0']
  else style.layDecimal (Decimal.shortest style.tie x)

def text (style : NumberStyle) (x : Binary64) : String :=
  if x.isNaN then "NaN"
  else String.ofList ((if x.isNegative then ['-'] else []) ++ style.magnitudeText x)

end NumberStyle

end NativeScripts

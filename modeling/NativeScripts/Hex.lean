import NativeScripts.Bytes
import NativeScripts.Text

/-! Bytes as pairs of hexadecimal digits. Either case is read and the lower
case is written. Positions and lengths count the bytes of the text. -/

namespace NativeScripts.Hex

inductive Fault where
  | oddLength
  | badDigit (byte : UInt8) (position : Nat)
  deriving DecidableEq

def Fault.message : Fault → String
  | .oddLength => "Odd number of digits"
  | .badDigit byte position =>
    "Invalid character " ++ Text.quoteChar (Char.ofNat byte.toNat) ++ " at position " ++
      toString position

def digit? (byte : UInt8) : Option Nat :=
  let n := byte.toNat
  if 0x30 ≤ n ∧ n ≤ 0x39 then some (n - 0x30)
  else if 0x41 ≤ n ∧ n ≤ 0x46 then some (n - 0x37)
  else if 0x61 ≤ n ∧ n ≤ 0x66 then some (n - 0x57)
  else none

/-- Reads pairs of digits, the first of them at `position`. -/
def decodePairs (position : Nat) : Bytes → Except Fault Bytes
  | [] => .ok []
  | [_] => .error .oddLength
  | a :: b :: rest =>
    match digit? a, digit? b with
    | none, _ => .error (.badDigit a position)
    | some _, none => .error (.badDigit b (position + 1))
    | some x, some y => (decodePairs (position + 2) rest).map (UInt8.ofNat (16 * x + y) :: ·)

/-- The length is judged before the digits. -/
def decode (s : String) : Except Fault Bytes :=
  let digits := Bytes.ofText s
  if digits.length % 2 = 1 then .error .oddLength else decodePairs 0 digits

def digit (n : Nat) : Char :=
  if n < 10 then Char.ofNat (0x30 + n) else Char.ofNat (0x57 + n)

def encodeByte (b : UInt8) : List Char :=
  [digit (b.toNat / 16), digit (b.toNat % 16)]

def encode (bs : Bytes) : String :=
  String.ofList (bs.flatMap encodeByte)

end NativeScripts.Hex

/-! Byte strings, the form in which scripts and hashes travel. Numbers are
written with the most significant byte first. -/

namespace NativeScripts

abbrev Bytes := List UInt8

namespace Bytes

/-- The UTF-8 bytes of a text. -/
def ofText (s : String) : Bytes :=
  s.toList.flatMap String.utf8EncodeChar

/-- The text whose UTF-8 bytes are given, if they are well formed. -/
def toText? (bs : Bytes) : Option String :=
  String.fromUTF8? (ByteArray.mk bs.toArray)

def toNat (bs : Bytes) : Nat :=
  bs.foldl (fun n b => n * 256 + b.toNat) 0

/-- The last `width` digits of `n` in base 256. -/
def ofNat : Nat → Nat → Bytes
  | 0, _ => []
  | width + 1, n => ofNat width (n / 256) ++ [UInt8.ofNat n]

theorem length_ofNat (width n : Nat) : (ofNat width n).length = width := by
  induction width generalizing n with
  | zero => rfl
  | succ width ih => simp [ofNat, ih]

/-- The digits of `n` in base 256 without leading zeros. -/
def ofNatMinimal (n : Nat) : Bytes :=
  if n = 0 then [] else ofNat (n.log2 / 8 + 1) n

/-- The first `n` bytes and what follows them, if there are so many. -/
def split? (n : Nat) (bs : Bytes) : Option (Bytes × Bytes) :=
  let front := bs.take n
  if front.length = n then some (front, bs.drop n) else none

end Bytes

end NativeScripts

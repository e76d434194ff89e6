import NativeScripts.Hash

/-! BLAKE2b with a digest of twenty-eight bytes and no key. Words have
sixty-four bits and are laid out with the least significant byte first. -/

namespace NativeScripts.Blake2b

abbrev Word := UInt64

def initial : Vector Word 8 :=
  #v[0x6a09e667f3bcc908, 0xbb67ae8584caa73b, 0x3c6ef372fe94f82b, 0xa54ff53a5f1d36f1,
     0x510e527fade682d1, 0x9b05688c2b3e6c1f, 0x1f83d9abfb41bd6b, 0x5be0cd19137e2179]

/-- The order in which a round takes up the words of a block. -/
def schedule : List (Vector (Fin 16) 16) :=
  let orders : List (Vector (Fin 16) 16) := [
    #v[0, 1, 2, 3, 4, 5, 6, 7, 8, 9, 10, 11, 12, 13, 14, 15],
    #v[14, 10, 4, 8, 9, 15, 13, 6, 1, 12, 0, 2, 11, 7, 5, 3],
    #v[11, 8, 12, 0, 5, 2, 15, 13, 10, 14, 3, 6, 7, 1, 9, 4],
    #v[7, 9, 3, 1, 13, 12, 11, 14, 2, 6, 5, 10, 4, 0, 15, 8],
    #v[9, 0, 5, 7, 2, 4, 10, 15, 14, 1, 11, 12, 6, 8, 3, 13],
    #v[2, 12, 6, 10, 0, 11, 8, 3, 4, 13, 7, 5, 15, 14, 1, 9],
    #v[12, 5, 1, 15, 14, 13, 4, 10, 0, 7, 6, 3, 9, 2, 8, 11],
    #v[13, 11, 7, 14, 12, 1, 3, 9, 5, 0, 15, 4, 8, 6, 2, 10],
    #v[6, 15, 14, 9, 11, 3, 0, 8, 12, 2, 13, 7, 1, 4, 10, 5],
    #v[10, 2, 8, 4, 7, 6, 1, 5, 15, 11, 9, 14, 3, 12, 13, 0]]
  orders ++ orders.take 2

def rotateRight (x : Word) (n : Word) : Word :=
  (x >>> n) ||| (x <<< (64 - n))

/-- Stirs two words of the block into four words of the state. -/
def mix (v : Vector Word 16) (a b c d : Fin 16) (x y : Word) : Vector Word 16 :=
  let va := v[a] + v[b] + x
  let vd := rotateRight (v[d] ^^^ va) 32
  let vc := v[c] + vd
  let vb := rotateRight (v[b] ^^^ vc) 24
  let va := va + vb + y
  let vd := rotateRight (vd ^^^ va) 16
  let vc := vc + vd
  let vb := rotateRight (vb ^^^ vc) 63
  (((v.set a va).set b vb).set c vc).set d vd

/-- Four columns, then four diagonals. -/
def round (m : Vector Word 16) (v : Vector Word 16) (s : Vector (Fin 16) 16) : Vector Word 16 :=
  let v := mix v 0 4 8 12 m[s[0]] m[s[1]]
  let v := mix v 1 5 9 13 m[s[2]] m[s[3]]
  let v := mix v 2 6 10 14 m[s[4]] m[s[5]]
  let v := mix v 3 7 11 15 m[s[6]] m[s[7]]
  let v := mix v 0 5 10 15 m[s[8]] m[s[9]]
  let v := mix v 1 6 11 12 m[s[10]] m[s[11]]
  let v := mix v 2 7 8 13 m[s[12]] m[s[13]]
  mix v 3 4 9 14 m[s[14]] m[s[15]]

/-- The word whose bytes are given, the least significant first. -/
def wordOfBytes (bs : Bytes) : Word :=
  UInt64.ofNat (Bytes.toNat bs.reverse)

def bytesOfWord (w : Word) : Bytes :=
  (Bytes.ofNat 8 w.toNat).reverse

/-- The sixteen words of a block, which zeros fill up. -/
def blockWords (block : Bytes) : Vector Word 16 :=
  Vector.ofFn fun i => wordOfBytes ((block.drop (8 * i.val)).take 8)

/-- Takes in one block; `count` bytes have been read with it. -/
def compress (h : Vector Word 8) (block : Bytes) (count : Nat) (last : Bool) : Vector Word 8 :=
  let v := h ++ initial
  let v := v.set 12 (v[12] ^^^ UInt64.ofNat count)
  let v := v.set 13 (v[13] ^^^ UInt64.ofNat (count / UInt64.size))
  let v := if last then v.set 14 (~~~v[14]) else v
  let v := schedule.foldl (round (blockWords block)) v
  Vector.ofFn fun i => h[i] ^^^ v[i.val] ^^^ v[i.val + 8]

def blockLength : Nat := 128

/-- Takes in what is left, of which the last block may be short. -/
def absorb (h : Vector Word 8) (count : Nat) (rest : Bytes) : Vector Word 8 :=
  if rest.length ≤ blockLength then
    compress h rest (count + rest.length) true
  else
    absorb (compress h (rest.take blockLength) (count + blockLength) false)
      (count + blockLength) (rest.drop blockLength)
termination_by rest.length
decreasing_by simp [blockLength] at *; omega

/-- The first word carries the length of the digest. -/
def start : Vector Word 8 :=
  initial.set 0 (initial[0] ^^^ 0x01010000 ^^^ UInt64.ofNat hashLength)

def digest (message : Bytes) : Bytes :=
  ((absorb start 0 message).toList.flatMap bytesOfWord).take hashLength

theorem length_digest (message : Bytes) : (digest message).length = hashLength := by
  simp [digest, List.length_flatMap, bytesOfWord, Bytes.length_ofNat, hashLength,
    List.map_const']

end NativeScripts.Blake2b

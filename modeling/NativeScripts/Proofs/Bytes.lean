import Mathlib.Algebra.Group.Nat.Defs
import Mathlib.Data.List.Induction
import NativeScripts.Bytes
import NativeScripts.Proofs.Pointwise

/-! Numbers and texts in bytes. A given number of bytes spells each number below its power of
256 in exactly one way. A text is found again from its bytes, of which there are no fewer than
it has characters. -/

namespace NativeScripts.Bytes

theorem toNat_concat (bs : Bytes) (b : UInt8) : toNat (bs ++ [b]) = toNat bs * 256 + b.toNat := by
  simp [toNat, List.foldl_append]

theorem toNat_ofNat {width n : Nat} (h : n < 256 ^ width) : toNat (ofNat width n) = n := by
  induction width generalizing n with
  | zero =>
    have hn : n = 0 := by simpa using h
    simp [ofNat, toNat, hn]
  | succ width ih =>
    have hd : n / 256 < 256 ^ width :=
      Nat.div_lt_of_lt_mul (by rwa [Nat.pow_succ, Nat.mul_comm] at h)
    rw [ofNat, toNat_concat, ih hd, UInt8.toNat_ofNat']
    omega

theorem ofNat_toNat (bs : Bytes) : ofNat bs.length (toNat bs) = bs := by
  induction bs using List.reverseRecOn with
  | nil => rfl
  | append_singleton bs b ih =>
    have hb := b.toNat_lt
    have hlow : UInt8.ofNat (toNat bs * 256 + b.toNat) = b := by
      apply UInt8.toNat_inj.mp
      rw [UInt8.toNat_ofNat']
      omega
    have hhigh : (toNat bs * 256 + b.toNat) / 256 = toNat bs := by omega
    rw [toNat_concat, List.length_append, List.length_singleton, ofNat, hlow, hhigh, ih]

theorem toNat_lt (bs : Bytes) : toNat bs < 256 ^ bs.length := by
  induction bs using List.reverseRecOn with
  | nil => simp [toNat]
  | append_singleton bs b ih =>
    have hb := b.toNat_lt
    rw [toNat_concat, List.length_append, List.length_singleton, Nat.pow_succ]
    omega

theorem split?_eq_some {n : Nat} {bs front rest : Bytes} :
    bs.split? n = some (front, rest) ↔ bs = front ++ rest ∧ front.length = n := by
  constructor
  · intro h
    by_cases hn : (bs.take n).length = n
    · rw [split?, if_pos hn, Option.some.injEq, Prod.mk.injEq] at h
      obtain ⟨rfl, rfl⟩ := h
      exact ⟨(List.take_append_drop n bs).symm, hn⟩
    · rw [split?, if_neg hn] at h
      cases h
  · intro h
    rcases h with ⟨rfl, rfl⟩
    simp [split?]

theorem toText?_ofText (s : String) : toText? (ofText s) = some s := by
  have hbytes : ByteArray.mk (ofText s).toArray = s.toByteArray := by
    rw [← String.utf8Encode_toList]
    ext1
    exact List.data_toByteArray.symm
  have hvalid := s.isValidUTF8
  rw [toText?, hbytes, String.fromUTF8?, dif_pos hvalid, String.fromUTF8]

theorem length_le_ofText (s : String) : s.toList.length ≤ (ofText s).length := by
  have hpos (c : Char) : 0 < (String.utf8EncodeChar c).length :=
    List.length_pos_iff.mpr String.utf8EncodeChar_ne_nil
  rw [ofText, List.length_flatMap]
  exact length_le_sum_map hpos s.toList

end NativeScripts.Bytes

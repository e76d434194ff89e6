import NativeScripts.Proofs.Hex
import NativeScripts.Proofs.Script.Count

/-! Scripts as hexadecimal digits. No digit is a blank, so nothing is trimmed from the
digits of an encoding, and these are decoded to the script again. -/

namespace NativeScripts

namespace Text

theorem trim_eq_self {s : String} (h : ∀ c ∈ s.toList, isBlank c = false) : trim s = s := by
  have hkept {cs : List Char} (hcs : ∀ c ∈ cs, isBlank c = false) : cs.dropWhile isBlank = cs := by
    cases cs with
    | nil => rfl
    | cons c cs => exact List.dropWhile_cons_of_neg (by simp [hcs c List.mem_cons_self])
  have hend : s.toList.reverse.dropWhile isBlank = s.toList.reverse :=
    hkept fun c hc => h c (List.mem_reverse.mp hc)
  rw [trim, hkept h, trimEnd, hend, List.reverse_reverse, String.ofList_toList]

theorem length_trim_le (s : String) : (trim s).toList.length ≤ s.toList.length := by
  have hstart := (List.dropWhile_sublist isBlank (l := s.toList)).length_le
  have hend := (List.dropWhile_sublist isBlank
    (l := (s.toList.dropWhile isBlank).reverse)).length_le
  rw [trim, String.toList_ofList, trimEnd, List.length_reverse]
  rw [List.length_reverse] at hend
  omega

end Text

namespace Hex

theorem isBlank_of_hexValue? {c : Char} {x : Nat} (h : Text.hexValue? c = some x) :
    Text.isBlank c = false := by
  rw [hexValue?_eq] at h
  have hrange : 0x30 ≤ c.toNat ∧ c.toNat ≤ 0x66 := by grind
  simp only [Text.isBlank, Bool.or_eq_false_iff, Bool.and_eq_false_iff, decide_eq_false_iff_not]
  omega

theorem Spelled.not_blank {cs : List Char} {bs : Bytes} (h : Spelled cs bs) :
    ∀ c ∈ cs, Text.isBlank c = false := by
  induction h with
  | nil => exact List.forall_mem_nil _
  | cons hc hd _ ih =>
    exact List.forall_mem_cons.mpr
      ⟨isBlank_of_hexValue? hc, List.forall_mem_cons.mpr ⟨isBlank_of_hexValue? hd, ih⟩⟩

end Hex

namespace NativeScript

theorem decodeHex_eq_ok {digits : String} {s : NativeScript} :
    decodeHex digits = .ok s ↔
      ∃ bs, Hex.decode (Text.trim digits) = .ok bs ∧ decodeMarked bs = .ok s := by
  rw [decodeHex]
  cases Hex.decode (Text.trim digits) <;> simp

theorem decodeHex_encode {s : NativeScript} (h : s.Fits) :
    decodeHex (Hex.encode s.encode) = .ok s := by
  have hs := Hex.spelled_encode s.encode
  refine decodeHex_eq_ok.mpr ⟨s.encode, ?_, decodeMarked_encode h⟩
  rw [Text.trim_eq_self hs.not_blank]
  exact Hex.decode_eq_ok.mpr hs

theorem fits_of_decodeHex {digits : String} {s : NativeScript}
    (hl : (Bytes.ofText digits).length < UInt64.size) (h : decodeHex digits = .ok s) :
    s.Fits := by
  obtain ⟨bs, hd, hs⟩ := decodeHex_eq_ok.mp h
  have htwice := (Hex.decode_eq_ok.mp hd).length_eq
  have htrim := Text.length_trim_le digits
  have hbytes := Bytes.length_le_ofText digits
  exact fits_of_decodeMarked (by omega) hs

end NativeScript

end NativeScripts

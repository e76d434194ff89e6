import NativeScripts.Proofs.Cbor.Deterministic
import NativeScripts.Proofs.Script.Count

/-! Encoding what was decoded. The bytes come back as they were if they are
deterministic, and at no other time. -/

namespace NativeScripts

open Cbor (Item Deterministic)

namespace NativeScript

theorem deterministic_encode {s : NativeScript} (h : s.Fits) : Deterministic s.encode :=
  Item.deterministic_encode (plain_toItem h)

theorem encode_eq_iff {bs : Bytes} {s : NativeScript} (hl : bs.length < UInt64.size)
    (h : decode bs = .ok s) : s.encode = bs ↔ Deterministic bs := by
  constructor
  · rintro rfl
    exact deterministic_encode (fits_of_decode hl h)
  · intro hd
    have hr : Cbor.readItem bs.length (bs ++ []) = .ok (s.toItem, []) := by
      rw [List.append_nil]
      exact decode_eq_ok.mp h
    exact (hd.encode_eq s.bare_toItem hr).1

end NativeScript

namespace ShelleyScript

theorem deterministic_encode {s : ShelleyScript} (h : s.Fits) : Deterministic s.encode :=
  s.encode_lift ▸ NativeScript.deterministic_encode (fits_lift.mpr h)

end ShelleyScript

/-- The bytes that are hashed for a script are the bytes it was decoded from if
these are deterministic, and encodings always are. -/
theorem reencodes_iff_deterministic :
    (∀ (bs : Bytes) (s : NativeScript), bs.length < UInt64.size →
      NativeScript.decodeMarked bs = .ok s →
        (s.encode = dropMarker bs ↔ Deterministic (dropMarker bs)) ∧
        (Deterministic (dropMarker bs) → s.hash.bytes = Blake2b.digest (0 :: dropMarker bs))) ∧
    (∀ s : NativeScript, s.Fits → Deterministic s.encode) ∧
    (∀ (bs : Bytes) (s : ShelleyScript), bs.length < UInt64.size →
      ShelleyScript.decodeMarked bs = .ok s →
        (s.encode = dropMarker bs ↔ Deterministic (dropMarker bs)) ∧
        (Deterministic (dropMarker bs) → s.hash.bytes = Blake2b.digest (0 :: dropMarker bs))) ∧
    ∀ s : ShelleyScript, s.Fits → Deterministic s.encode := by
  have hnative (bs : Bytes) (s : NativeScript) (hl : bs.length < UInt64.size)
      (h : NativeScript.decodeMarked bs = .ok s) :
      s.encode = dropMarker bs ↔ Deterministic (dropMarker bs) :=
    NativeScript.encode_eq_iff (Nat.lt_of_le_of_lt (length_dropMarker_le bs) hl) h
  have hshelley (bs : Bytes) (s : ShelleyScript) (hl : bs.length < UInt64.size)
      (h : ShelleyScript.decodeMarked bs = .ok s) :
      s.encode = dropMarker bs ↔ Deterministic (dropMarker bs) :=
    s.encode_lift ▸ hnative bs s.lift hl (ShelleyScript.decode_lift h)
  refine ⟨fun bs s hl h => ⟨hnative bs s hl h, fun hd => ?_⟩,
    fun _ => NativeScript.deterministic_encode,
    fun bs s hl h => ⟨hshelley bs s hl h, fun hd => ?_⟩,
    fun _ => ShelleyScript.deterministic_encode⟩
  · rw [← (hnative bs s hl h).mpr hd]
    rfl
  · rw [← (hshelley bs s hl h).mpr hd]
    rfl

/-- A time lock whose tag takes up a byte more than it has to. -/
def wideTag : Bytes := [0x82, 0x18, 0x04, 0x05]

theorem decodeMarked_wideTag : NativeScript.decodeMarked wideTag = .ok (.after 5) :=
  NativeScript.decode_eq_ok.mpr rfl

theorem deterministic_specimens :
    (NativeScript.decodeMarked (0 :: NativeScript.specimen.encode) = .ok .specimen ∧
      Deterministic NativeScript.specimen.encode ∧ NativeScript.specimen.hash.bytes =
        Blake2b.digest (0 :: dropMarker (0 :: NativeScript.specimen.encode))) ∧
    (NativeScript.decodeMarked wideTag = .ok (.after 5) ∧ ¬Deterministic (dropMarker wideTag)) ∧
    ShelleyScript.decodeMarked (0 :: ShelleyScript.specimen.encode) = .ok .specimen ∧
      Deterministic ShelleyScript.specimen.encode ∧ ShelleyScript.specimen.hash.bytes =
        Blake2b.digest (0 :: dropMarker (0 :: ShelleyScript.specimen.encode)) := by
  have hfits : NativeScript.specimen.Fits ∧ ShelleyScript.specimen.Fits := by decide
  have hnative : NativeScript.decodeMarked (0 :: NativeScript.specimen.encode) = .ok .specimen :=
    NativeScript.decode_encode hfits.1
  have hshelley : ShelleyScript.decodeMarked (0 :: ShelleyScript.specimen.encode) = .ok .specimen :=
    ShelleyScript.decode_encode hfits.2
  have hd := reencodes_iff_deterministic.2.1 NativeScript.specimen hfits.1
  have hd' := reencodes_iff_deterministic.2.2.2 ShelleyScript.specimen hfits.2
  refine ⟨⟨hnative, hd, ?_⟩, ⟨decodeMarked_wideTag, fun hw => ?_⟩, hshelley, hd', ?_⟩
  · exact (reencodes_iff_deterministic.1 _ _ (by decide +kernel) hnative).2 hd
  · have he := (reencodes_iff_deterministic.1 _ _ (by decide) decodeMarked_wideTag).1.mpr hw
    exact absurd he (by decide +kernel)
  · exact (reencodes_iff_deterministic.2.2.1 _ _ (by decide +kernel) hshelley).2 hd'

end NativeScripts

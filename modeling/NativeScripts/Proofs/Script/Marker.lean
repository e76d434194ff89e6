import NativeScripts.Acceptance
import NativeScripts.Proofs.Script.SelfDelimiting

/-! The marker in front of a script. One is dropped without a trace, and a second one is an
item of its own, which no script is. -/

namespace NativeScripts

open Cbor (Item)

/-- The first byte is the head of an array. -/
def BeginsArray (bs : Bytes) : Prop :=
  ∃ first tail, bs = first :: tail ∧ 0x80 ≤ first ∧ first ≤ 0x9f

theorem not_beginsArray_zero (bs : Bytes) : ¬BeginsArray (0 :: bs) := by
  intro h
  obtain ⟨first, tail, he, hlow, -⟩ := h
  cases he
  exact absurd hlow (by decide)

theorem Cbor.Head.major_of_array {major info : Nat} {argument length : Option Nat}
    (h : Head.ofParts major info argument = .ok (.array length)) : major = 4 := by
  unfold Head.ofParts at h
  repeat' split at h
  all_goals simp_all

theorem Cbor.beginsArray_of_readHead {bs rest : Bytes} {length : Option Nat}
    (h : readHead bs = .ok (.array length, rest)) : BeginsArray bs := by
  obtain ⟨first, tail, argument, rfl, -, hp⟩ := readHead_eq_ok.mp h
  have hmajor : first.toNat / 32 = 4 := Head.major_of_array hp
  refine ⟨first, tail, rfl, UInt8.le_iff_toNat_le.mpr ?_, UInt8.le_iff_toNat_le.mpr ?_⟩
  · change 128 ≤ first.toNat
    omega
  · change first.toNat ≤ 159
    omega

theorem Cbor.not_array_of_ofBigNumber {negative : Bool} {n : Nat} {items : List Item} :
    Item.ofBigNumber negative n ≠ .ok (.array items) := by
  unfold Item.ofBigNumber
  repeat' split
  all_goals simp

theorem Cbor.Item.beginsArray_of_read {bs rest : Bytes} {items : List Item}
    (h : Item.read bs = .ok (.array items, rest)) : BeginsArray bs := by
  rw [Item.read, readItem_eq, readItemWith] at h
  cases hh : readHead bs with
  | error fault => simp [hh] at h
  | ok read =>
    obtain ⟨head, after⟩ := read
    simp only [hh] at h
    cases content_of_readContent h with
    | array => exact beginsArray_of_readHead hh
    | bigNumber _ _ _ _ hi => exact absurd hi not_array_of_ofBigNumber

/-- A marker in front of the bytes makes no difference, unless it is the second one. -/
structure OneMarker {α : Type} (encode : α → Bytes)
    (accept acceptMarked : Bytes → Except ScriptFault α) : Prop where
  dropped : ∀ bs, acceptMarked (0 :: bs) = accept bs
  idle : ∀ bs, bs.head? ≠ some 0 → acceptMarked (0 :: bs) = acceptMarked bs
  twice : ∀ bs, ∃ fault, acceptMarked (0 :: 0 :: bs) = .error (.malformedCbor fault)
  begins : ∀ bs s, acceptMarked bs = .ok s →
    BeginsArray bs ∨ ∃ tail, bs = 0 :: tail ∧ BeginsArray tail
  unmarked : ∀ s, (encode s).head? ≠ some 0

theorem oneMarker_of_arrays {α : Type} {write : α → Item} {decode : Bytes → Except CborFault α}
    (hread : ∀ {bs s}, decode bs = .ok s ↔ Item.read bs = .ok (write s, []))
    (harray : ∀ s, ∃ items, write s = .array items) :
    OneMarker (fun s => (write s).encode) (fun bs => (decode bs).mapError .malformedCbor)
      fun bs => (decode (dropMarker bs)).mapError .malformedCbor := by
  have hbegins {bs : Bytes} {s : α} (h : decode bs = .ok s) : BeginsArray bs := by
    obtain ⟨items, hitems⟩ := harray s
    rw [hread, hitems] at h
    exact Item.beginsArray_of_read h
  refine ⟨fun _ => rfl, fun bs hbs => ?_, fun bs => ?_, fun bs s h => ?_, fun s => ?_⟩
  · rw [dropMarker_eq_self.mpr hbs]
    rfl
  · refine (exists_mapError_iff fun _ => Iff.rfl).mpr ?_
    rintro ⟨s, h⟩
    exact not_beginsArray_zero bs (hbegins h)
  · have hs := mapError_eq_ok.mp h
    by_cases hbs : bs.head? = some 0
    · obtain ⟨tail, rfl⟩ := List.head?_eq_some_iff.mp hbs
      exact .inr ⟨tail, rfl, hbegins hs⟩
    · rw [dropMarker_eq_self.mpr hbs] at hs
      exact .inl (hbegins hs)
  · obtain ⟨items, hitems⟩ := harray s
    rw [hitems]
    exact dropMarker_eq_self.mp (dropMarker_encode_array items)

theorem NativeScript.toItem_eq_array (s : NativeScript) : ∃ items, s.toItem = .array items := by
  cases s with
  | multisig layer => exact ⟨_, toItem_multisig layer⟩
  | after slot => exact ⟨_, rfl⟩
  | before slot => exact ⟨_, rfl⟩

theorem ShelleyScript.toItem_eq_array (s : ShelleyScript) : ∃ items, s.toItem = .array items :=
  s.toItem_lift ▸ s.lift.toItem_eq_array

/-- One marker is tolerated in front of a script of either kind and says nothing about it. -/
theorem one_marker_tolerated :
    OneMarker NativeScript.encode NativeScript.acceptBare NativeScript.acceptBytes ∧
      OneMarker ShelleyScript.encode ShelleyScript.acceptBare ShelleyScript.acceptBytes :=
  ⟨oneMarker_of_arrays NativeScript.decode_eq_ok NativeScript.toItem_eq_array,
    oneMarker_of_arrays ShelleyScript.decode_eq_ok ShelleyScript.toItem_eq_array⟩

/-- Bytes that no script has, and a script behind its marker. -/
theorem one_marker_on_specimens :
    ([0x82, 0x04] : Bytes).head? ≠ some 0 ∧
      NativeScript.acceptBytes [0x00, 0x82, 0x04] = NativeScript.acceptBytes [0x82, 0x04] ∧
    NativeScript.acceptBytes (0 :: NativeScript.specimen.encode) = .ok .specimen ∧
      BeginsArray NativeScript.specimen.encode ∧
    ShelleyScript.acceptBytes (0 :: ShelleyScript.specimen.encode) = .ok .specimen ∧
      BeginsArray ShelleyScript.specimen.encode := by
  obtain ⟨hnative, hshelley⟩ := one_marker_tolerated
  have hcut : ([0x82, 0x04] : Bytes).head? ≠ some 0 := by decide
  have hn : NativeScript.acceptBytes (0 :: NativeScript.specimen.encode) = .ok .specimen := by
    rw [hnative.dropped]
    exact mapError_eq_ok.mpr (NativeScript.decode_encode (by decide))
  have hs : ShelleyScript.acceptBytes (0 :: ShelleyScript.specimen.encode) = .ok .specimen := by
    rw [hshelley.dropped]
    exact mapError_eq_ok.mpr (ShelleyScript.decode_encode (by decide))
  refine ⟨hcut, hnative.idle _ hcut, hn, ?_, hs, ?_⟩
  · obtain h | ⟨tail, he, h⟩ := hnative.begins _ _ hn
    · exact absurd h (not_beginsArray_zero _)
    · cases he
      exact h
  · obtain h | ⟨tail, he, h⟩ := hshelley.begins _ _ hs
    · exact absurd h (not_beginsArray_zero _)
    · cases he
      exact h

end NativeScripts

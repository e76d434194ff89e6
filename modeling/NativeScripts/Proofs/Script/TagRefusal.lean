import NativeScripts.Proofs.Cbor.WellFormed
import NativeScripts.Proofs.Script.RoundTrip

/-! Tags in scripts. Whatever its number and wherever it stands, a tag has the whole
document refused, unless the reader folds it into a natural number. Such a number passes
for a slot, a count or the tag of a kind like any other. -/

namespace NativeScripts

open Cbor (Head Item TagUse WellFormed Marked)

theorem Multisig.unsigned_toItem {m : Multisig Item} (each : ∀ c ∈ m.children, c.Unsigned) :
    m.toItem.Unsigned :=
  .array (m.forall_fields (fun n => .integer (Int.natCast_nonneg n.toNat)) (fun _ => .bytes _)
    (.array each))

theorem NativeScript.unsigned_toItem (s : NativeScript) : s.toItem.Unsigned := by
  have htimeLock (tag slot : UInt64) : (Item.array [.ofWord tag, .ofWord slot]).Unsigned :=
    .array (forall_timeLock_fields (fun n => .integer (Int.natCast_nonneg n.toNat)) tag slot)
  induction s with
  | multisig layer ih =>
    rw [toItem_multisig]
    exact Multisig.unsigned_toItem (by simpa using ih)
  | after slot => exact htimeLock _ slot
  | before slot => exact htimeLock _ slot

theorem Cbor.WellFormed.not_unsigned {tags : List TagUse} {bs rest : Bytes} {item : Item}
    (h : WellFormed tags bs) (hm : Marked tags) (hr : Item.read bs = .ok (item, rest)) :
    ¬item.Unsigned := by
  rw [Item.read, ← List.append_nil bs] at hr
  exact (h.spans _ _ _ _ hr).2 hm

/-- A document in which some tag is not folded is decoded as no script of either kind. -/
theorem unfolded_tags_refused {bs : Bytes} {tags : List TagUse}
    (h : WellFormed tags (dropMarker bs)) {t : TagUse} (ht : t ∈ tags) (hf : ¬t.Folds) :
    (∃ fault, NativeScript.decodeMarked bs = .error fault) ∧
      ∃ fault, ShelleyScript.decodeMarked bs = .error fault := by
  have hm : Marked tags := ⟨t, ht, hf⟩
  constructor
  · refine (exists_error_iff fun _ => NativeScript.decode_eq_ok).mpr ?_
    intro hs
    obtain ⟨s, hr⟩ := hs
    exact h.not_unsigned hm hr s.unsigned_toItem
  · refine (exists_error_iff fun _ => ShelleyScript.decode_eq_ok).mpr ?_
    intro hs
    obtain ⟨s, hr⟩ := hs
    exact h.not_unsigned hm hr (s.toItem_lift ▸ s.lift.unsigned_toItem)

section Derivations

variable {tags tags' : List TagUse} {bs bs' : Bytes} {n : Nat}

theorem Cbor.WellFormed.pair (h : WellFormed tags bs) (h' : WellFormed tags' bs') :
    WellFormed (tags ++ tags') (0x82 :: (bs ++ bs')) := by
  have hs : (Head.array (some 2)).Spelled [0x82] := rfl
  have each : ∀ i ∈ [(tags, bs), (tags', bs')], WellFormed i.1 i.2 := by
    simpa using ⟨h, h'⟩
  simpa using WellFormed.array hs .counted each

theorem Cbor.WellFormed.word (hs : (Head.unsigned n).Spelled bs) : WellFormed [] bs :=
  .single hs trivial

/-- The tag 2 before a byte string. -/
theorem Cbor.WellFormed.bigNumber (content : Bytes)
    (hs : (Head.bytes (some content.length)).Spelled bs) :
    WellFormed [⟨2, bs ++ content⟩] (0xc2 :: (bs ++ content)) := by
  have htag : (Head.tag 2).Spelled [0xc2] := rfl
  have hp : Cbor.Piece .bytes (bs ++ content) := .mk hs
  exact .tag htag (.piece hp)

end Derivations

/-- Two slots under a layer, the first of them with the tag 42. -/
def taggedSlot : Bytes := [0x82, 0x01, 0x82, 0x82, 0x04, 0xd8, 0x2a, 0x05, 0x82, 0x04, 0x05]

theorem tagged_slot_refused :
    (WellFormed [⟨42, [0x05]⟩] (dropMarker (0x00 :: taggedSlot)) ∧ ¬TagUse.Folds ⟨42, [0x05]⟩) ∧
    (∃ fault, NativeScript.decodeMarked (0x00 :: taggedSlot) = .error fault) ∧
      ∃ fault, ShelleyScript.decodeMarked (0x00 :: taggedSlot) = .error fault := by
  have hone : WellFormed [] [0x01] := .word rfl
  have hfour : WellFormed [] [0x04] := .word rfl
  have hfive : WellFormed [] [0x05] := .word rfl
  have htag : (Head.tag 42).Spelled [0xd8, 0x2a] := rfl
  have hw : WellFormed [⟨42, [0x05]⟩] (dropMarker (0x00 :: taggedSlot)) :=
    hone.pair ((hfour.pair (.tag htag hfive)).pair (hfour.pair hfive))
  have hf : ¬TagUse.Folds ⟨42, [0x05]⟩ := fun hf => absurd hf.number_eq (by decide)
  exact ⟨⟨hw, hf⟩, unfolded_tags_refused hw List.mem_cons_self hf⟩

/-- A folded tag leaves nothing behind but the number. -/
theorem Cbor.TagUse.Folds.readTagged_append {t : TagUse} (h : t.Folds) (inside : Cbor.Inside)
    (rest : Bytes) :
    ∃ n : UInt64, Cbor.readTagged inside t.number (t.content ++ rest) = .ok (.ofWord n, rest) := by
  obtain ⟨head, digits, hc, hs, hl, hn⟩ := h.content_eq
  have hdigits : Cbor.readBytes digits.length (digits ++ rest) = .ok (digits, rest) :=
    Cbor.readBytes_eq_ok.mpr ⟨rfl, rfl⟩
  refine ⟨.ofNat digits.toNat, ?_⟩
  rw [hc, h.number_eq, List.append_assoc]
  simp [Cbor.readTagged, hs.append, hl, hdigits, Item.ofBigNumber, hn, Item.ofWord,
    Nat.mod_eq_of_lt hn]

theorem NativeScript.decode_folded_slot {t : TagUse} (h : t.Folds) :
    ∃ slot, decode (0x82 :: 0x04 :: 0xc2 :: t.content) = .ok (.after slot) := by
  let depth := t.content.length + 2
  obtain ⟨slot, hslot⟩ := h.readTagged_append (Cbor.insideAt depth) []
  rw [h.number_eq, List.append_nil] at hslot
  have hitem : Cbor.readItem depth (0xc2 :: t.content) = .ok (.ofWord slot, []) := hslot
  have hmany : Cbor.readMany (Cbor.readItem depth) 2 (0x04 :: 0xc2 :: t.content) =
      .ok ([.ofWord Kind.after.tag, .ofWord slot], []) :=
    Cbor.readMany_succ_eq_ok.mpr ⟨_, _, _, rfl,
      Cbor.readMany_succ_eq_ok.mpr ⟨_, _, _, hitem, rfl, rfl⟩, rfl⟩
  refine ⟨slot, decode_eq_ok.mpr ?_⟩
  change Cbor.readContent (Cbor.insideAt (depth + 1)) (.array (some 2))
    (0x04 :: 0xc2 :: t.content) = .ok ((after slot).toItem, [])
  simp only [Cbor.readContent, Cbor.insideAt, Cbor.readSeries, hmany]
  rfl

/-- The slot of a native script and the kind of the other, both spelled as bytes. -/
theorem folded_tags_decoded :
    (WellFormed [⟨2, [0x41, 0x0a]⟩] (dropMarker [0x82, 0x04, 0xc2, 0x41, 0x0a]) ∧
      NativeScript.decodeMarked [0x82, 0x04, 0xc2, 0x41, 0x0a] = .ok (.after 10)) ∧
    WellFormed [⟨2, [0x41, 0x01]⟩] (dropMarker [0x82, 0xc2, 0x41, 0x01, 0x80]) ∧
      ShelleyScript.decodeMarked [0x82, 0xc2, 0x41, 0x01, 0x80] = .ok (.mk (.all [])) := by
  have hfour : WellFormed [] [0x04] := .word rfl
  have hlength : (Head.bytes (some 1)).Spelled [0x41] := rfl
  have hten : WellFormed [⟨2, [0x41, 0x0a]⟩] [0xc2, 0x41, 0x0a] := .bigNumber [0x0a] hlength
  have hone : WellFormed [⟨2, [0x41, 0x01]⟩] [0xc2, 0x41, 0x01] := .bigNumber [0x01] hlength
  have hempty : (Head.array (some 0)).Spelled [0x80] := rfl
  have hnone : WellFormed [] [0x80] := .array hempty .counted (List.forall_mem_nil _)
  exact ⟨⟨hfour.pair hten, NativeScript.decode_eq_ok.mpr rfl⟩,
    hone.pair hnone, ShelleyScript.decode_eq_ok.mpr rfl⟩

end NativeScripts

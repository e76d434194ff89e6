import NativeScripts.Acceptance
import NativeScripts.Proofs.Pointwise
import NativeScripts.Proofs.Script.RoundTrip

/-! The grammar of layouts, and decoding as its acceptance. Behind a marker, if there is
one, the bytes have to be those of one item without a tag that the grammar relates to a
script; all other bytes are refused. -/

namespace NativeScripts

open Cbor (Item)
open List (Forall₂)

/-- An array for a layer, its last field holding what `child` relates to the children. -/
inductive Multisig.LaidOut {α : Type} (child : Item → α → Prop) : Item → Multisig α → Prop where
  | sig {content : Bytes} (h : content.length = 28) :
      LaidOut child (.array [.integer 0, .bytes content]) (.sig ⟨content, h⟩)
  | all {items : List Item} {scripts : List α} (each : Forall₂ child items scripts) :
      LaidOut child (.array [.integer 1, .array items]) (.all scripts)
  | any {items : List Item} {scripts : List α} (each : Forall₂ child items scripts) :
      LaidOut child (.array [.integer 2, .array items]) (.any scripts)
  | atLeast (required : UInt64) {items : List Item} {scripts : List α}
      (each : Forall₂ child items scripts) :
      LaidOut child (.array [.integer 3, .integer required.toNat, .array items])
        (.atLeast required scripts)

inductive NativeScript.LaidOut : Item → NativeScript → Prop where
  | multisig {item : Item} {layer : Multisig NativeScript}
      (h : Multisig.LaidOut LaidOut item layer) : LaidOut item (.multisig layer)
  | after (slot : Slot) : LaidOut (.array [.integer 4, .integer slot.toNat]) (.after slot)
  | before (slot : Slot) : LaidOut (.array [.integer 5, .integer slot.toNat]) (.before slot)

inductive ShelleyScript.LaidOut : Item → ShelleyScript → Prop where
  | mk {item : Item} {layer : Multisig ShelleyScript} (h : Multisig.LaidOut LaidOut item layer) :
      LaidOut item (.mk layer)

theorem Multisig.laidOut_iff {α : Type} {child : Item → α → Prop} {write : α → Item}
    {item : Item} {m : Multisig α} (h : ∀ c ∈ m.children, ∀ i, child i c ↔ i = write c) :
    LaidOut child item m ↔ item = (m.map write).toItem := by
  have heach (items : List Item) :
      Forall₂ child items m.children ↔ items = m.children.map write :=
    (forall₂_congr_mem fun i _ c hc => h c hc i).trans forall₂_eq_map
  constructor
  · intro hl
    cases hl with
    | sig => rfl
    | all each | any each | atLeast _ each =>
      rw [(heach _).mp each]
      rfl
  · rintro rfl
    cases m with
    | sig key => exact .sig key.length_eq
    | all scripts => exact .all ((heach _).mpr rfl)
    | any scripts => exact .any ((heach _).mpr rfl)
    | atLeast required scripts => exact .atLeast required ((heach _).mpr rfl)

theorem NativeScript.laidOut_iff {item : Item} {s : NativeScript} :
    LaidOut item s ↔ item = s.toItem := by
  induction s generalizing item with
  | multisig layer ih =>
    rw [toItem_multisig, ← Multisig.laidOut_iff fun c hc i => ih c hc]
    constructor
    · intro h
      cases h with
      | multisig h => exact h
    · exact .multisig
  | after slot =>
    constructor
    · intro h
      cases h
      rfl
    · rintro rfl
      exact .after slot
  | before slot =>
    constructor
    · intro h
      cases h
      rfl
    · rintro rfl
      exact .before slot

theorem ShelleyScript.laidOut_iff {item : Item} {s : ShelleyScript} :
    LaidOut item s ↔ item = s.toItem := by
  induction s generalizing item with
  | mk layer ih =>
    rw [toItem_mk, ← Multisig.laidOut_iff fun c hc i => ih c hc]
    constructor
    · intro h
      cases h with
      | mk h => exact h
    · exact .mk

/-- Bytes and what is left of them without the marker, which is a zero in front. -/
inductive Unmarked : Bytes → Bytes → Prop where
  | marked (body : Bytes) : Unmarked (0 :: body) body
  | bare {body : Bytes} (h : body.head? ≠ some 0) : Unmarked body body

theorem unmarked_iff {bs body : Bytes} : Unmarked bs body ↔ dropMarker bs = body := by
  constructor
  · intro h
    cases h with
    | marked => rfl
    | bare h => exact dropMarker_eq_self.mpr h
  · rintro rfl
    by_cases h : bs.head? = some 0
    · obtain ⟨tail, rfl⟩ := List.head?_eq_some_iff.mp h
      exact .marked tail
    · rw [dropMarker_eq_self.mpr h]
      exact .bare h

/-- Without the marker the bytes are all of one item, which has no tag in it and is related
to the script. -/
inductive LaidOutIn {α : Type} (laidOut : Item → α → Prop) (bs : Bytes) (s : α) : Prop where
  | mk {body : Bytes} {item : Item} (hm : Unmarked bs body) (hr : Item.read body = .ok (item, []))
      (ht : ¬item.Tagged) (h : laidOut item s) : LaidOutIn laidOut bs s

/-- No tag can stand in an item that the grammar takes. -/
theorem laidOutIn_iff {α : Type} {laidOut : Item → α → Prop} {write : α → Item} {s : α}
    (h : ∀ item, laidOut item s ↔ item = write s) (hb : (write s).Bare) {bs : Bytes} :
    LaidOutIn laidOut bs s ↔ Item.read (dropMarker bs) = .ok (write s, []) := by
  constructor
  · intro hl
    obtain ⟨hm, hr, -, hl⟩ := hl
    rw [unmarked_iff.mp hm, hr, (h _).mp hl]
  · intro hr
    exact .mk (unmarked_iff.mpr rfl) hr hb.not_tagged ((h _).mpr rfl)

theorem NativeScript.decodeMarked_eq_ok {bs : Bytes} {s : NativeScript} :
    decodeMarked bs = .ok s ↔ LaidOutIn LaidOut bs s := by
  rw [laidOutIn_iff (fun _ => laidOut_iff) s.bare_toItem]
  exact decode_eq_ok

theorem ShelleyScript.decodeMarked_eq_ok {bs : Bytes} {s : ShelleyScript} :
    decodeMarked bs = .ok s ↔ LaidOutIn LaidOut bs s := by
  rw [laidOutIn_iff (fun _ => laidOut_iff) s.bare_toItem]
  exact decode_eq_ok

/-- Bytes are decoded as a script if the grammar of layouts says so, and are faulty CBOR
if it relates them to no script. -/
theorem decoding_follows_layouts :
    (∀ (bs : Bytes) (s : NativeScript),
      NativeScript.acceptBytes bs = .ok s ↔ LaidOutIn NativeScript.LaidOut bs s) ∧
    (∀ bs : Bytes, (∃ fault, NativeScript.acceptBytes bs = .error (.malformedCbor fault)) ↔
      ¬∃ s, LaidOutIn NativeScript.LaidOut bs s) ∧
    (∀ (bs : Bytes) (s : ShelleyScript),
      ShelleyScript.acceptBytes bs = .ok s ↔ LaidOutIn ShelleyScript.LaidOut bs s) ∧
    ∀ bs : Bytes, (∃ fault, ShelleyScript.acceptBytes bs = .error (.malformedCbor fault)) ↔
      ¬∃ s, LaidOutIn ShelleyScript.LaidOut bs s :=
  ⟨fun _ _ => mapError_eq_ok.trans NativeScript.decodeMarked_eq_ok,
    fun _ => exists_mapError_iff fun _ => NativeScript.decodeMarked_eq_ok,
    fun _ _ => mapError_eq_ok.trans ShelleyScript.decodeMarked_eq_ok,
    fun _ => exists_mapError_iff fun _ => ShelleyScript.decodeMarked_eq_ok⟩

/-- A lock behind one marker, behind none and behind two, a lock in a tag, and a list of no
scripts behind a marker. -/
theorem marked_scripts_decoded :
    NativeScript.acceptBytes [0x00, 0x82, 0x04, 0x05] = .ok (.after 5) ∧
    NativeScript.acceptBytes [0x82, 0x04, 0x05] = .ok (.after 5) ∧
    (∃ fault, NativeScript.acceptBytes [0x00, 0x00, 0x82, 0x04, 0x05] =
      .error (.malformedCbor fault)) ∧
    (∃ fault, NativeScript.acceptBytes [0x00, 0xc1, 0x82, 0x04, 0x05] =
      .error (.malformedCbor fault)) ∧
    ShelleyScript.acceptBytes [0x00, 0x82, 0x01, 0x80] = .ok (.mk (.all [])) := by
  obtain ⟨hnative, hrefused, hshelley, -⟩ := decoding_follows_layouts
  have hlock : ¬(NativeScript.after 5).toItem.Tagged :=
    (NativeScript.bare_toItem (.after 5)).not_tagged
  have hall : ¬(ShelleyScript.mk (.all [])).toItem.Tagged :=
    (ShelleyScript.bare_toItem (.mk (.all []))).not_tagged
  refine ⟨(hnative _ _).mpr (.mk (.marked _) rfl hlock (.after 5)),
    (hnative _ _).mpr (.mk (.bare (by decide)) rfl hlock (.after 5)),
    (hrefused _).mpr ?_, (hrefused _).mpr ?_,
    (hshelley _ _).mpr (.mk (.marked _) rfl hall (.mk (.all .nil)))⟩
  · rintro ⟨s, hm, hr, -, -⟩
    cases hm with
    | marked =>
      have hzero : Item.read [0x00, 0x82, 0x04, 0x05] = .ok (.integer 0, [0x82, 0x04, 0x05]) := rfl
      rw [hzero] at hr
      cases hr
    | bare h => exact h rfl
  · rintro ⟨s, hm, hr, ht, -⟩
    cases hm with
    | marked =>
      have htag : Item.read [0xc1, 0x82, 0x04, 0x05] =
          .ok (.tag 1 (NativeScript.after 5).toItem, []) := rfl
      rw [htag] at hr
      cases hr
      exact ht (.tag _ _)
    | bare h => exact h rfl

end NativeScripts

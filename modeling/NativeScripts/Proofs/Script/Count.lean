import NativeScripts.Proofs.Bytes
import NativeScripts.Proofs.Cbor.Count
import NativeScripts.Proofs.Json.Count
import NativeScripts.Proofs.Script.Description
import NativeScripts.Proofs.Script.RoundTrip

/-! Scripts that were read. A script is made of no more items than there were bytes, or
characters, to read it from, and no list of children in it is longer. -/

namespace NativeScripts

open Cbor (Item countAll)
open List (Forall₂)

theorem length_dropMarker_le (bs : Bytes) : (dropMarker bs).length ≤ bs.length := by
  unfold dropMarker
  split
  · exact Nat.le_succ _
  · exact Nat.le_refl _

theorem Multisig.countAll_children_lt (m : Multisig Item) :
    countAll m.children < m.toItem.count := by
  cases m <;> simp only [toItem, fieldItems, children, countAll, Item.count] <;> omega

/-- No list is longer than the count of the items that it is laid out in. -/
theorem NativeScript.fits_of_count {s : NativeScript} (h : s.toItem.count < UInt64.size) :
    s.Fits := by
  induction s with
  | multisig layer ih =>
    rw [toItem_multisig] at h
    have hall := Multisig.countAll_children_lt (layer.map toItem)
    rw [Multisig.children_map] at hall
    have hl := Cbor.length_le_countAll (layer.children.map toItem)
    rw [List.length_map] at hl
    refine .multisig (by omega) fun c hc => ih c hc ?_
    have hmem : c.toItem ∈ layer.children.map toItem := List.mem_map_of_mem hc
    have hitem := Cbor.count_le_countAll hmem
    omega
  | after slot => exact .after slot
  | before slot => exact .before slot

theorem NativeScript.fits_of_decode {bs : Bytes} {s : NativeScript}
    (hl : bs.length < UInt64.size) (h : decode bs = .ok s) : s.Fits := by
  have hr := Item.count_of_read (decode_eq_ok.mp h)
  exact fits_of_count (by omega)

theorem NativeScript.fits_of_decodeMarked {bs : Bytes} {s : NativeScript}
    (hl : bs.length < UInt64.size) (h : decodeMarked bs = .ok s) : s.Fits :=
  fits_of_decode (Nat.lt_of_le_of_lt (length_dropMarker_le bs) hl) h

theorem Multisig.Described.exists_items {α : Type} {child : Json → α → Prop} {v : Json}
    {m : Multisig α} (h : Multisig.Described child v m) :
    ∃ items, Forall₂ child items m.children ∧ (items.map Json.count).sum < v.count := by
  have hscripts {fields : Json.Fields} {items : List Json}
      (hs : Json.get? fields "scripts" = some (.array items)) :
      (items.map Json.count).sum < (Json.object fields).count := by
    have hc := Json.count_of_get? hs
    rw [Json.count_array] at hc
    omega
  cases h with
  | @sig fields => exact ⟨[], .nil, by simp [Json.count_object]⟩
  | @all fields items scripts ht hs each => exact ⟨items, each, hscripts hs⟩
  | @any fields items scripts ht hs each => exact ⟨items, each, hscripts hs⟩
  | @atLeast fields items scripts required ht hr hs each => exact ⟨items, each, hscripts hs⟩

theorem NativeScript.fits_of_described {v : Json} {s : NativeScript} (h : Described v s)
    (hc : v.count < UInt64.size) : s.Fits := by
  -- On the script, as the relation recurs through lists of members.
  induction s generalizing v with
  | multisig layer ih =>
    cases h with
    | multisig h =>
      obtain ⟨items, each, hsum⟩ := h.exists_items
      have hl := length_le_sum_map Json.count_pos items
      refine .multisig (by rw [← each.length_eq]; omega) fun c hmem => ?_
      obtain ⟨item, hi, hd⟩ := exists_of_forall₂ each.flip hmem
      have hitem := le_sum_map Json.count hi
      exact ih c hmem hd (by omega)
  | after slot => exact .after slot
  | before slot => exact .before slot

theorem NativeScript.fits_of_parse {text : String} {s : NativeScript}
    (hl : (Bytes.ofText text).length < UInt64.size) (h : parse text = .ok s) : s.Fits := by
  rw [parse] at h
  split at h
  · cases h
  · rename_i v hv
    have hc := Json.count_of_read? hv
    have hbytes := Bytes.length_le_ofText text
    exact fits_of_described (ofJson_eq_ok.mp h) (by omega)

end NativeScripts

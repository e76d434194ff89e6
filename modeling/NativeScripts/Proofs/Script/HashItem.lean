import NativeScripts.Acceptance
import NativeScripts.Proofs.Cbor.ByteString
import NativeScripts.Proofs.Hex
import NativeScripts.Proofs.Script.RoundTrip

/-! Script hashes in CBOR, alone and through the decoder of scripts. One goes no deeper than
a limit and looks at the item itself, the other goes to any depth and searches for tags
first, but the byte strings that they take are the same. -/

namespace NativeScripts

open Cbor (Argument ByteString Item)

section Spellings

variable {content text rest : Bytes}

theorem Cbor.ByteString.begins (h : ByteString content text) :
    ∃ first tail, text = first :: tail ∧ first.toNat / 32 = 2 := by
  cases h with
  | @whole _ spelled info ha =>
    have hi := ha.info_lt
    refine ⟨_, _, rfl, ?_⟩
    rw [UInt8.toNat_ofNat']
    omega
  | pieces => exact ⟨_, _, rfl, rfl⟩

theorem Cbor.ByteString.encode (h : content.length < UInt64.size) :
    ByteString content (Item.bytes content).encode := by
  obtain ⟨info, spelled, ha, hb, -⟩ := Cbor.headBytes_spelled 2 h
  have hw := ByteString.whole ha
  rw [Item.encode, hb]
  exact hw

theorem Cbor.Item.read_bytes (h : ByteString content text) (rest : Bytes) :
    Item.read (text ++ rest) = .ok (.bytes content, rest) :=
  Cbor.readItem_bytes_iff.mpr ⟨text, rfl, h⟩

/-- Nothing but the string itself takes up all of the bytes. -/
theorem Cbor.readItem_bytes_all {depth : Nat} :
    Cbor.readItem depth text = .ok (.bytes content, []) ↔ ByteString content text := by
  simp [Cbor.readItem_bytes_iff]

end Spellings

theorem ScriptHash.decodeAlone_eq_ok {bs : Bytes} {h : ScriptHash} :
    decodeAlone bs = .ok h ↔ ByteString h.bytes bs := by
  have hread : Cbor.readItem hashItemDepth bs = .ok (.bytes h.bytes, []) ↔ _ :=
    Cbor.readItem_bytes_all
  rw [← hread, decodeAlone]
  cases hr : Cbor.readItem hashItemDepth bs with
  | error fault => simp
  | ok read =>
    obtain ⟨item, rest⟩ := read
    by_cases hrest : rest = []
    · subst hrest
      cases item with
      | bytes content =>
        have hc : Hash.ofBytes content = .ok h ↔ content = h.bytes := Hash.ofBytes_eq_ok
        cases ho : (Hash.ofBytes content : Except HashFault ScriptHash) <;> simp_all
      | _ => simp
    · simp [hrest]

theorem Hash.decode_eq_ok {kind : HashKind} {bs : Bytes} {h : Hash kind} :
    Hash.decode bs = .ok h ↔ ByteString h.bytes bs := by
  have hd : Hash.decode bs = .ok h ↔ Item.read bs = .ok (h.toItem, []) :=
    decodeAs_eq_ok (fun _ => Layout.hashOf_eq_ok) (.bytes h.bytes)
  exact hd.trans Cbor.readItem_bytes_all

/-- A hash is read from any byte string of its length that takes up all of the bytes, and
from nothing else. Whatever is wrong is a fault of one kind. -/
structure ReadsHashes {ε : Type} (accept : Bytes → Except ScriptFault ScriptHash)
    (kind : ε → ScriptFault) (trailing wrongLength : Nat → ε) : Prop where
  ok_iff : ∀ bs h, accept bs = .ok h ↔ ByteString h.bytes bs
  refused_iff : ∀ bs, (∃ fault, accept bs = .error (kind fault)) ↔
    ¬∃ h : ScriptHash, ByteString h.bytes bs
  written : ∀ h : ScriptHash, accept h.encode = .ok h
  continued : ∀ content text rest, ByteString content text → rest ≠ [] →
    accept (text ++ rest) = .error (kind (trailing rest.length))
  unfit : ∀ content text, ByteString content text → content.length ≠ hashLength →
    accept text = .error (kind (wrongLength content.length))
  otherMajor : ∀ first tail, first.toNat / 32 ≠ 2 →
    ∃ fault, accept (first :: tail) = .error (kind fault)

theorem readsHashes_of_ok_iff {ε : Type} {read : Bytes → Except ε ScriptHash}
    {trailing wrongLength : Nat → ε} (kind : ε → ScriptFault)
    (ok_iff : ∀ bs h, read bs = .ok h ↔ ByteString h.bytes bs)
    (continued : ∀ content text rest, ByteString content text → rest ≠ [] →
      read (text ++ rest) = .error (trailing rest.length))
    (unfit : ∀ content text, ByteString content text → content.length ≠ hashLength →
      read text = .error (wrongLength content.length)) :
    ReadsHashes (fun bs => (read bs).mapError kind) kind trailing wrongLength := by
  have refused_iff (bs : Bytes) : (∃ fault, (read bs).mapError kind = .error (kind fault)) ↔
      ¬∃ h : ScriptHash, ByteString h.bytes bs :=
    exists_mapError_iff (ok_iff bs)
  refine ⟨fun bs h => mapError_eq_ok.trans (ok_iff bs h), refused_iff, fun h => ?_,
    fun content text rest hs hrest => ?_, fun content text hs hl => ?_, fun first tail hfirst => ?_⟩
  · have hfits : h.bytes.length < UInt64.size := by
      rw [h.length_eq]
      decide
    exact mapError_eq_ok.mpr ((ok_iff _ _).mpr (.encode hfits))
  · exact mapError_eq_error.mpr ⟨_, continued content text rest hs hrest, rfl⟩
  · exact mapError_eq_error.mpr ⟨_, unfit content text hs hl, rfl⟩
  · apply (refused_iff _).mpr
    intro hs
    obtain ⟨h, hs⟩ := hs
    obtain ⟨_, _, he, hmajor⟩ := hs.begins
    cases he
    exact hfirst hmajor

theorem ScriptHash.readsHashes_acceptAlone :
    ReadsHashes acceptAlone .invalidHashItem .trailing
      fun n => .unfit (.wrongLength .script n) := by
  apply readsHashes_of_ok_iff .invalidHashItem
  · intro bs h
    exact decodeAlone_eq_ok
  · intro content text rest hs hrest
    have hr : Cbor.readItem hashItemDepth (text ++ rest) = .ok (.bytes content, rest) :=
      Cbor.readItem_bytes_iff.mpr ⟨text, rfl, hs⟩
    simp [decodeAlone, hr, hrest]
  · intro content text hs hlength
    have hr : Cbor.readItem hashItemDepth text = .ok (.bytes content, []) :=
      Cbor.readItem_bytes_all.mpr hs
    simp [decodeAlone, hr, Hash.ofBytes, Hash.ofBytes?, hlength]

theorem Hash.readsHashes_acceptBare :
    ReadsHashes Hash.acceptBare .malformedCbor .trailing
      fun n => .layout (.wrongHashLength .script n) := by
  apply readsHashes_of_ok_iff .malformedCbor
  · intro bs h
    exact decode_eq_ok
  · intro content text rest hs hrest
    have hr := Item.read_bytes hs rest
    simp [Hash.decode, decodeAs, decodeItem, hr, hrest]
  · intro content text hs hlength
    have hr : Item.read text = .ok (.bytes content, []) := Cbor.readItem_bytes_all.mpr hs
    have hbare : ¬(Item.bytes content).Tagged := (Item.Bare.bytes content).not_tagged
    rw [Hash.decode, decodeAs_of_read hr hbare]
    simp [Layout.hashOf, Item.untagged, ofBytes?, hlength]

/-- Script hashes are read alike by the two decoders, and exactly where one byte string
without a tag is all that the reader finds. -/
theorem script_hash_decoders_agree :
    (∀ bs h, ScriptHash.acceptAlone bs = .ok h ↔ Hash.acceptBare bs = .ok h) ∧
    (∀ bs h, ScriptHash.acceptAlone bs = .ok h ↔ Item.read bs = .ok (.bytes h.bytes, [])) ∧
    ReadsHashes ScriptHash.acceptAlone .invalidHashItem .trailing
      (fun n => .unfit (.wrongLength .script n)) ∧
    ReadsHashes Hash.acceptBare .malformedCbor .trailing
      fun n => .layout (.wrongHashLength .script n) := by
  have halone := ScriptHash.readsHashes_acceptAlone
  have hbare := Hash.readsHashes_acceptBare
  refine ⟨fun bs h => ?_, fun bs h => ?_, halone, hbare⟩
  · rw [halone.ok_iff, hbare.ok_iff]
  · rw [halone.ok_iff]
    exact Cbor.readItem_bytes_all.symm

/-- A hash in three pieces, the second of which is in pieces itself. -/
def brokenHash : Bytes :=
  [0x5f, 0x41, 7, 0x5f, 0x42, 7, 7, 0xff, 0x58, 25] ++ List.replicate 25 7 ++ [0xff]

theorem byteString_brokenHash : ByteString (Hash.filled 7 : ScriptHash).bytes brokenHash := by
  have hone : ByteString [7] [0x41, 7] := .whole (.inside (by decide))
  have hinner : ∀ p ∈ [(([7, 7] : Bytes), ([0x42, 7, 7] : Bytes))], ByteString p.1 p.2 :=
    List.forall_mem_singleton.mpr (.whole (.inside (by decide)))
  have htwo : ByteString [7, 7] [0x5f, 0x42, 7, 7, 0xff] := .pieces hinner
  have hlong : ByteString (List.replicate 25 7) (0x58 :: 25 :: List.replicate 25 7) :=
    .whole (.following 0 (by decide) (by decide))
  have hparts : ∀ p ∈ [(([7] : Bytes), ([0x41, 7] : Bytes)), ([7, 7], [0x5f, 0x42, 7, 7, 0xff]),
      (List.replicate 25 7, 0x58 :: 25 :: List.replicate 25 7)], ByteString p.1 p.2 := by
    simp only [List.forall_mem_cons]
    exact ⟨hone, htwo, hlong, List.forall_mem_nil _⟩
  exact .pieces hparts

theorem broken_hash_decoded :
    (ScriptHash.acceptAlone brokenHash = .ok (.filled 7) ∧
      Hash.acceptBare brokenHash = .ok (.filled 7 : ScriptHash)) ∧
    (ScriptHash.acceptAlone (brokenHash ++ [0]) = .error (.invalidHashItem (.trailing 1)) ∧
      ScriptHash.acceptAlone [0x41, 7] =
        .error (.invalidHashItem (.unfit (.wrongLength .script 1)))) ∧
    ∃ fault, (Hash.acceptBare (0xd8 :: 0x18 :: brokenHash) : Except _ ScriptHash) =
      .error (.malformedCbor fault) := by
  obtain ⟨hagree, -, halone, hinside⟩ := script_hash_decoders_agree
  have hbroken := byteString_brokenHash
  have hdecoded := (halone.ok_iff _ _).mpr hbroken
  have hone : ByteString [7] [0x41, 7] := .whole (.inside (by decide))
  have htrailing := halone.continued _ _ [0] hbroken (by decide)
  have hunfit := halone.unfit _ _ hone (by decide)
  have htagged := hinside.otherMajor 0xd8 (0x18 :: brokenHash) (by decide)
  exact ⟨⟨hdecoded, (hagree _ _).mp hdecoded⟩, ⟨htrailing, hunfit⟩, htagged⟩

end NativeScripts

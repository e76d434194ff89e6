import NativeScripts.Proofs.Cbor.PlainItem
import NativeScripts.Proofs.Script.Fits
import NativeScripts.Proofs.Script.LayoutInverse
import NativeScripts.Script.Decoding

/-! Decoding undoes encoding. A script is laid out in plain items, so its bytes
are read as one item without a tag, and the marker that decoding drops is never
the first of them. -/

namespace NativeScripts

open Cbor (Item)

theorem Cbor.Item.plain_ofWord (n : UInt64) : (Item.ofWord n).Plain :=
  .unsigned n.toNat_lt

theorem Hash.plain_toItem {kind : HashKind} (h : Hash kind) : h.toItem.Plain :=
  .bytes (by rw [h.length_eq]; decide)

/-- The fields of a layer are words, hashes and the list of children. -/
theorem Multisig.forall_fields {P : Item → Prop} (m : Multisig Item)
    (word : ∀ n : UInt64, P (.ofWord n)) (hash : ∀ key : KeyHash, P key.toItem)
    (list : P (.array m.children)) : ∀ i ∈ Item.ofWord m.kind.tag :: m.fieldItems, P i := by
  intro i hi
  rcases List.mem_cons.mp hi with rfl | hi
  · exact word _
  · cases m <;> simp only [fieldItems, List.mem_cons, List.not_mem_nil, or_false] at hi
    · exact hi ▸ hash _
    · exact hi ▸ list
    · exact hi ▸ list
    · rcases hi with rfl | rfl
      · exact word _
      · exact list

theorem forall_timeLock_fields {P : Item → Prop} (word : ∀ n : UInt64, P (.ofWord n))
    (tag slot : UInt64) : ∀ i ∈ [Item.ofWord tag, .ofWord slot], P i := by
  intro i hi
  simp only [List.mem_cons, List.not_mem_nil, or_false] at hi
  rcases hi with rfl | rfl <;> exact word _

theorem Multisig.bare_toItem {m : Multisig Item} (each : ∀ c ∈ m.children, c.Bare) :
    m.toItem.Bare :=
  .array (m.forall_fields (fun _ => .integer _) (fun _ => .bytes _) (.array each))

theorem NativeScript.bare_toItem (s : NativeScript) : s.toItem.Bare := by
  have htimeLock (tag slot : UInt64) : (Item.array [.ofWord tag, .ofWord slot]).Bare :=
    .array (forall_timeLock_fields (fun _ => .integer _) tag slot)
  induction s with
  | multisig layer ih =>
    rw [toItem_multisig]
    exact Multisig.bare_toItem (by simpa using ih)
  | after slot => exact htimeLock _ slot
  | before slot => exact htimeLock _ slot

theorem ShelleyScript.bare_toItem (s : ShelleyScript) : s.toItem.Bare :=
  s.toItem_lift ▸ s.lift.bare_toItem

theorem Multisig.plain_toItem {m : Multisig Item} (h : m.children.length < UInt64.size)
    (each : ∀ c ∈ m.children, c.Plain) : m.toItem.Plain := by
  refine .array ?_ (m.forall_fields Item.plain_ofWord Hash.plain_toItem (.array h each))
  cases m <;> simp [fieldItems, UInt64.size]

theorem NativeScript.plain_toItem {s : NativeScript} (h : s.Fits) : s.toItem.Plain := by
  have htimeLock (tag slot : UInt64) : (Item.array [.ofWord tag, .ofWord slot]).Plain := by
    exact .array (by simp [UInt64.size]) (forall_timeLock_fields Item.plain_ofWord tag slot)
  induction h with
  | multisig hl _ ih =>
    rw [toItem_multisig]
    exact Multisig.plain_toItem (by simpa using hl) (by simpa using ih)
  | after slot => exact htimeLock _ slot
  | before slot => exact htimeLock _ slot

theorem ShelleyScript.plain_toItem {s : ShelleyScript} (h : s.Fits) : s.toItem.Plain :=
  s.toItem_lift ▸ NativeScript.plain_toItem (fits_lift.mpr h)

theorem NativeScript.ofItem_toItem (s : NativeScript) : ofItem s.toItem = .ok s :=
  (ofItem_eq_ok s.bare_toItem.not_tagged).mpr rfl

theorem ShelleyScript.ofItem_toItem (s : ShelleyScript) : ofItem s.toItem = .ok s :=
  (ofItem_eq_ok s.bare_toItem.not_tagged).mpr rfl

/-- What the search lets through has no tag for the layout to look through. -/
theorem decodeItem_eq_ok {bs : Bytes} {item : Item} :
    decodeItem bs = .ok item ↔ Item.read bs = .ok (item, []) ∧ ¬item.Tagged := by
  rw [decodeItem]
  cases hr : Item.read bs with
  | error fault => simp
  | ok read =>
    obtain ⟨found, rest⟩ := read
    by_cases hrest : rest = []
    · subst hrest
      have hsearch : Cbor.searchTag [found] = none ↔ ¬found.Tagged := by
        rw [Cbor.searchTag_eq_none_iff, List.forall_mem_singleton]
      by_cases hitem : found = item
      · subst hitem
        rw [← hsearch]
        cases ht : Cbor.searchTag [found] <;> simp [ht]
      · cases ht : Cbor.searchTag [found] <;> simp [ht, hitem]
    · simp [hrest]

theorem decodeAs_of_read {α : Type} {ofItem : Item → Except LayoutFault α} {bs : Bytes}
    {item : Item} (hr : Item.read bs = .ok (item, [])) (ht : ¬item.Tagged) :
    decodeAs ofItem bs = (ofItem item).mapError .layout := by
  rw [decodeAs, decodeItem_eq_ok.mpr ⟨hr, ht⟩]
  cases h : ofItem item <;> simp [h]

theorem decodeAs_eq_ok {α : Type} {ofItem : Item → Except LayoutFault α} {bs : Bytes} {x : α}
    {written : Item} (h : ∀ item, ¬item.Tagged → (ofItem item = .ok x ↔ item = written))
    (hb : written.Bare) : decodeAs ofItem bs = .ok x ↔ Item.read bs = .ok (written, []) := by
  have hstep : decodeAs ofItem bs = .ok x ↔ decodeItem bs = .ok written := by
    rw [decodeAs]
    cases hd : decodeItem bs with
    | error fault => simp
    | ok item =>
      rw [Except.ok.injEq, ← h item (decodeItem_eq_ok.mp hd).2]
      cases he : ofItem item <;> simp [he]
  rw [hstep, decodeItem_eq_ok]
  exact and_iff_left hb.not_tagged

theorem dropMarker_eq_self {bs : Bytes} : dropMarker bs = bs ↔ bs.head? ≠ some 0 := by
  unfold dropMarker
  split
  · simp
  · rename_i hne
    simp only [true_iff]
    intro h
    obtain ⟨tail, rfl⟩ := List.head?_eq_some_iff.mp h
    exact hne tail rfl

theorem dropMarker_array (n : Nat) (rest : Bytes) :
    dropMarker (Cbor.headBytes 4 n ++ rest) = Cbor.headBytes 4 n ++ rest := by
  obtain ⟨info, tail, hi, hb⟩ := Cbor.headBytes_eq_cons 4 n
  have hne : UInt8.ofNat (32 * 4 + info) ≠ 0 := by
    intro he
    have hzero : (UInt8.ofNat (32 * 4 + info)).toNat = 0 := congrArg UInt8.toNat he
    rw [UInt8.toNat_ofNat'] at hzero
    omega
  rw [hb, List.cons_append]
  exact dropMarker_eq_self.mpr (by simpa using hne)

theorem dropMarker_encode_array (items : List Item) :
    dropMarker (Item.array items).encode = (Item.array items).encode := by
  rw [Item.encode_array, dropMarker_array]

namespace NativeScript

theorem dropMarker_encode (s : NativeScript) : dropMarker s.encode = s.encode := by
  cases s with
  | multisig layer =>
    rw [encode, toItem_multisig]
    exact dropMarker_encode_array _
  | after slot => exact dropMarker_encode_array _
  | before slot => exact dropMarker_encode_array _

theorem decode_eq_ok {bs : Bytes} {s : NativeScript} :
    decode bs = .ok s ↔ Item.read bs = .ok (s.toItem, []) :=
  decodeAs_eq_ok (fun _ => ofItem_eq_ok) s.bare_toItem

theorem decode_encode {s : NativeScript} (h : s.Fits) : decode s.encode = .ok s :=
  decode_eq_ok.mpr (Item.read_encode (plain_toItem h))

theorem decodeMarked_encode {s : NativeScript} (h : s.Fits) : decodeMarked s.encode = .ok s := by
  rw [decodeMarked, dropMarker_encode, decode_encode h]

theorem encode_inj {s t : NativeScript} (hs : s.Fits) (ht : t.Fits) (h : s.encode = t.encode) :
    s = t := by
  have hd := decode_encode hs
  rw [h, decode_encode ht, Except.ok.injEq] at hd
  exact hd.symm

end NativeScript

namespace ShelleyScript

theorem dropMarker_encode (s : ShelleyScript) : dropMarker s.encode = s.encode :=
  s.encode_lift ▸ s.lift.dropMarker_encode

theorem decode_eq_ok {bs : Bytes} {s : ShelleyScript} :
    decode bs = .ok s ↔ Item.read bs = .ok (s.toItem, []) :=
  decodeAs_eq_ok (fun _ => ofItem_eq_ok) s.bare_toItem

theorem decode_lift {bs : Bytes} {s : ShelleyScript} (h : decode bs = .ok s) :
    NativeScript.decode bs = .ok s.lift := by
  rw [NativeScript.decode_eq_ok, toItem_lift]
  exact decode_eq_ok.mp h

theorem decode_encode {s : ShelleyScript} (h : s.Fits) : decode s.encode = .ok s :=
  decode_eq_ok.mpr (Item.read_encode (plain_toItem h))

theorem decodeMarked_encode {s : ShelleyScript} (h : s.Fits) : decodeMarked s.encode = .ok s := by
  rw [decodeMarked, dropMarker_encode, decode_encode h]

end ShelleyScript

theorem Multisig.decode_eq_ok {bs : Bytes} {m : Multisig NativeScript} :
    Multisig.decode bs = .ok m ↔ Item.read bs = .ok ((m.map NativeScript.toItem).toItem, []) :=
  decodeAs_eq_ok (fun _ ht => ofItem_eq_ok ht fun _ _ hct _ => NativeScript.ofItem_eq_ok hct)
    (NativeScript.toItem_multisig m ▸ NativeScript.bare_toItem (.multisig m))

theorem Multisig.decode_encode {m : Multisig NativeScript} (h : (NativeScript.multisig m).Fits) :
    Multisig.decode m.encode = .ok m := by
  have hp := NativeScript.plain_toItem h
  rw [NativeScript.toItem_multisig] at hp
  exact Multisig.decode_eq_ok.mpr (Item.read_encode hp)

/-- Scripts of either kind, however deep, and layers that stand alone are read
back from their encodings. -/
theorem encodings_read_back :
    (∀ s : NativeScript, s.Fits → NativeScript.decodeMarked s.encode = .ok s) ∧
      (∀ s : ShelleyScript, s.Fits → ShelleyScript.decodeMarked s.encode = .ok s) ∧
      ∀ m : Multisig NativeScript, (NativeScript.multisig m).Fits →
        Multisig.decode m.encode = .ok m :=
  ⟨fun _ => NativeScript.decodeMarked_encode, fun _ => ShelleyScript.decodeMarked_encode,
    fun _ => Multisig.decode_encode⟩

/-- Every kind of node, with numbers at the bounds of what they can be. -/
def NativeScript.specimen : NativeScript :=
  .multisig (.atLeast 18446744073709551615
    [.multisig (.sig ⟨List.replicate hashLength 0xff, rfl⟩),
     .multisig (.all [.after 18446744073709551615, .multisig (.any [])]), .before 24])

/-- The nodes of other scripts, one below the other. -/
def ShelleyScript.specimen : ShelleyScript :=
  .mk (.any [.mk (.atLeast 256 [.mk (.all []), .mk (.sig ⟨List.replicate hashLength 0, rfl⟩)])])

theorem specimens_read_back :
    (NativeScript.specimen.Fits ∧
      NativeScript.decodeMarked NativeScript.specimen.encode = .ok .specimen) ∧
    (ShelleyScript.specimen.Fits ∧
      ShelleyScript.decodeMarked ShelleyScript.specimen.encode = .ok .specimen) ∧
    (NativeScript.multisig (.all [.specimen])).Fits ∧
      Multisig.decode (Multisig.all [.specimen]).encode = .ok (.all [.specimen]) :=
  ⟨⟨by decide, encodings_read_back.1 .specimen (by decide)⟩,
    ⟨by decide, encodings_read_back.2.1 .specimen (by decide)⟩,
    by decide, encodings_read_back.2.2 (.all [.specimen]) (by decide)⟩

end NativeScripts

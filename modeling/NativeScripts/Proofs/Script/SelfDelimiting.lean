import NativeScripts.Proofs.Cbor.Truncation
import NativeScripts.Proofs.Script.RoundTrip

/-! Encodings show where they end. Cut short they are never read as a script, and what
follows one of them is left over to the last byte, so no encoding begins another and
encodings in a row come apart in one way only. -/

namespace NativeScripts

open Cbor (Item)

structure SelfDelimiting {α : Type} (fits : α → Prop) (encode : α → Bytes)
    (decode : Bytes → Except CborFault α) : Prop where
  cut : ∀ {s : α} {bs : Bytes}, fits s → bs <+: encode s → bs ≠ encode s →
    decode bs = .error (.unreadable .early)
  cut_marked : ∀ {s : α} {bs : Bytes}, fits s → bs <+: 0 :: encode s → bs ≠ 0 :: encode s →
    decode bs = .error (.unreadable .early)
  trailing : ∀ {s : α} {rest : Bytes}, fits s → rest ≠ [] →
    decode (encode s ++ rest) = .error (.trailing rest.length)
  prefix_free : ∀ {s t : α}, fits s → fits t → encode s <+: encode t → s = t
  splits : ∀ {ss ts : List α}, (∀ s ∈ ss, fits s) → (∀ t ∈ ts, fits t) →
    ss.flatMap encode = ts.flatMap encode → ss = ts

theorem dropMarker_append {front : Bytes} (hd : dropMarker front = front) (hne : front ≠ [])
    (rest : Bytes) : dropMarker (front ++ rest) = front ++ rest := by
  rw [dropMarker_eq_self] at hd ⊢
  rwa [List.head?_append_of_ne_nil front hne]

theorem dropMarker_cut {cut whole : Bytes} (hd : dropMarker whole = whole) (hp : cut <+: whole) :
    dropMarker cut = cut := by
  obtain ⟨rest, rfl⟩ := hp
  cases cut with
  | nil => rfl
  | cons first tail =>
    rw [dropMarker_eq_self] at hd ⊢
    exact hd

section Decoding

variable {α : Type} {ofItem : Item → Except LayoutFault α} {bs : Bytes}

theorem injective_of_read_back {write : α → Item} (h : ∀ s, ofItem (write s) = .ok s) :
    Function.Injective write := by
  intro s t he
  have hs := h s
  rw [he, h t, Except.ok.injEq] at hs
  exact hs.symm

theorem decodeAs_early (h : Item.read bs = .error .early) :
    decodeAs ofItem bs = .error (.unreadable .early) := by
  simp only [decodeAs, decodeItem, h]

theorem decodeAs_trailing {item : Item} {rest : Bytes} (h : Item.read bs = .ok (item, rest))
    (hne : rest ≠ []) : decodeAs ofItem bs = .error (.trailing rest.length) := by
  simp only [decodeAs, decodeItem, h, if_pos hne]

variable {fits : α → Prop} {write : α → Item}

theorem flatMap_encode_inj (hplain : ∀ s, fits s → (write s).Plain)
    (hinj : Function.Injective write) {ss ts : List α} (hs : ∀ s ∈ ss, fits s)
    (ht : ∀ t ∈ ts, fits t)
    (h : (ss.flatMap fun s => (write s).encode) = ts.flatMap fun t => (write t).encode) :
    ss = ts := by
  induction ss generalizing ts with
  | nil =>
    cases ts with
    | nil => rfl
    | cons t ts => simp [Item.encode_ne_nil] at h
  | cons s ss ih =>
    cases ts with
    | nil => simp [Item.encode_ne_nil] at h
    | cons t ts =>
      rw [List.forall_mem_cons] at hs ht
      rw [List.flatMap_cons, List.flatMap_cons] at h
      obtain ⟨he, hrest⟩ := Item.encode_append_inj (hplain s hs.1) (hplain t ht.1) h
      rw [hinj he, ih hs.2 ht.2 hrest]

/-- Whatever is written in plain items delimits itself, if it never begins like a marker. -/
theorem selfDelimiting_of_plain (hplain : ∀ s, fits s → (write s).Plain)
    (hmarker : ∀ s, dropMarker (write s).encode = (write s).encode)
    (hinj : Function.Injective write) :
    SelfDelimiting fits (fun s => (write s).encode) fun bs => decodeAs ofItem (dropMarker bs) := by
  have hcut {s : α} {bs : Bytes} (hs : fits s) (hp : bs <+: (write s).encode)
      (hne : bs ≠ (write s).encode) :
      decodeAs ofItem (dropMarker bs) = .error (.unreadable .early) := by
    rw [dropMarker_cut (hmarker s) hp]
    exact decodeAs_early (Item.read_cut (hplain s hs) hp hne)
  refine ⟨hcut, ?_, ?_, ?_, flatMap_encode_inj hplain hinj⟩
  · intro s bs hs hp hne
    cases bs with
    | nil => exact decodeAs_early rfl
    | cons first tail =>
      obtain ⟨rfl, htail⟩ := List.cons_prefix_cons.mp hp
      exact decodeAs_early
        (Item.read_cut (hplain s hs) htail fun he => hne (congrArg (0 :: ·) he))
  · intro s rest hs hne
    rw [dropMarker_append (hmarker s) (Item.encode_ne_nil _)]
    exact decodeAs_trailing (Item.read_encode_append (hplain s hs) rest) hne
  · intro s t hs ht hp
    obtain ⟨rest, he⟩ := hp
    rw [← List.append_nil (write t).encode] at he
    exact hinj (Item.encode_append_inj (hplain s hs) (hplain t ht) he).1

end Decoding

theorem NativeScript.toItem_injective : Function.Injective toItem :=
  injective_of_read_back ofItem_toItem

theorem ShelleyScript.toItem_injective : Function.Injective toItem :=
  injective_of_read_back ofItem_toItem

/-- The encodings of scripts of either kind delimit themselves, with the marker in front
and without it. -/
theorem encodings_delimit_themselves :
    SelfDelimiting NativeScript.Fits NativeScript.encode NativeScript.decodeMarked ∧
      SelfDelimiting ShelleyScript.Fits ShelleyScript.encode ShelleyScript.decodeMarked :=
  ⟨selfDelimiting_of_plain (fun _ => NativeScript.plain_toItem) NativeScript.dropMarker_encode
      NativeScript.toItem_injective,
    selfDelimiting_of_plain (fun _ => ShelleyScript.plain_toItem) ShelleyScript.dropMarker_encode
      ShelleyScript.toItem_injective⟩

/-- Cut inside the hash of a key, cut behind the marker alone, and continued by two bytes. -/
theorem specimens_cut_and_continued :
    (NativeScript.specimen.Fits ∧
      NativeScript.decodeMarked (NativeScript.specimen.encode.take 20) =
        .error (.unreadable .early) ∧
      NativeScript.decodeMarked [0] = .error (.unreadable .early) ∧
      NativeScript.decodeMarked (NativeScript.specimen.encode ++ [0x80, 0x00]) =
        .error (.trailing 2)) ∧
    ShelleyScript.specimen.Fits ∧
      ShelleyScript.decodeMarked (ShelleyScript.specimen.encode.take 20) =
        .error (.unreadable .early) ∧
      ShelleyScript.decodeMarked [0] = .error (.unreadable .early) ∧
      ShelleyScript.decodeMarked (ShelleyScript.specimen.encode ++ [0x80, 0x00]) =
        .error (.trailing 2) := by
  obtain ⟨hnative, hshelley⟩ := encodings_delimit_themselves
  have hn : NativeScript.specimen.Fits := by decide
  have hs : ShelleyScript.specimen.Fits := by decide
  have hmarker (bs : Bytes) : [0] <+: 0 :: bs := ⟨bs, rfl⟩
  refine ⟨⟨hn, ?_, ?_, hnative.trailing hn (by simp)⟩, hs, ?_, ?_, hshelley.trailing hs (by simp)⟩
  · exact hnative.cut hn (List.take_prefix 20 _) (by decide +kernel)
  · exact hnative.cut_marked hn (hmarker _) (by decide +kernel)
  · exact hshelley.cut hs (List.take_prefix 20 _) (by decide +kernel)
  · exact hshelley.cut_marked hs (hmarker _) (by decide +kernel)

end NativeScripts

import NativeScripts.Proofs.Cbor.PlainItem

/-! Bytes that break off. Wherever the encoding of a plain item is cut, the reader runs
out of bytes before it has an item. -/

namespace NativeScripts.Cbor

/-- A cut falls into the first of two parts, or behind it into the second. -/
theorem cut_append {cut front back : Bytes} (hp : cut <+: front ++ back)
    (hne : cut ≠ front ++ back) :
    (cut <+: front ∧ cut ≠ front) ∨ ∃ tail, cut = front ++ tail ∧ tail <+: back ∧ tail ≠ back := by
  rcases List.prefix_or_prefix_of_prefix hp (List.prefix_append front back) with hf | ⟨tail, rfl⟩
  · by_cases he : cut = front
    · subst he
      have hback : [] ≠ back := by
        rintro rfl
        exact hne (List.append_nil cut).symm
      exact .inr ⟨[], (List.append_nil cut).symm, List.nil_prefix, hback⟩
    · exact .inl ⟨hf, he⟩
  · have htail : tail <+: back := (List.prefix_append_right_inj front).mp hp
    exact .inr ⟨tail, rfl, htail, fun he => hne (congrArg (front ++ ·) he)⟩

theorem readBytes_short {n : Nat} {bs : Bytes} (h : bs.length < n) :
    readBytes n bs = .error .early := by
  have hs : bs.split? n = none := by
    rw [Bytes.split?, if_neg]
    rw [List.length_take]
    omega
  rw [readBytes, hs]

theorem readBytes_cut {content cut : Bytes} (hp : cut <+: content) (hne : cut ≠ content) :
    readBytes content.length cut = .error .early := by
  refine readBytes_short (Nat.lt_of_le_of_ne hp.length_le fun hl => hne ?_)
  exact hp.eq_of_length hl

theorem readArgument_cut {n info : Nat} {spelled cut : Bytes} (h : Argument n info spelled)
    (hp : cut <+: spelled) (hne : cut ≠ spelled) : readArgument info cut = .error .early := by
  cases h with
  | inside => exact absurd (List.prefix_nil.mp hp) hne
  | following i hi =>
    have hr := readBytes_cut hp hne
    rw [Bytes.length_ofNat] at hr
    rw [readArgument_following hi, hr]

theorem readHead_cut {major n : Nat} (hn : n < UInt64.size) {cut : Bytes}
    (hp : cut <+: headBytes major n) (hne : cut ≠ headBytes major n) :
    readHead cut = .error .early := by
  obtain ⟨info, spelled, ha, hb, -⟩ := headBytes_spelled major hn
  rw [hb] at hp hne
  cases cut with
  | nil => rfl
  | cons first cut =>
    obtain ⟨rfl, htail⟩ := List.cons_prefix_cons.mp hp
    have hcut : readArgument info cut = .error .early :=
      readArgument_cut ha htail fun he => hne (congrArg _ he)
    have hi := ha.info_lt
    have hinfo : (UInt8.ofNat (32 * major + info)).toNat % 32 = info := by
      rw [UInt8.toNat_ofNat']
      omega
    rw [readHead]
    simp only [hinfo, hcut]

theorem readItem_cut_head {major n depth : Nat} (hn : n < UInt64.size) {cut : Bytes}
    (hp : cut <+: headBytes major n) (hne : cut ≠ headBytes major n) :
    readItem depth cut = .error .early := by
  rw [readItem_eq, readItemWith, readHead_cut hn hp hne]

theorem readMany_succ_early {α : Type} {read : Reader α} {n : Nat} {x : α} {bs between : Bytes}
    (hx : read bs = .ok (x, between)) (h : readMany read n between = .error .early) :
    readMany read (n + 1) bs = .error .early := by
  simp only [readMany, hx, h]

/-- Of the items before the cut each is read in full, and the one at the cut is not. -/
theorem readMany_cut {read : Reader Item} {bound : Nat} {items : List Item}
    (hfull : ∀ i ∈ items, i.encode.length ≤ bound → ∀ rest, read (i.encode ++ rest) = .ok (i, rest))
    (hcut : ∀ i ∈ items, ∀ cut, cut.length ≤ bound → cut <+: i.encode → cut ≠ i.encode →
      read cut = .error .early)
    {cut : Bytes} (hl : cut.length ≤ bound) (hp : cut <+: Item.encodeAll items)
    (hne : cut ≠ Item.encodeAll items) : readMany read items.length cut = .error .early := by
  induction items generalizing cut with
  | nil => exact absurd (List.prefix_nil.mp hp) hne
  | cons item items ih =>
    have hmem : item ∈ item :: items := List.mem_cons_self
    rcases cut_append hp hne with ⟨hp, hne⟩ | ⟨tail, rfl, hp, hne⟩
    · simp only [List.length_cons, readMany, hcut item hmem cut hl hp hne]
    · rw [List.length_append] at hl
      have hitem := hfull item hmem (by omega) tail
      have htail := ih (fun i hi => hfull i (List.mem_cons_of_mem item hi))
        (fun i hi => hcut i (List.mem_cons_of_mem item hi)) (by omega) hp hne
      exact readMany_succ_early hitem htail

theorem readItem_cut {item : Item} (h : item.Plain) {depth : Nat} {cut : Bytes}
    (hd : cut.length ≤ depth) (hp : cut <+: item.encode) (hne : cut ≠ item.encode) :
    readItem depth cut = .error .early := by
  induction h generalizing depth cut with
  | @unsigned n hn =>
    rw [Item.encode_unsigned] at hp hne
    exact readItem_cut_head hn hp hne
  | @negative n hn =>
    rw [Item.encode_negative] at hp hne
    exact readItem_cut_head hn hp hne
  | @bytes content hn =>
    rw [Item.encode] at hp hne
    rcases cut_append hp hne with ⟨hp, hne⟩ | ⟨tail, rfl, hp, hne⟩
    · exact readItem_cut_head hn hp hne
    · rw [readItem_head (readHead_headBytes (by omega) hn tail)]
      simp [Head.ofArgument, readContent, readString, readPiece, readBytes_cut hp hne]
  | @array items hn each ih =>
    rw [Item.encode_array] at hp hne
    rcases cut_append hp hne with ⟨hp, hne⟩ | ⟨tail, rfl, hp, hne⟩
    · exact readItem_cut_head hn hp hne
    · have hpos := List.length_pos_iff.mpr (headBytes_ne_nil 4 items.length)
      rw [List.length_append] at hd
      obtain ⟨depth, rfl⟩ : ∃ d, depth = d + 1 := ⟨depth - 1, by omega⟩
      have hmany : readMany (readItem depth) items.length tail = .error .early :=
        readMany_cut (fun i hi hl rest => readItem_encode (each i hi) hl rest)
          (fun i hi _ hl hp hne => ih i hi hl hp hne) (by omega) hp hne
      rw [readItem_head (readHead_headBytes (by omega) hn tail)]
      simp only [Head.ofArgument, readContent, insideAt, readSeries, hmany]

theorem Item.read_cut {item : Item} (h : item.Plain) {cut : Bytes} (hp : cut <+: item.encode)
    (hne : cut ≠ item.encode) : Item.read cut = .error .early :=
  readItem_cut h (Nat.le_refl _) hp hne

theorem Item.read_encode_append {item : Item} (h : item.Plain) (rest : Bytes) :
    Item.read (item.encode ++ rest) = .ok (item, rest) :=
  readItem_encode h (by rw [List.length_append]; omega) rest

/-- Bytes that begin with two encodings begin with one and the same. -/
theorem Item.encode_append_inj {item item' : Item} (h : item.Plain) (h' : item'.Plain)
    {rest rest' : Bytes} (he : item.encode ++ rest = item'.encode ++ rest') :
    item = item' ∧ rest = rest' := by
  have hr := read_encode_append h rest
  rw [he, read_encode_append h' rest', Except.ok.injEq, Prod.mk.injEq] at hr
  exact ⟨hr.1.symm, hr.2.symm⟩

end NativeScripts.Cbor

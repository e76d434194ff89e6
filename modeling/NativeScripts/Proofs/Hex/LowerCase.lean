import NativeScripts.Proofs.Hex

/-! Bytes have one spelling in lower case, which every other spelling becomes when its letters
are lowered, and texts in that spelling stand in the order of the bytes. -/

namespace NativeScripts.Hex

theorem hexValue?_lt {c : Char} {x : Nat} (h : Text.hexValue? c = some x) : x < 16 := by
  rw [hexValue?_eq] at h
  grind

theorem toNat_digit {n : Nat} (h : n < 16) :
    (digit n).toNat = if n < 10 then 0x30 + n else 0x57 + n := by
  have hall : ∀ n < 16, (digit n).toNat = if n < 10 then 0x30 + n else 0x57 + n := by decide
  exact hall n h

theorem toLower_of_hexValue? {c : Char} {x : Nat} (h : Text.hexValue? c = some x) :
    c.toLower = digit x := by
  apply Char.toNat_inj.mp
  rw [toNat_toLower, toNat_digit (hexValue?_lt h)]
  rw [hexValue?_eq] at h
  grind

theorem encodeByte_pair {x y : Nat} (hx : x < 16) (hy : y < 16) :
    encodeByte (UInt8.ofNat (16 * x + y)) = [digit x, digit y] := by
  have hbyte : (UInt8.ofNat (16 * x + y)).toNat = 16 * x + y := by
    rw [UInt8.toNat_ofNat']
    omega
  have hhigh : (16 * x + y) / 16 = x := by omega
  have hlow : (16 * x + y) % 16 = y := by omega
  rw [encodeByte, hbyte, hhigh, hlow]

theorem Spelled.toLower {cs : List Char} {bs : Bytes} (h : Spelled cs bs) :
    cs.map Char.toLower = bs.flatMap encodeByte := by
  induction h with
  | nil => rfl
  | cons hc hd _ ih =>
    rw [List.map_cons, List.map_cons, ih, toLower_of_hexValue? hc, toLower_of_hexValue? hd,
      List.flatMap_cons, encodeByte_pair (hexValue?_lt hc) (hexValue?_lt hd)]
    rfl

theorem toList_toLower (s : String) : s.toLower.toList = s.toList.map Char.toLower :=
  String.toList_map

theorem spelled_iff_toLower {s : String} {bs : Bytes} :
    Spelled s.toList bs ↔ s.toLower = encode bs := by
  constructor
  · intro h
    apply String.toList_injective
    rw [toList_toLower, h.toLower, encode, String.toList_ofList]
  · intro h
    rw [← spelled_toLower_iff, ← toList_toLower, h]
    exact spelled_encode bs

theorem digit_lt_digit {m n : Nat} (hm : m < 16) (hn : n < 16) : digit m < digit n ↔ m < n := by
  have hall : ∀ m < 16, ∀ n < 16, digit m < digit n ↔ m < n := by decide
  exact hall m hm n hn

theorem digit_inj {m n : Nat} (hm : m < 16) (hn : n < 16) : digit m = digit n ↔ m = n := by
  constructor
  · intro h
    have hvalue := hexValue?_digit hm
    rw [h, hexValue?_digit hn, Option.some.injEq] at hvalue
    exact hvalue.symm
  · exact congrArg digit

/-- The digits of a byte decide as the byte does, and so does what follows them. -/
theorem encodeByte_append_lt {a b : UInt8} {cs ds : List Char} :
    encodeByte a ++ cs < encodeByte b ++ ds ↔ a < b ∨ a = b ∧ cs < ds := by
  have ha := a.toNat_lt
  have hb := b.toNat_lt
  have hah : a.toNat / 16 < 16 := by omega
  have hbh : b.toNat / 16 < 16 := by omega
  have hal : a.toNat % 16 < 16 := by omega
  have hbl : b.toNat % 16 < 16 := by omega
  simp only [encodeByte, List.cons_append, List.nil_append, List.cons_lt_cons_iff,
    digit_lt_digit hah hbh, digit_lt_digit hal hbl, digit_inj hah hbh, digit_inj hal hbl,
    UInt8.lt_iff_toNat_lt, ← UInt8.toNat_inj]
  constructor
  · rintro (h | ⟨h, h' | ⟨h', h''⟩⟩)
    · exact .inl (by omega)
    · exact .inl (by omega)
    · exact .inr ⟨by omega, h''⟩
  · rintro (h | ⟨h, h'⟩)
    · omega
    · exact .inr ⟨by omega, .inr ⟨by omega, h'⟩⟩

theorem flatMap_encodeByte_lt {as bs : Bytes} :
    as.flatMap encodeByte < bs.flatMap encodeByte ↔ as < bs := by
  induction as generalizing bs with
  | nil =>
    cases bs with
    | nil => simp
    | cons b bs => simp [encodeByte]
  | cons a as ih =>
    cases bs with
    | nil => simp
    | cons b bs =>
      rw [List.flatMap_cons, List.flatMap_cons, encodeByte_append_lt, ih, List.cons_lt_cons_iff]

theorem encode_lt_encode {as bs : Bytes} : encode as < encode bs ↔ as < bs := by
  rw [String.lt_iff, encode, encode, String.toList_ofList, String.toList_ofList]
  exact flatMap_encodeByte_lt

end NativeScripts.Hex

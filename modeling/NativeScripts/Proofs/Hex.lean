import NativeScripts.Hash
import NativeScripts.Proofs.Reading
import NativeScripts.Text

/-! Which texts spell bytes in hexadecimal digits. Characters that take up more than
one byte are no digits, and their first byte is none either. -/

namespace NativeScripts

namespace Hex

/-- Two digits of either case for each byte, the higher first. -/
inductive Spelled : List Char → Bytes → Prop where
  | nil : Spelled [] []
  | cons {c d : Char} {x y : Nat} {cs : List Char} {bs : Bytes} (hc : Text.hexValue? c = some x)
      (hd : Text.hexValue? d = some y) (h : Spelled cs bs) :
      Spelled (c :: d :: cs) (UInt8.ofNat (16 * x + y) :: bs)

theorem Spelled.length_eq {cs : List Char} {bs : Bytes} (h : Spelled cs bs) :
    cs.length = 2 * bs.length := by
  induction h with
  | nil => rfl
  | cons _ _ _ ih =>
    simp only [List.length_cons, ih]
    omega

theorem hexValue?_eq (c : Char) :
    Text.hexValue? c =
      if 0x30 ≤ c.toNat ∧ c.toNat ≤ 0x39 then some (c.toNat - 0x30)
      else if 0x41 ≤ c.toNat ∧ c.toNat ≤ 0x46 then some (c.toNat - 0x37)
      else if 0x61 ≤ c.toNat ∧ c.toNat ≤ 0x66 then some (c.toNat - 0x57)
      else none := by
  have hle (a b : Char) : a ≤ b ↔ a.toNat ≤ b.toNat := by
    rw [Char.le_def, UInt32.le_iff_toNat_le]
    rfl
  have hv : '0'.toNat = 0x30 ∧ '9'.toNat = 0x39 ∧ 'A'.toNat = 0x41 ∧ 'F'.toNat = 0x46 ∧
      'a'.toNat = 0x61 ∧ 'f'.toNat = 0x66 := by decide
  simp only [Text.hexValue?, hle, hv]
  grind

theorem utf8EncodeChar_ascii {c : Char} (h : c.toNat ≤ 127) :
    String.utf8EncodeChar c = [UInt8.ofNat c.toNat] := by
  have hv : c.val.toNat ≤ 127 := h
  rw [String.utf8EncodeChar, if_pos hv]
  rfl

theorem utf8EncodeChar_wide {c : Char} (h : 127 < c.toNat) :
    ∃ b tail, String.utf8EncodeChar c = b :: tail ∧ 128 ≤ b.toNat := by
  have hv : ¬c.val.toNat ≤ 127 := Nat.not_le.mpr h
  rw [String.utf8EncodeChar, if_neg hv]
  repeat' split
  all_goals
    refine ⟨_, _, rfl, ?_⟩
    rw [UInt8.toNat_ofNat']
    omega

/-- The first byte of a character is a digit if and only if the character is. -/
theorem utf8EncodeChar_digit (c : Char) :
    ∃ b tail, String.utf8EncodeChar c = b :: tail ∧ digit? b = Text.hexValue? c ∧
      ∀ x, Text.hexValue? c = some x → tail = [] := by
  rw [hexValue?_eq]
  by_cases h : c.toNat ≤ 127
  · have hb : (UInt8.ofNat c.toNat).toNat = c.toNat := by
      rw [UInt8.toNat_ofNat']
      omega
    exact ⟨_, [], utf8EncodeChar_ascii h, by simp only [digit?, hb], fun _ _ => rfl⟩
  · obtain ⟨b, tail, he, hb⟩ := utf8EncodeChar_wide (Nat.not_le.mp h)
    exact ⟨b, tail, he, by grind [digit?], by grind⟩

theorem decodePairs_cons_eq_ok {p : Nat} {b : UInt8} {rest bs : Bytes} :
    decodePairs p (b :: rest) = .ok bs ↔
      ∃ b' rest' x y bs', rest = b' :: rest' ∧ digit? b = some x ∧ digit? b' = some y ∧
        decodePairs (p + 2) rest' = .ok bs' ∧ bs = UInt8.ofNat (16 * x + y) :: bs' := by
  cases rest with
  | nil => simp [decodePairs]
  | cons b' rest' =>
    rw [decodePairs]
    constructor
    · intro h
      split at h
      · cases h
      · cases h
      · rename_i x y hx hy
        obtain ⟨bs', hbs', rfl⟩ := map_eq_ok.mp h
        exact ⟨b', rest', x, y, bs', rfl, hx, hy, hbs', rfl⟩
    · rintro ⟨_, _, x, y, bs', hrest, hx, hy, hbs', rfl⟩
      cases hrest
      rw [hx, hy]
      exact map_eq_ok.mpr ⟨bs', hbs', rfl⟩

theorem decodePairs_of_spelled {cs : List Char} {bs : Bytes} (h : Spelled cs bs) (p : Nat) :
    decodePairs p (cs.flatMap String.utf8EncodeChar) = .ok bs := by
  induction h generalizing p with
  | nil => rfl
  | @cons c d x y cs bs hc hd _ ih =>
    obtain ⟨b, tail, he, hb, htail⟩ := utf8EncodeChar_digit c
    obtain ⟨b', tail', he', hb', htail'⟩ := utf8EncodeChar_digit d
    rw [List.flatMap_cons, List.flatMap_cons, he, he', htail x hc, htail' y hd]
    exact decodePairs_cons_eq_ok.mpr
      ⟨b', _, x, y, bs, rfl, hb.trans hc, hb'.trans hd, ih (p + 2), rfl⟩

theorem spelled_of_decodePairs {p : Nat} {bs : Bytes} : {cs : List Char} →
    decodePairs p (cs.flatMap String.utf8EncodeChar) = .ok bs → Spelled cs bs
  | [], h => by
    cases h
    exact .nil
  | c :: cs, h => by
    obtain ⟨b, tail, he, hb, htail⟩ := utf8EncodeChar_digit c
    rw [List.flatMap_cons, he, List.cons_append] at h
    obtain ⟨b', rest', x, y, bs', hrest, hx, hy, hbs', rfl⟩ := decodePairs_cons_eq_ok.mp h
    rw [htail x (hb.symm.trans hx), List.nil_append] at hrest
    cases cs with
    | nil => cases hrest
    | cons d cs =>
      obtain ⟨b'', tail', he', hb', htail'⟩ := utf8EncodeChar_digit d
      rw [List.flatMap_cons, he', List.cons_append, List.cons.injEq] at hrest
      obtain ⟨rfl, rfl⟩ := hrest
      have hd := hb'.symm.trans hy
      rw [htail' y hd, List.nil_append] at hbs'
      exact .cons (hb.symm.trans hx) hd (spelled_of_decodePairs hbs')

theorem length_of_decodePairs {p : Nat} {digits bs : Bytes} (h : decodePairs p digits = .ok bs) :
    digits.length = 2 * bs.length := by
  induction bs generalizing p digits with
  | nil =>
    cases digits with
    | nil => rfl
    | cons b rest =>
      obtain ⟨_, _, _, _, _, _, _, _, _, hbs⟩ := decodePairs_cons_eq_ok.mp h
      cases hbs
  | cons byte bs ih =>
    cases digits with
    | nil => cases h
    | cons b rest =>
      obtain ⟨b', rest', x, y, bs', rfl, -, -, hbs', hbs⟩ := decodePairs_cons_eq_ok.mp h
      cases hbs
      simp only [List.length_cons, ih hbs']
      omega

theorem decode_eq_ok {s : String} {bs : Bytes} : decode s = .ok bs ↔ Spelled s.toList bs := by
  have hpairs : decode s = .ok bs ↔ decodePairs 0 (Bytes.ofText s) = .ok bs := by
    rw [decode]
    split
    · rename_i hodd
      simp only [reduceCtorEq, false_iff]
      intro h
      have hl := length_of_decodePairs h
      omega
    · rfl
  rw [hpairs]
  exact ⟨spelled_of_decodePairs, fun h => decodePairs_of_spelled h 0⟩

theorem hexValue?_digit {n : Nat} (h : n < 16) : Text.hexValue? (digit n) = some n := by
  have hall : ∀ n < 16, Text.hexValue? (digit n) = some n := by decide
  exact hall n h

theorem spelled_encode (bs : Bytes) : Spelled (encode bs).toList bs := by
  rw [encode, String.toList_ofList]
  induction bs with
  | nil => exact .nil
  | cons b bs ih =>
    have hb := b.toNat_lt
    have hbyte : UInt8.ofNat (16 * (b.toNat / 16) + b.toNat % 16) = b := by
      rw [Nat.div_add_mod]
      exact UInt8.ofNat_toNat
    have hs := Spelled.cons (hexValue?_digit (n := b.toNat / 16) (by omega))
      (hexValue?_digit (n := b.toNat % 16) (by omega)) ih
    rwa [hbyte] at hs

/-- A hexadecimal digit of either case. -/
def IsDigit (c : Char) : Prop :=
  ('0' ≤ c ∧ c ≤ '9') ∨ ('a' ≤ c ∧ c ≤ 'f') ∨ ('A' ≤ c ∧ c ≤ 'F')

instance (c : Char) : Decidable (IsDigit c) :=
  inferInstanceAs (Decidable (_ ∨ _ ∨ _))

theorem isDigit_iff {c : Char} : IsDigit c ↔ ∃ x, Text.hexValue? c = some x := by
  rw [IsDigit, Text.hexValue?]
  repeat' split
  all_goals simp_all

theorem exists_spelled_iff :
    {cs : List Char} → (∃ bs, Spelled cs bs) ↔ cs.length % 2 = 0 ∧ ∀ c ∈ cs, IsDigit c
  | [] => ⟨fun _ => ⟨rfl, List.forall_mem_nil _⟩, fun _ => ⟨[], .nil⟩⟩
  | [c] => by
    constructor
    · intro h
      obtain ⟨_, h⟩ := h
      cases h
    · intro h
      simp at h
  | c :: d :: cs => by
    have hlength : (c :: d :: cs).length % 2 = cs.length % 2 := by
      simp only [List.length_cons]
      omega
    rw [hlength, List.forall_mem_cons, List.forall_mem_cons, isDigit_iff, isDigit_iff]
    constructor
    · intro h
      obtain ⟨_, h⟩ := h
      cases h with
      | cons hc hd h =>
        obtain ⟨heven, hall⟩ := exists_spelled_iff.mp ⟨_, h⟩
        exact ⟨heven, ⟨_, hc⟩, ⟨_, hd⟩, hall⟩
    · intro h
      obtain ⟨heven, ⟨x, hc⟩, ⟨y, hd⟩, hall⟩ := h
      obtain ⟨bs, h⟩ := exists_spelled_iff.mpr ⟨heven, hall⟩
      exact ⟨_, .cons hc hd h⟩

theorem toNat_toLower (c : Char) :
    c.toLower.toNat = if 0x41 ≤ c.toNat ∧ c.toNat ≤ 0x5a then c.toNat + 0x20 else c.toNat := by
  have hc : c.toNat = c.val.toNat := rfl
  have hupper : (c.val ≥ 'A'.val ∧ c.val ≤ 'Z'.val) ↔ 0x41 ≤ c.toNat ∧ c.toNat ≤ 0x5a := by
    rw [ge_iff_le, UInt32.le_iff_toNat_le, UInt32.le_iff_toNat_le]
    rfl
  delta Char.toLower
  split
  · rename_i h
    rw [if_pos (hupper.mp h)]
    change (c.val + ('a'.val - 'A'.val)).toNat = c.toNat + 0x20
    have hle := (hupper.mp h).2
    rw [UInt32.toNat_add, hc] at *
    change (c.val.toNat + 0x20) % 2 ^ 32 = _
    omega
  · rename_i h
    rw [if_neg fun hn => h (hupper.mpr hn)]

/-- Letters count for the same in either case. -/
theorem hexValue?_toLower (c : Char) : Text.hexValue? c.toLower = Text.hexValue? c := by
  rw [hexValue?_eq, hexValue?_eq, toNat_toLower]
  grind

theorem spelled_toLower_iff {bs : Bytes} :
    {cs : List Char} → Spelled (cs.map Char.toLower) bs ↔ Spelled cs bs
  | [] => Iff.rfl
  | [c] => by
    constructor <;>
    · intro h
      cases h
  | c :: d :: cs => by
    constructor
    · intro h
      cases h with
      | cons hc hd h =>
        rw [hexValue?_toLower] at hc hd
        exact .cons hc hd (spelled_toLower_iff.mp h)
    · intro h
      cases h with
      | cons hc hd h =>
        rw [← hexValue?_toLower] at hc hd
        exact .cons hc hd (spelled_toLower_iff.mpr h)

end Hex

namespace Hash

variable {kind : HashKind}

theorem ofBytes_eq_ok {bs : Bytes} {h : Hash kind} : ofBytes bs = .ok h ↔ bs = h.bytes := by
  rw [← ofBytes?_eq_some, ofBytes]
  cases (ofBytes? bs : Option (Hash kind)) <;> simp

theorem ofHex_eq_ok {s : String} {h : Hash kind} :
    ofHex s = .ok h ↔ Hex.Spelled s.toList h.bytes := by
  rw [← Hex.decode_eq_ok, ofHex]
  cases Hex.decode s with
  | error fault => simp
  | ok bs => simp [ofBytes_eq_ok]

theorem exists_ofHex_iff {s : String} :
    (∃ h : Hash kind, ofHex s = .ok h) ↔ s.length = 56 ∧ ∀ c ∈ s.toList, Hex.IsDigit c := by
  simp only [ofHex_eq_ok]
  constructor
  · intro h
    obtain ⟨h, hs⟩ := h
    have hlength := hs.length_eq
    rw [h.length_eq, String.length_toList] at hlength
    exact ⟨hlength, (Hex.exists_spelled_iff.mp ⟨_, hs⟩).2⟩
  · intro h
    obtain ⟨hlength, hall⟩ := h
    rw [← String.length_toList] at hlength
    have heven : s.toList.length % 2 = 0 := by rw [hlength]
    obtain ⟨bs, hs⟩ := Hex.exists_spelled_iff.mpr ⟨heven, hall⟩
    have hbytes := hs.length_eq
    have hl : bs.length = hashLength := by
      rw [hashLength]
      omega
    exact ⟨⟨bs, hl⟩, hs⟩

theorem ofHex_toHex (h : Hash kind) : ofHex h.toHex = .ok h :=
  ofHex_eq_ok.mpr (Hex.spelled_encode h.bytes)

end Hash

end NativeScripts

import NativeScripts.Proofs.Hex

/-! Why a text spells no bytes. Where its UTF-8 bytes are odd in number, that is the fault,
and otherwise it is the first of them that is no digit. -/

namespace NativeScripts.Hex

/-- A byte that is a digit when it is taken for a character. -/
def IsDigitByte (b : UInt8) : Prop :=
  IsDigit (Char.ofNat b.toNat)

instance (b : UInt8) : Decidable (IsDigitByte b) :=
  inferInstanceAs (Decidable (IsDigit _))

theorem toNat_ofNat_byte (b : UInt8) : (Char.ofNat b.toNat).toNat = b.toNat := by
  have hb := b.toNat_lt
  have hvalid : b.toNat.isValidChar := .inl (by omega)
  rw [Char.ofNat, dif_pos hvalid]
  rfl

theorem isDigitByte_iff {b : UInt8} : IsDigitByte b ↔ ∃ x, digit? b = some x := by
  rw [IsDigitByte, isDigit_iff, hexValue?_eq, toNat_ofNat_byte]
  rfl

theorem not_isDigitByte_iff {b : UInt8} : ¬IsDigitByte b ↔ digit? b = none := by
  rw [isDigitByte_iff]
  cases digit? b <;> simp

/-- The fault names the first byte that is no digit and its position, the bytes being
numbered from `p`. -/
inductive FirstBad (p : Nat) (digits : Bytes) : Fault → Prop where
  | mk {before after : Bytes} {byte : UInt8} (split : digits = before ++ byte :: after)
      (good : ∀ b ∈ before, IsDigitByte b) (bad : ¬IsDigitByte byte) :
      FirstBad p digits (.badDigit byte (p + before.length))

section FirstBad

variable {p : Nat} {b : UInt8} {rest : Bytes} {fault : Fault}

theorem not_firstBad_nil : ¬FirstBad p [] fault := by
  intro h
  cases h with
  | mk split => simp at split

theorem firstBad_cons_of_bad (hb : ¬IsDigitByte b) :
    FirstBad p (b :: rest) fault ↔ fault = .badDigit b p := by
  constructor
  · intro h
    cases h with
    | @mk before _ _ split good =>
      cases before with
      | nil =>
        cases split
        rfl
      | cons c before =>
        cases split
        exact absurd (good b List.mem_cons_self) hb
  · rintro rfl
    exact @FirstBad.mk p _ [] rest b rfl (List.forall_mem_nil _) hb

theorem firstBad_cons_of_good (hb : IsDigitByte b) :
    FirstBad p (b :: rest) fault ↔ FirstBad (p + 1) rest fault := by
  have hposition (before : Bytes) : p + (b :: before).length = p + 1 + before.length := by
    simp only [List.length_cons]
    omega
  constructor
  · intro h
    cases h with
    | @mk before _ _ split good bad =>
      cases before with
      | nil =>
        cases split
        exact absurd hb bad
      | cons c before =>
        cases split
        rw [hposition]
        exact .mk rfl (List.forall_mem_cons.mp good).2 bad
  · intro h
    cases h with
    | mk split good bad =>
      rw [← hposition]
      exact .mk (congrArg (b :: ·) split) (List.forall_mem_cons.mpr ⟨hb, good⟩) bad

end FirstBad

theorem decodePairs_eq_error {p : Nat} {fault : Fault} : {digits : Bytes} →
    digits.length % 2 = 0 → (decodePairs p digits = .error fault ↔ FirstBad p digits fault)
  | [], _ => by
    simp [decodePairs, not_firstBad_nil]
  | a :: b :: rest, heven => by
    have hrest : rest.length % 2 = 0 := by
      simp only [List.length_cons] at heven
      omega
    rw [decodePairs]
    cases ha : digit? a with
    | none =>
      rw [firstBad_cons_of_bad (not_isDigitByte_iff.mpr ha)]
      simp [eq_comm]
    | some x =>
      rw [firstBad_cons_of_good (isDigitByte_iff.mpr ⟨x, ha⟩)]
      cases hb : digit? b with
      | none =>
        rw [firstBad_cons_of_bad (not_isDigitByte_iff.mpr hb)]
        simp [eq_comm]
      | some y =>
        rw [firstBad_cons_of_good (isDigitByte_iff.mpr ⟨y, hb⟩), map_eq_error]
        exact decodePairs_eq_error hrest

/-- An odd number of bytes comes before any byte that is no digit. -/
inductive Refused (digits : Bytes) : Fault → Prop where
  | odd (h : digits.length % 2 = 1) : Refused digits .oddLength
  | digit {fault : Fault} (even : digits.length % 2 = 0) (h : FirstBad 0 digits fault) :
      Refused digits fault

theorem decode_eq_error {s : String} {fault : Fault} :
    decode s = .error fault ↔ Refused (Bytes.ofText s) fault := by
  rw [decode]
  by_cases hodd : (Bytes.ofText s).length % 2 = 1
  · rw [if_pos hodd, Except.error.injEq]
    constructor
    · rintro rfl
      exact .odd hodd
    · intro h
      cases h with
      | odd => rfl
      | digit even => omega
  · have heven : (Bytes.ofText s).length % 2 = 0 := by omega
    rw [if_neg hodd, decodePairs_eq_error heven]
    constructor
    · exact .digit heven
    · intro h
      cases h with
      | odd h => exact absurd h hodd
      | digit _ h => exact h

end NativeScripts.Hex

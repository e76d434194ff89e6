import NativeScripts.Proofs.Hex.LowerCase
import NativeScripts.Proofs.Hex.Refusal

/-! Hashes as texts. Fifty-six digits are a hash, in either case, and each hash has one text in
lower case. The texts in lower case stand in the order of the hashes. -/

namespace NativeScripts

namespace Hash

variable {kind : HashKind}

theorem ofHex_eq_ok_iff_toLower {s : String} {h : Hash kind} :
    ofHex s = .ok h ↔ s.toLower = h.toHex := by
  rw [ofHex_eq_ok, Hex.spelled_iff_toLower]
  rfl

theorem toHex_lt_toHex {a b : Hash kind} : a.toHex < b.toHex ↔ a < b :=
  Hex.encode_lt_encode

/-- Why a text is no hash: it spells no bytes, or it spells too many or too few. -/
inductive RefusedText (kind : HashKind) (s : String) : HashFault → Prop where
  | notHex {fault : Hex.Fault} (h : Hex.Refused (Bytes.ofText s) fault) :
      RefusedText kind s (.notHex kind s fault)
  | wrongLength {bs : Bytes} (h : Hex.Spelled s.toList bs) (hl : bs.length ≠ hashLength) :
      RefusedText kind s (.wrongLength kind bs.length)

theorem ofBytes_eq_error {bs : Bytes} {fault : HashFault} :
    (ofBytes bs : Except HashFault (Hash kind)) = .error fault ↔
      bs.length ≠ hashLength ∧ fault = .wrongLength kind bs.length := by
  by_cases hl : bs.length = hashLength
  · simp [ofBytes, ofBytes?, hl]
  · simp [ofBytes, ofBytes?, hl, eq_comm]

theorem ofHex_eq_error {s : String} {fault : HashFault} :
    (ofHex s : Except HashFault (Hash kind)) = .error fault ↔ RefusedText kind s fault := by
  rw [ofHex]
  cases hd : Hex.decode s with
  | error cause =>
    have hcause := Hex.decode_eq_error.mp hd
    constructor
    · intro h
      cases h
      exact .notHex hcause
    · intro h
      cases h with
      | notHex h =>
        have hsame := Hex.decode_eq_error.mpr h
        rw [hd, Except.error.injEq] at hsame
        rw [hsame]
      | wrongLength h =>
        rw [Hex.decode_eq_ok.mpr h] at hd
        cases hd
  | ok bs =>
    have hspelled := Hex.decode_eq_ok.mp hd
    rw [ofBytes_eq_error]
    constructor
    · rintro ⟨hl, rfl⟩
      exact .wrongLength hspelled hl
    · intro h
      cases h with
      | notHex h =>
        rw [Hex.decode_eq_error.mpr h] at hd
        cases hd
      | wrongLength h hl =>
        have hsame := Hex.decode_eq_ok.mpr h
        rw [hd, Except.ok.injEq] at hsame
        subst hsame
        exact ⟨hl, rfl⟩

end Hash

/-- Hashes and their texts are two forms of one thing, with one order, and every other text is
refused for the first of its faults. -/
theorem hashes_correspond_to_texts (kind : HashKind) :
    (∀ s : String, (∃ h : Hash kind, Hash.ofHex s = .ok h) ↔
      s.length = 56 ∧ ∀ c ∈ s.toList, Hex.IsDigit c) ∧
    (∀ (s : String) (h : Hash kind), Hash.ofHex s = .ok h ↔ s.toLower = h.toHex) ∧
    (∀ h : Hash kind, Hash.ofHex h.toHex = .ok h) ∧
    (∀ a b : Hash kind, a < b ↔ a.toHex < b.toHex) ∧
    ∀ (s : String) (fault : HashFault),
      (Hash.ofHex s : Except HashFault (Hash kind)) = .error fault ↔
        Hash.RefusedText kind s fault := by
  refine ⟨fun _ => Hash.exists_ofHex_iff, fun _ _ => Hash.ofHex_eq_ok_iff_toLower,
    Hash.ofHex_toHex, fun _ _ => Hash.toHex_lt_toHex.symm, fun _ _ => Hash.ofHex_eq_error⟩

example : (Hash.ofHex "x" : Except HashFault KeyHash) = .error (.notHex .key "x" .oddLength) :=
  rfl

example : (Hash.ofHex "0aé" : Except HashFault ScriptHash) =
    .error (.notHex .script "0aé" (.badDigit 0xc3 2)) :=
  rfl

end NativeScripts

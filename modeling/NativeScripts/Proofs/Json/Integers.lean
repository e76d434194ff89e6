import NativeScripts.Json.Printer
import NativeScripts.Proofs.Json.Literal

/-! Integers in JSON text. What is written for one is a literal, and those of sixty-four
bits are read back from it. -/

namespace NativeScripts.Json

theorem isDigit_toDigits (n : Nat) : ∀ c ∈ Nat.toDigits 10 n, c.isDigit = true :=
  fun _ hc => Nat.isDigit_of_mem_toDigits (by decide) (by decide) hc

theorem toDigits_eq_cons (n : Nat) :
    ∃ d ds, Nat.toDigits 10 n = d :: ds ∧ d.isDigit = true := by
  cases hds : Nat.toDigits 10 n with
  | nil => exact absurd hds Nat.toDigits_ne_nil
  | cons d ds => exact ⟨d, ds, rfl, isDigit_toDigits n d (hds ▸ List.mem_cons_self)⟩

theorem head?_toDigits {n : Nat} (hn : n ≠ 0) : (Nat.toDigits 10 n).head? ≠ some '0' := by
  induction n using Nat.strongRecOn with
  | ind n ih =>
    by_cases hlt : n < 10
    · have hdigit : ∀ n < 10, n ≠ 0 → (Nat.digitChar n) ≠ '0' := by decide
      rw [Nat.toDigits_of_lt_base hlt]
      simpa using hdigit n hlt hn
    · have hle := Nat.not_lt.mp hlt
      rw [Nat.toDigits_of_base_le (by decide) hle, List.head?_append]
      have hhead := ih (n / 10) (by omega) (by omega)
      obtain ⟨d, ds, hds, -⟩ := toDigits_eq_cons (n / 10)
      simpa [hds] using hhead

theorem toDigits_zero_alone (n : Nat) (h : (Nat.toDigits 10 n).head? = some '0') :
    Nat.toDigits 10 n = ['0'] := by
  by_cases hn : n = 0
  · rw [hn, Nat.toDigits_zero]
  · exact absurd h (head?_toDigits hn)

def Literal.ofInt (n : Int) : Literal where
  negative := decide (n < 0)
  whole := ⟨Nat.toDigits 10 n.natAbs, Nat.toDigits_ne_nil, isDigit_toDigits n.natAbs⟩
  zero_alone := toDigits_zero_alone n.natAbs
  fraction := none
  exponent := none

theorem Literal.text_ofInt (n : Int) : (ofInt n).text = integerText n := by
  rw [integerText]
  by_cases hneg : n < 0 <;> simp [text, ofInt, signText, fractionText, exponentText, hneg]

theorem Literal.value_ofInt (n : Int) : (ofInt n).value = n.natAbs :=
  Nat.ofDigitChars_ten_toDigits

/-- Sixty-four bits, with a sign or without one. -/
def InRange (n : Int) : Prop :=
  -0x8000000000000000 ≤ n ∧ n < UInt64.size

theorem Literal.toJson?_ofInt {n : Int} (hn : InRange n) :
    (ofInt n).numeral.toJson? = some (.integer n) := by
  have hvalue : Numeral.valueOf (digitValues (Nat.toDigits 10 n.natAbs)) = n.natAbs := by
    rw [valueOf_digitValues, Nat.ofDigitChars_ten_toDigits]
  obtain ⟨hlow, hhigh⟩ := hn
  by_cases hneg : n < 0
  · have hbound : 0 < n.natAbs ∧ n.natAbs ≤ 0x8000000000000000 := by omega
    have habs : -(n.natAbs : Int) = n := by omega
    simp only [numeral, ofInt, Numeral.toJson?, Option.map_none, hvalue, decide_eq_true hneg,
      if_true, if_pos hbound, habs]
  · have hbound : n.natAbs < UInt64.size := by omega
    have habs : (n.natAbs : Int) = n := by omega
    simp only [numeral, ofInt, Numeral.toJson?, Option.map_none, hvalue, decide_eq_false hneg,
      Bool.false_eq_true, if_false, if_pos hbound, habs]

end NativeScripts.Json

import NativeScripts.Json.Printer
import NativeScripts.Json.Reader

/-! Texts between quotation marks. Each character has one escaped form, of which the
reader makes the character again. -/

namespace NativeScripts.Json

theorem hexValue?_digitChar {n : Nat} (h : n < 16) : Text.hexValue? (Nat.digitChar n) = some n := by
  have hall : ∀ n < 16, Text.hexValue? (Nat.digitChar n) = some n := by decide
  exact hall n h

theorem readText_escapeControl {c : Char} (h : c.toNat < 0x20) (cs : List Char) :
    readText (escapeControl c ++ cs) = (readText cs).map fun r => (c :: r.1, r.2) := by
  have hunit : codeUnit? '0' '0' (Nat.digitChar (c.toNat / 16)) (Nat.digitChar (c.toNat % 16)) =
      some c.toNat := by
    have hz : Text.hexValue? '0' = some 0 := by decide
    rw [codeUnit?, hz, hexValue?_digitChar (by omega), hexValue?_digitChar (by omega)]
    simp only [Option.some.injEq]
    omega
  have hhigh : isHighSurrogate c.toNat = false := by
    simp [isHighSurrogate]
    omega
  have hlow : isLowSurrogate c.toNat = false := by
    simp [isLowSurrogate]
    omega
  simp only [escapeControl, List.cons_append, List.nil_append]
  rw [readText, hunit]
  simp [hhigh, hlow, Char.ofNat_toNat]

theorem readText_letter {l c : Char} (hl : l ≠ 'u') (h : escaped? l = some c) (cs : List Char) :
    readText ('\\' :: l :: cs) = (readText cs).map fun r => (c :: r.1, r.2) := by
  rw [readText.eq_def]
  simp [hl, h]

theorem readText_plain {c : Char} (hlow : 0x20 ≤ c.toNat) (hq : c ≠ '"') (hb : c ≠ '\\')
    (cs : List Char) : readText (c :: cs) = (readText cs).map fun r => (c :: r.1, r.2) := by
  have hc : ¬c.toNat < 0x20 := Nat.not_lt.mpr hlow
  rw [readText.eq_def]
  simp [hb, hc]

/-- A letter after a backslash, four digits, or the character itself. -/
theorem escape_cases (c : Char) :
    (∃ l, escape c = ['\\', l] ∧ l ≠ 'u' ∧ escaped? l = some c) ∨
    (escape c = escapeControl c ∧ c.toNat < 0x20) ∨
    (escape c = [c] ∧ 0x20 ≤ c.toNat ∧ c ≠ '"' ∧ c ≠ '\\') := by
  by_cases hc : c ∈ ['"', '\\', '\x08', '\x0c', '\n', '\r', '\t']
  · simp only [List.mem_cons, List.not_mem_nil, or_false] at hc
    rcases hc with rfl | rfl | rfl | rfl | rfl | rfl | rfl <;>
      exact .inl ⟨_, rfl, by decide, rfl⟩
  · simp only [List.mem_cons, List.not_mem_nil, or_false, not_or] at hc
    have hescape : escape c = if c.toNat < 0x20 then escapeControl c else [c] := by
      simp [escape, hc]
    by_cases hlow : c.toNat < 0x20
    · rw [if_pos hlow] at hescape
      exact .inr (.inl ⟨hescape, hlow⟩)
    · rw [if_neg hlow] at hescape
      exact .inr (.inr ⟨hescape, Nat.not_lt.mp hlow, hc.1, hc.2.1⟩)

theorem readText_escape (c : Char) (cs : List Char) :
    readText (escape c ++ cs) = (readText cs).map fun r => (c :: r.1, r.2) := by
  rcases escape_cases c with ⟨l, he, hl, h⟩ | ⟨he, h⟩ | ⟨he, hlow, hq, hb⟩ <;> rw [he]
  · exact readText_letter hl h cs
  · exact readText_escapeControl h cs
  · exact readText_plain hlow hq hb cs

theorem readText_quoted (s : List Char) (rest : List Char) :
    readText (s.flatMap escape ++ '"' :: rest) = some (s, rest) := by
  induction s with
  | nil => simp [readText]
  | cons c s ih =>
    rw [List.flatMap_cons, List.append_assoc, readText_escape, ih]
    rfl

end NativeScripts.Json

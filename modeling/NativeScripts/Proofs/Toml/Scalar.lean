import Mathlib.Data.List.Basic
import NativeScripts.Proofs.Hex
import NativeScripts.Proofs.Json.Integers
import NativeScripts.Toml.Reader

/-! Values on one line: a text without escapes and a natural number. A number at the end of
its line is taken neither for a date nor for a number with a fraction. -/

namespace NativeScripts.Toml

/-- What is left of a text after a line, which ends with the text or before a line feed. -/
inductive LineEnd : List Char → List Char → Prop where
  | last : LineEnd [] []
  | feed (after : List Char) : LineEnd ('\n' :: after) after

variable {rest after : List Char}

theorem LineEnd.dropLine?_eq (h : LineEnd rest after) : dropLine? rest = some after := by
  cases h <;> rfl

theorem LineEnd.head_eq (h : LineEnd rest after) : ∀ c ∈ rest.head?, c = '\n' := by
  cases h <;> simp

section Texts

/-- Characters that stand for themselves between quotation marks. -/
def Unescaped (t : List Char) : Prop :=
  ∀ c ∈ t, isPlain c = true ∧ c ≠ '"' ∧ c ≠ '\\'

theorem readBasic_cons {c : Char} (hp : isPlain c = true) (hq : c ≠ '"') (hb : c ≠ '\\')
    (cs : List Char) : readBasic (c :: cs) = (readBasic cs).after (some c) := by
  rw [readBasic.eq_def]
  simp [hp, hb]

theorem readBasic_append {t : List Char} (h : Unescaped t) (rest : List Char) :
    readBasic (t ++ '"' :: rest) = some (t, rest) := by
  induction t with
  | nil => simp [readBasic]
  | cons c t ih =>
    obtain ⟨⟨hp, hq, hb⟩, ht⟩ := List.forall_mem_cons.mp h
    rw [List.cons_append, readBasic_cons hp hq hb, ih ht]
    rfl

/-- Two marks in a row would begin a text over several lines. -/
theorem readString?_append {t : List Char} (hne : t ≠ []) (h : Unescaped t) (rest : List Char) :
    readString? ('"' :: (t ++ '"' :: rest)) = some (t, rest) := by
  cases t with
  | nil => exact absurd rfl hne
  | cons c t =>
    have hq := (h c List.mem_cons_self).2.1
    rw [readString?, readBasic_append h]
    intro cs he
    exact hq (List.cons.inj he).1

theorem readValue_text {t : List Char} (hne : t ≠ []) (h : Unescaped t) (depth : Nat)
    (rest : List Char) :
    readValue depth ('"' :: (t ++ '"' :: rest)) = some (.text (String.ofList t), rest) := by
  rw [readValue, readScalar?, readString?_append hne h]
  all_goals simp

end Texts

section Numbers

variable {ds : List Char}

theorem readField?_digits {width n : Nat} {cs : List Char} (hds : ∀ d ∈ ds, d.isDigit = true)
    (hend : ∀ c ∈ rest.head?, c = '\n') (h : readField? width (ds ++ rest) = some (n, cs)) :
    ∃ ds', (∀ d ∈ ds', d.isDigit = true) ∧ cs = ds' ++ rest := by
  induction width generalizing ds n with
  | zero =>
    cases h
    exact ⟨ds, hds, rfl⟩
  | succ width ih =>
    cases ds with
    | nil =>
      cases rest with
      | nil => cases h
      | cons c rest =>
        cases hend c rfl
        cases h
    | cons d ds =>
      obtain ⟨hd, hds⟩ := List.forall_mem_cons.mp hds
      rw [List.cons_append, readField?, if_pos hd, Option.map_eq_some_iff] at h
      obtain ⟨⟨n', cs'⟩, hfield, he⟩ := h
      cases he
      exact ih hds hfield

/-- A field is followed by more digits or by the end of the line, but not by a mark. -/
theorem drop?_digits {c : Char} (hds : ∀ d ∈ ds, d.isDigit = true)
    (hend : ∀ c ∈ rest.head?, c = '\n') (hdigit : c.isDigit = false) (hline : c ≠ '\n') :
    drop? c (ds ++ rest) = none := by
  cases ds with
  | nil =>
    cases rest with
    | nil => rfl
    | cons c' rest =>
      cases hend c' rfl
      simp [drop?, hline.symm]
  | cons d ds =>
    have hd := hds d List.mem_cons_self
    have hne : d ≠ c := by
      rintro rfl
      rw [hd] at hdigit
      cases hdigit
    simp [drop?, hne]

theorem readMoment?_digits (hds : ∀ d ∈ ds, d.isDigit = true)
    (hend : ∀ c ∈ rest.head?, c = '\n') : readMoment? (ds ++ rest) = none := by
  have hdate : dropDate? (ds ++ rest) = none := by
    rw [dropDate?]
    cases h : readField? 4 (ds ++ rest) with
    | none => rfl
    | some read =>
      obtain ⟨ds', hds', he⟩ := readField?_digits hds hend h
      have hmark : drop? '-' read.2 = none := by
        rw [he]
        exact drop?_digits hds' hend rfl (by decide)
      simp [hmark]
  have htime : dropTime? (ds ++ rest) = none := by
    rw [dropTime?, readWithin?]
    cases h : readField? 2 (ds ++ rest) with
    | none => rfl
    | some read =>
      obtain ⟨ds', hds', he⟩ := readField?_digits hds hend h
      have hmark : drop? ':' read.2 = none := by
        rw [he]
        exact drop?_digits hds' hend rfl (by decide)
      simp only
      split <;> simp [hmark]
  rw [readMoment?, dropMoment?, hdate, htime]
  rfl

theorem takeDigits_append (hds : ∀ d ∈ ds, d.isDigit = true) (hend : ∀ c ∈ rest.head?, c = '\n') :
    takeDigits Char.isDigit (ds ++ rest) = (ds, rest) := by
  induction ds with
  | nil =>
    cases rest with
    | nil => rfl
    | cons c rest =>
      cases hend c rfl
      rfl
  | cons d ds ih =>
    obtain ⟨hd, hds⟩ := List.forall_mem_cons.mp hds
    have hscore : d ≠ '_' := by
      rintro rfl
      cases hd
    rw [List.cons_append, takeDigits]
    · simp [hd, ih hds]
    · intro d' cs he
      exact absurd he hscore

theorem hexValue?_of_isDigit {d : Char} (h : d.isDigit = true) :
    Text.hexValue? d = some (d.toNat - '0'.toNat) := by
  have hrange : 0x30 ≤ d.toNat ∧ d.toNat ≤ 0x39 := by
    simpa [Char.isDigit, UInt32.le_iff_toNat_le] using h
  rw [Hex.hexValue?_eq, if_pos hrange]
  rfl

theorem valueOf_digits (hds : ∀ d ∈ ds, d.isDigit = true) :
    valueOf 10 ds = Nat.ofDigitChars 10 ds 0 := by
  rw [valueOf, Nat.ofDigitChars_eq_foldl]
  apply List.foldl_ext
  intro n d hd
  rw [hexValue?_of_isDigit (hds d hd), Option.getD_some, Nat.mul_comm]

theorem head_toDigits {n : Nat} {cs : List Char} (h : Nat.toDigits 10 n = '0' :: cs) : cs = [] := by
  by_cases hn : n = 0
  · rw [hn, Nat.toDigits_zero] at h
    exact (List.cons.inj h).2.symm
  · exact absurd (congrArg List.head? h) (Json.head?_toDigits hn)

/-- No other digit follows a leading zero. -/
theorem readWhole?_toDigits (n : Nat) (hend : ∀ c ∈ rest.head?, c = '\n') :
    readWhole? (Nat.toDigits 10 n ++ rest) = some (Nat.toDigits 10 n, rest) := by
  have hall := Json.isDigit_toDigits n
  cases hds : Nat.toDigits 10 n with
  | nil => exact absurd hds Nat.toDigits_ne_nil
  | cons d ds =>
    rw [hds] at hall
    obtain ⟨hd, hrest⟩ := List.forall_mem_cons.mp hall
    by_cases hzero : d = '0'
    · subst hzero
      rw [head_toDigits hds]
      rfl
    · rw [List.cons_append, readWhole?, readDigits?, if_pos hd, takeDigits_append hrest hend]
      intro cs he
      exact hzero (List.cons.inj he).1

theorem readFraction?_end (hend : ∀ c ∈ rest.head?, c = '\n') : readFraction? rest = none := by
  cases rest with
  | nil => rfl
  | cons c rest =>
    cases hend c rfl
    rfl

theorem readExponent?_end (hend : ∀ c ∈ rest.head?, c = '\n') : readExponent? rest = none := by
  cases rest with
  | nil => rfl
  | cons c rest =>
    cases hend c rfl
    rfl

theorem readUnsigned?_toDigits {n : Nat} (hn : n < 0x8000000000000000)
    (hend : ∀ c ∈ rest.head?, c = '\n') :
    readUnsigned? false (Nat.toDigits 10 n ++ rest) = some (.integer n, rest) := by
  have hvalue : valueOf 10 (Nat.toDigits 10 n) = n := by
    rw [valueOf_digits (Json.isDigit_toDigits n), Nat.ofDigitChars_ten_toDigits]
  have hfits : fits (n : Int) = true := by
    simp only [fits, Bool.and_eq_true, decide_eq_true_eq]
    omega
  simp [readUnsigned?, readWhole?_toDigits n hend, readFraction?_end hend, readExponent?_end hend,
    hvalue, integer?, hfits]

theorem cons_ne_mark {d c : Char} {cs cs' : List Char} (hd : d.isDigit = true)
    (hc : c.isDigit = false) : d :: cs ≠ c :: cs' := by
  intro he
  rw [(List.cons.inj he).1, hc] at hd
  cases hd

theorem readNumber?_toDigits {n : Nat} (hn : n < 0x8000000000000000)
    (hend : ∀ c ∈ rest.head?, c = '\n') :
    readNumber? (Nat.toDigits 10 n ++ rest) = some (.integer n, rest) := by
  have hread := readUnsigned?_toDigits hn hend
  obtain ⟨d, ds, hds, hd⟩ := Json.toDigits_eq_cons n
  have hradix {c : Char} {cs : List Char} (hline : c ≠ '\n') :
      d :: (ds ++ rest) ≠ '0' :: c :: cs := by
    intro he
    obtain ⟨rfl, hrest⟩ := List.cons.inj he
    rw [head_toDigits hds, List.nil_append] at hrest
    subst hrest
    exact hline (hend c rfl)
  rw [hds, List.cons_append] at hread ⊢
  rw [readNumber?, readSpecial?, hread]
  · exact fun _ => cons_ne_mark hd rfl
  · exact fun _ => cons_ne_mark hd rfl
  · exact fun _ => cons_ne_mark hd rfl
  · exact fun _ => cons_ne_mark hd rfl
  · exact fun _ => hradix (by decide)
  · exact fun _ => hradix (by decide)
  · exact fun _ => hradix (by decide)

theorem readValue_toDigits {n : Nat} (hn : n < 0x8000000000000000)
    (hend : ∀ c ∈ rest.head?, c = '\n') (depth : Nat) :
    readValue depth (Nat.toDigits 10 n ++ rest) = some (.integer n, rest) := by
  have hread := readNumber?_toDigits hn hend
  have hmoment := readMoment?_digits (Json.isDigit_toDigits n) hend
  obtain ⟨d, ds, hds, hd⟩ := Json.toDigits_eq_cons n
  rw [hds, List.cons_append] at hread hmoment ⊢
  have hstring : readString? (d :: (ds ++ rest)) = none := by
    rw [readString?]
    · exact fun _ => cons_ne_mark hd rfl
    · exact fun _ => cons_ne_mark hd rfl
    · exact fun _ => cons_ne_mark hd rfl
    · exact fun _ => cons_ne_mark hd rfl
  have hscalar : readScalar? (d :: (ds ++ rest)) = some (.integer n, rest) := by
    rw [readScalar?]
    · simp only [hstring, hmoment, hread]
    · exact fun _ => cons_ne_mark hd rfl
    · exact fun _ => cons_ne_mark hd rfl
  rw [readValue, hscalar]
  · exact fun _ _ _ => cons_ne_mark hd rfl
  · exact fun _ _ _ => cons_ne_mark hd rfl

end Numbers

end NativeScripts.Toml

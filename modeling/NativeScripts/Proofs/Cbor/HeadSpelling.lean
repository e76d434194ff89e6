import Mathlib.Tactic.IntervalCases
import NativeScripts.Cbor.Head
import NativeScripts.Proofs.Bytes

/-! Which bytes spell a head. An argument has up to five spellings, and the
encoder takes the only one that no other undercuts. -/

namespace NativeScripts.Cbor

theorem readBytes_eq_ok {n : Nat} {bs front rest : Bytes} :
    readBytes n bs = .ok (front, rest) ↔ bs = front ++ rest ∧ front.length = n := by
  rw [← Bytes.split?_eq_some, readBytes]
  cases bs.split? n <;> simp

/-- The low bits of a first byte and the bytes after it that spell `n`. -/
inductive Argument (n : Nat) : Nat → Bytes → Prop where
  | inside (h : n < 24) : Argument n n []
  | following (i : Nat) (hi : i < 4) (h : n < 256 ^ 2 ^ i) :
      Argument n (24 + i) (Bytes.ofNat (2 ^ i) n)

namespace Argument

variable {n info info' : Nat} {spelled spelled' : Bytes}

theorem info_lt (h : Argument n info spelled) : info < 28 := by
  cases h <;> omega

theorem lt_size (h : Argument n info spelled) : n < UInt64.size := by
  cases h with
  | inside h => exact Nat.lt_trans h (by decide)
  | following i hi h =>
    exact Nat.lt_of_lt_of_le h (Nat.pow_le_pow_right (by omega)
      (Nat.pow_le_pow_right (by omega) (by omega : i ≤ 3)))

theorem two_pow_le_length (h : Argument n info spelled) {i : Nat} (hlow : 24 ≤ n)
    (hwide : ∀ j < i, 256 ^ 2 ^ j ≤ n) : 2 ^ i ≤ spelled.length := by
  cases h with
  | inside h => omega
  | following j hj h =>
    rw [Bytes.length_ofNat]
    have hij : i ≤ j := by
      by_contra hlt
      have hh := hwide j (by omega)
      omega
    exact Nat.pow_le_pow_right (by omega) hij

theorem eq_of_length_eq (h : Argument n info spelled) (h' : Argument n info' spelled')
    (hl : spelled.length = spelled'.length) : info = info' ∧ spelled = spelled' := by
  have hpos (i : Nat) : 2 ^ i ≠ 0 := Nat.ne_of_gt (Nat.two_pow_pos i)
  cases h with
  | inside =>
    cases h' with
    | inside => exact ⟨rfl, rfl⟩
    | following i => exact absurd hl.symm (by simp [Bytes.length_ofNat])
  | following i =>
    cases h' with
    | inside => exact absurd hl (by simp [Bytes.length_ofNat])
    | following j =>
      have hij : i = j := Nat.pow_right_injective (Nat.le_refl 2) (by
        simpa only [Bytes.length_ofNat] using hl)
      subst hij
      exact ⟨rfl, rfl⟩

end Argument

theorem readArgument_inside {info : Nat} (h : info < 24) (bs : Bytes) :
    readArgument info bs = .ok (some info, bs) := by
  simp [readArgument, h]

theorem readArgument_following {i : Nat} (hi : i < 4) (bs : Bytes) :
    readArgument (24 + i) bs =
      match readBytes (2 ^ i) bs with
      | .ok (argument, rest) => .ok (some argument.toNat, rest)
      | .error fault => .error fault := by
  interval_cases i <;> rfl

theorem readArgument_illFormed {info : Nat} (h : 28 ≤ info) (hne : info ≠ 31) (bs : Bytes) :
    readArgument info bs = .error .illFormed := by
  simp only [readArgument]
  repeat rw [if_neg (by omega)]

theorem readArgument_spelled {n info : Nat} {spelled : Bytes} (h : Argument n info spelled)
    (rest : Bytes) : readArgument info (spelled ++ rest) = .ok (some n, rest) := by
  cases h with
  | inside h => exact readArgument_inside h rest
  | following i hi h =>
    have hr : readBytes (2 ^ i) (Bytes.ofNat (2 ^ i) n ++ rest) =
        .ok (Bytes.ofNat (2 ^ i) n, rest) :=
      readBytes_eq_ok.mpr ⟨rfl, Bytes.length_ofNat _ n⟩
    simp only [readArgument_following hi, hr, Bytes.toNat_ofNat h]

theorem readArgument_absent (rest : Bytes) : readArgument 31 rest = .ok (none, rest) := rfl

/-- Every argument that is read was spelled in one of these ways. -/
theorem spelled_of_readArgument {info : Nat} {argument : Option Nat} {bs rest : Bytes}
    (h : readArgument info bs = .ok (argument, rest)) :
    (∃ n spelled, argument = some n ∧ Argument n info spelled ∧ bs = spelled ++ rest) ∨
      (argument = none ∧ info = 31 ∧ bs = rest) := by
  by_cases hlt : info < 24
  · rw [readArgument_inside hlt, Except.ok.injEq, Prod.mk.injEq] at h
    exact .inl ⟨info, [], h.1.symm, .inside hlt, h.2⟩
  by_cases hlt' : info < 28
  · obtain ⟨i, rfl⟩ : ∃ i, info = 24 + i := ⟨info - 24, by omega⟩
    have hi : i < 4 := by omega
    rw [readArgument_following hi] at h
    cases hr : readBytes (2 ^ i) bs with
    | error fault => simp [hr] at h
    | ok read =>
      obtain ⟨spelled, rest'⟩ := read
      simp only [hr, Except.ok.injEq, Prod.mk.injEq] at h
      obtain ⟨rfl, rfl⟩ := h
      obtain ⟨hbs, hl⟩ := readBytes_eq_ok.mp hr
      have ha := Argument.following (n := spelled.toNat) i hi (by rw [← hl]; exact spelled.toNat_lt)
      rw [← hl, Bytes.ofNat_toNat] at ha
      exact .inl ⟨spelled.toNat, spelled, rfl, ha, hbs⟩
  by_cases hend : info = 31
  · subst hend
    rw [readArgument_absent, Except.ok.injEq, Prod.mk.injEq] at h
    exact .inr ⟨h.1.symm, rfl, h.2⟩
  · rw [readArgument_illFormed (by omega) hend] at h
    cases h

theorem readHead_eq_ok {bs rest : Bytes} {head : Head} :
    readHead bs = .ok (head, rest) ↔
      ∃ first tail argument, bs = first :: tail ∧
        readArgument (first.toNat % 32) tail = .ok (argument, rest) ∧
        Head.ofParts (first.toNat / 32) (first.toNat % 32) argument = .ok head := by
  constructor
  · intro h
    cases bs with
    | nil => cases h
    | cons first tail =>
      simp only [readHead] at h
      split at h
      · cases h
      · rename_i argument rest' hr
        split at h
        · cases h
        · rename_i head' hp
          cases h
          exact ⟨first, tail, argument, rfl, hr, hp⟩
  · intro h
    rcases h with ⟨first, tail, argument, rfl, hr, hp⟩
    simp only [readHead, hr, hp]

theorem readArgument_append {info : Nat} {argument : Option Nat} {bs rest : Bytes}
    (h : readArgument info bs = .ok (argument, rest)) (more : Bytes) :
    readArgument info (bs ++ more) = .ok (argument, rest ++ more) := by
  rcases spelled_of_readArgument h with ⟨n, spelled, rfl, ha, rfl⟩ | ⟨rfl, rfl, rfl⟩
  · rw [List.append_assoc]
    exact readArgument_spelled ha (rest ++ more)
  · exact readArgument_absent (bs ++ more)

/-- A head is told from its own bytes. -/
theorem readHead_append {bs rest : Bytes} {head : Head} (h : readHead bs = .ok (head, rest))
    (more : Bytes) : readHead (bs ++ more) = .ok (head, rest ++ more) := by
  obtain ⟨first, tail, argument, rfl, hr, hp⟩ := readHead_eq_ok.mp h
  exact readHead_eq_ok.mpr ⟨first, tail ++ more, argument, rfl, readArgument_append hr more, hp⟩

/-- The head of a major type below seven that has the argument `n`. -/
def Head.ofArgument : Nat → Nat → Head
  | 0, n => .unsigned n
  | 1, n => .negative n
  | 2, n => .bytes (some n)
  | 3, n => .text (some n)
  | 4, n => .array (some n)
  | 5, n => .map (some n)
  | _, n => .tag n

theorem Head.ofParts_eq_ofArgument {major major' info n : Nat} {argument : Option Nat}
    (hm : major < 7) :
    Head.ofParts major' info argument = .ok (Head.ofArgument major n) ↔
      major' = major ∧ argument = some n := by
  constructor
  · intro h
    unfold Head.ofParts at h
    repeat' split at h
    all_goals interval_cases major <;> simp_all [Head.ofArgument]
  · intro h
    rcases h with ⟨rfl, rfl⟩
    interval_cases major' <;> rfl

/-- The bytes that spell the head with this argument. -/
theorem readHead_eq_ofArgument {major n : Nat} (hm : major < 7) {bs rest : Bytes} :
    readHead bs = .ok (Head.ofArgument major n, rest) ↔
      ∃ info spelled, Argument n info spelled ∧
        bs = UInt8.ofNat (32 * major + info) :: spelled ++ rest := by
  rw [readHead_eq_ok]
  constructor
  · intro h
    rcases h with ⟨first, tail, argument, rfl, hr, hp⟩
    obtain ⟨hmajor, rfl⟩ := (Head.ofParts_eq_ofArgument hm).mp hp
    rcases spelled_of_readArgument hr with ⟨n', spelled, hn, ha, rfl⟩ | ⟨hn, -, -⟩
    · cases hn
      have hfirst : first = UInt8.ofNat (32 * major + first.toNat % 32) := by
        rw [← hmajor, Nat.div_add_mod]
        exact UInt8.ofNat_toNat.symm
      exact ⟨_, spelled, ha, by rw [List.cons_append, ← hfirst]⟩
    · cases hn
  · intro h
    rcases h with ⟨info, spelled, ha, rfl⟩
    have hi := ha.info_lt
    have hfirst : (UInt8.ofNat (32 * major + info)).toNat = 32 * major + info := by
      rw [UInt8.toNat_ofNat']
      omega
    have hinfo : (32 * major + info) % 32 = info := by omega
    have hmajor : (32 * major + info) / 32 = major := by omega
    refine ⟨_, spelled ++ rest, some n, rfl, ?_, ?_⟩
    · rw [hfirst, hinfo]
      exact readArgument_spelled ha rest
    · rw [hfirst, hinfo, hmajor]
      exact (Head.ofParts_eq_ofArgument hm).mpr ⟨rfl, rfl⟩

/-- The encoder spells an argument as narrowly as can be. -/
theorem headBytes_spelled {n : Nat} (major : Nat) (hn : n < UInt64.size) :
    ∃ info spelled, Argument n info spelled ∧
      headBytes major n = UInt8.ofNat (32 * major + info) :: spelled ∧
      ∀ {info' spelled'}, Argument n info' spelled' → spelled.length ≤ spelled'.length := by
  have hfollowing (i : Nat) (hi : i < 4) (h : n < 256 ^ 2 ^ i) (hlow : 24 ≤ n)
      (hwide : ∀ j < i, 256 ^ 2 ^ j ≤ n)
      (hb : headBytes major n = UInt8.ofNat (32 * major + (24 + i)) :: Bytes.ofNat (2 ^ i) n) :
      ∃ info spelled, Argument n info spelled ∧
        headBytes major n = UInt8.ofNat (32 * major + info) :: spelled ∧
        ∀ {info' spelled'}, Argument n info' spelled' → spelled.length ≤ spelled'.length := by
    refine ⟨24 + i, Bytes.ofNat (2 ^ i) n, .following i hi h, hb, fun ha => ?_⟩
    rw [Bytes.length_ofNat]
    exact ha.two_pow_le_length hlow hwide
  have hs : UInt8.size = 256 ∧ UInt16.size = 65536 ∧ UInt32.size = 4294967296 ∧
      UInt64.size = 18446744073709551616 := ⟨rfl, rfl, rfl, rfl⟩
  by_cases h0 : n < 24
  · exact ⟨n, [], .inside h0, by simp [headBytes, h0], fun _ => Nat.zero_le _⟩
  by_cases h1 : n < UInt8.size
  · exact hfollowing 0 (by omega) (by omega) (by omega) (by omega) (by simp [headBytes, h0, h1])
  by_cases h2 : n < UInt16.size
  · exact hfollowing 1 (by omega) (by omega) (by omega)
      (fun j hj => by interval_cases j; omega) (by simp [headBytes, h0, h1, h2])
  by_cases h3 : n < UInt32.size
  · exact hfollowing 2 (by omega) (by omega) (by omega)
      (fun j hj => by interval_cases j <;> omega) (by simp [headBytes, h0, h1, h2, h3])
  · exact hfollowing 3 (by omega) (by omega) (by omega)
      (fun j hj => by interval_cases j <;> omega) (by simp [headBytes, h0, h1, h2, h3])

theorem headBytes_eq_cons (major n : Nat) :
    ∃ info tail, info < 28 ∧ headBytes major n = UInt8.ofNat (32 * major + info) :: tail := by
  unfold headBytes
  split
  · exact ⟨n, [], by omega, rfl⟩
  · repeat' split
    all_goals exact ⟨_, _, by decide, rfl⟩

theorem readHead_headBytes {major n : Nat} (hm : major < 7) (hn : n < UInt64.size) (rest : Bytes) :
    readHead (headBytes major n ++ rest) = .ok (Head.ofArgument major n, rest) := by
  obtain ⟨info, spelled, ha, hb, -⟩ := headBytes_spelled major hn
  exact (readHead_eq_ofArgument hm).mpr ⟨info, spelled, ha, by rw [hb]⟩

end NativeScripts.Cbor

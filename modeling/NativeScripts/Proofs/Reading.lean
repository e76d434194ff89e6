import NativeScripts.Reading

/-! When a reading succeeds: its steps do, one after the other. The first of them that
fails gives the fault. -/

namespace NativeScripts

variable {α β ε ζ : Type}

/-- Each word stands for one integer, and integers out of range for none. -/
theorem ofNat_toNat_eq_iff {i : Int} {n : UInt64} :
    (0 ≤ i ∧ i < UInt64.size) ∧ UInt64.ofNat i.toNat = n ↔ i = n.toNat := by
  have hn := n.toNat_lt
  have hs : UInt64.size = 18446744073709551616 := rfl
  rw [← UInt64.toNat_inj, UInt64.toNat_ofNat']
  omega

theorem map_eq_ok {f : α → β} {x : Except ε α} {b : β} :
    x.map f = .ok b ↔ ∃ a, x = .ok a ∧ f a = b := by
  cases x <;> simp [Except.map]

theorem map_eq_error {f : α → β} {x : Except ε α} {e : ε} :
    x.map f = .error e ↔ x = .error e := by
  cases x <;> simp [Except.map]

theorem bind_eq_ok {f : α → Except ε β} {x : Except ε α} {b : β} :
    (x >>= f) = .ok b ↔ ∃ a, x = .ok a ∧ f a = .ok b := by
  cases x <;> simp [bind, Except.bind]

theorem bind_of_eq_ok {f : α → Except ε β} {x : Except ε α} {a : α} (h : x = .ok a) :
    (x >>= f) = f a := by
  rw [h]
  rfl

@[simp] theorem mapError_ok (kind : ε → ζ) (a : α) :
    (Except.ok a : Except ε α).mapError kind = .ok a :=
  rfl

@[simp] theorem mapError_error (kind : ε → ζ) (fault : ε) :
    (Except.error fault : Except ε α).mapError kind = .error (kind fault) :=
  rfl

theorem mapError_eq_ok {kind : ε → ζ} {x : Except ε α} {a : α} :
    x.mapError kind = .ok a ↔ x = .ok a := by
  cases x <;> simp

theorem mapError_eq_error {kind : ε → ζ} {x : Except ε α} {e : ζ} :
    x.mapError kind = .error e ↔ ∃ fault, x = .error fault ∧ kind fault = e := by
  cases x <;> simp

/-- What is not read ends in a fault. -/
theorem exists_error_iff {accepts : α → Prop} {x : Except ε α}
    (h : ∀ a, x = .ok a ↔ accepts a) : (∃ fault, x = .error fault) ↔ ¬∃ a, accepts a := by
  simp only [← h]
  cases x <;> simp

/-- What is not read ends in a fault of its kind. -/
theorem exists_mapError_iff {accepts : α → Prop} {kind : ε → ζ} {x : Except ε α}
    (h : ∀ a, x = .ok a ↔ accepts a) :
    (∃ fault, x.mapError kind = .error (kind fault)) ↔ ¬∃ a, accepts a := by
  rw [← exists_error_iff h]
  constructor
  · rintro ⟨_, he⟩
    obtain ⟨fault, hx, -⟩ := mapError_eq_error.mp he
    exact ⟨fault, hx⟩
  · rintro ⟨fault, hx⟩
    exact ⟨fault, mapError_eq_error.mpr ⟨fault, hx, rfl⟩⟩

theorem readEach_cons_eq_ok {read : α → Except ε β} {x : α} {xs : List α} {ys : List β} :
    readEach read (x :: xs) = .ok ys ↔
      ∃ z zs, read x = .ok z ∧ readEach read xs = .ok zs ∧ ys = z :: zs := by
  rw [readEach]
  cases read x with
  | error fault => simp
  | ok z => cases readEach read xs <;> simp [eq_comm]

theorem readEach_isOk {read : α → Except ε β} {xs : List α} :
    (∃ ys, readEach read xs = .ok ys) ↔ ∀ x ∈ xs, ∃ y, read x = .ok y := by
  induction xs with
  | nil => simp [readEach]
  | cons x xs ih =>
    rw [List.forall_mem_cons, ← ih]
    simp only [readEach_cons_eq_ok]
    constructor
    · intro h
      obtain ⟨-, y, ys, hy, hys, -⟩ := h
      exact ⟨⟨y, hy⟩, ys, hys⟩
    · intro h
      obtain ⟨⟨y, hy⟩, ys, hys⟩ := h
      exact ⟨y :: ys, y, ys, hy, hys, rfl⟩

/-- The fault is that of a member which all members before it were read in front of. -/
theorem readEach_eq_error_iff {read : α → Except ε β} {xs : List α} {e : ε} :
    readEach read xs = .error e ↔
      ∃ before x after, xs = before ++ x :: after ∧ (∀ b ∈ before, ∃ y, read b = .ok y) ∧
        read x = .error e := by
  induction xs with
  | nil => simp [readEach]
  | cons x xs ih =>
    constructor
    · intro h
      rw [readEach] at h
      split at h
      · rename_i fault hx
        cases h
        exact ⟨[], x, xs, rfl, List.forall_mem_nil _, hx⟩
      · rename_i y hx
        split at h
        · rename_i fault hxs
          cases h
          obtain ⟨before, x', after, rfl, hb, hx'⟩ := ih.mp hxs
          exact ⟨x :: before, x', after, rfl, List.forall_mem_cons.mpr ⟨⟨y, hx⟩, hb⟩, hx'⟩
        · cases h
    · intro h
      obtain ⟨before, x', after, he, hb, hx'⟩ := h
      cases before with
      | nil =>
        cases he
        rw [readEach, hx']
      | cons b before =>
        rw [List.cons_append, List.cons.injEq] at he
        obtain ⟨rfl, hxs⟩ := he
        obtain ⟨⟨y, hy⟩, hb⟩ := List.forall_mem_cons.mp hb
        have hrest : readEach read xs = .error e := ih.mpr ⟨before, x', after, hxs, hb, hx'⟩
        rw [readEach, hy, hrest]

end NativeScripts

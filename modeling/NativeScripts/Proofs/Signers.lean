import Mathlib.Data.List.Sort
import NativeScripts.Transaction

/-! Sets of keys are told apart by what they hold. Keys that are taken in one after the
other make the same set in whatever order they come, and however often. -/

namespace NativeScripts

instance : Std.Irrefl fun a b : KeyHash => a < b :=
  ⟨Hash.lt_irrefl⟩

instance : Std.Antisymm fun a b : KeyHash => a < b :=
  ⟨fun a _ hab hba => absurd (Hash.lt_trans hab hba) (Hash.lt_irrefl a)⟩

namespace Signers

variable {s t : Signers} {key k : KeyHash} {keys : List KeyHash}

theorem ext_of_mem (h : ∀ k, k ∈ s.keys ↔ k ∈ t.keys) : s = t := by
  have hkeys : s.keys = t.keys := s.ascending.eq_of_mem_iff t.ascending h
  cases s
  cases t
  cases hkeys
  rfl

theorem mem_insert : k ∈ (s.insert key).keys ↔ k = key ∨ k ∈ s.keys :=
  mem_insertKey

theorem mem_foldl_insert : k ∈ (keys.foldl insert s).keys ↔ k ∈ keys ∨ k ∈ s.keys := by
  induction keys generalizing s with
  | nil => simp
  | cons key keys ih =>
    rw [List.foldl_cons, ih, mem_insert, List.mem_cons, or_left_comm, or_assoc]

theorem mem_ofList : k ∈ (ofList keys).keys ↔ k ∈ keys := by
  rw [ofList, mem_foldl_insert]
  simp [empty]

end Signers

theorem Transaction.foldl_sign (keys : List KeyHash) (c : Transaction) :
    keys.foldl sign c = ⟨keys.foldl Signers.insert c.signers, c.validity⟩ := by
  induction keys generalizing c with
  | nil => rfl
  | cons key keys ih => rw [List.foldl_cons, ih, List.foldl_cons, sign]

end NativeScripts

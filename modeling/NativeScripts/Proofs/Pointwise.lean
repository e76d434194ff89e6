import Mathlib.Algebra.GroupWithZero.Nat
import Mathlib.Algebra.Order.BigOperators.Group.List
import Mathlib.Algebra.Order.Group.Nat
import Mathlib.Data.List.Forall2
import NativeScripts.Multisig
import NativeScripts.Proofs.Reading

/-! Lists and layers related member by member. A reading succeeds with the members
that each of its own members is read as, and readings that agree on related members
have the same outcome. -/

namespace NativeScripts

open List (Forall₂)

variable {α β γ δ ε ζ : Type}

theorem forall₂_imp_mem {R S : α → β → Prop} {xs : List α} {ys : List β}
    (h : ∀ x ∈ xs, ∀ y ∈ ys, R x y → S x y) (hr : Forall₂ R xs ys) : Forall₂ S xs ys := by
  induction hr with
  | nil => exact .nil
  | @cons x y xs ys hxy _ ih =>
    have htail := ih fun x' hx' y' hy' =>
      h x' (List.mem_cons_of_mem x hx') y' (List.mem_cons_of_mem y hy')
    exact .cons (h x List.mem_cons_self y List.mem_cons_self hxy) htail

theorem exists_of_forall₂ {R : α → β → Prop} {xs : List α} {ys : List β}
    (h : Forall₂ R xs ys) {x : α} (hx : x ∈ xs) : ∃ y ∈ ys, R x y := by
  induction h with
  | nil => cases hx
  | @cons x' y' xs ys hxy _ ih =>
    rcases List.mem_cons.mp hx with rfl | hx
    · exact ⟨y', List.mem_cons_self, hxy⟩
    · obtain ⟨y, hy, hr⟩ := ih hx
      exact ⟨y, List.mem_cons_of_mem y' hy, hr⟩

theorem forall₂_congr_mem {R S : α → β → Prop} {xs : List α} {ys : List β}
    (h : ∀ x ∈ xs, ∀ y ∈ ys, R x y ↔ S x y) : Forall₂ R xs ys ↔ Forall₂ S xs ys :=
  ⟨forall₂_imp_mem fun x hx y hy => (h x hx y hy).mp,
    forall₂_imp_mem fun x hx y hy => (h x hx y hy).mpr⟩

theorem forall₂_eq_map {write : β → α} {xs : List α} {ys : List β} :
    Forall₂ (fun x y => x = write y) xs ys ↔ xs = ys.map write := by
  rw [← List.forall₂_map_right_iff, List.forall₂_eq_eq_eq]

theorem length_le_sum_map {weight : α → Nat} (hpos : ∀ x, 0 < weight x) (xs : List α) :
    xs.length ≤ (xs.map weight).sum := by
  have hone : ∀ n ∈ xs.map weight, 1 ≤ n := List.forall_mem_map.mpr fun x _ => hpos x
  have hl := List.length_le_sum_of_one_le _ hone
  rwa [List.length_map] at hl

theorem le_sum_map {x : α} {xs : List α} (weight : α → Nat) (h : x ∈ xs) :
    weight x ≤ (xs.map weight).sum :=
  List.le_sum_of_mem (List.mem_map_of_mem h)

theorem readEach_eq_ok_iff {read : α → Except ε β} {xs : List α} {ys : List β} :
    readEach read xs = .ok ys ↔ Forall₂ (fun x y => read x = .ok y) xs ys := by
  induction xs generalizing ys with
  | nil => simp [readEach, eq_comm]
  | cons x xs ih => simp only [readEach_cons_eq_ok, ih, List.forall₂_cons_left_iff]

theorem readEach_congr {read : α → Except ε γ} {read' : β → Except ε γ} {xs : List α}
    {ys : List β} (h : Forall₂ (fun x y => read x = read' y) xs ys) :
    readEach read xs = readEach read' ys := by
  induction h with
  | nil => rfl
  | cons hxy _ ih => simp only [readEach, hxy, ih]

theorem readEach_mapError {f : ε → ζ} {read : α → Except ε β} {xs : List α} :
    readEach (fun x => (read x).mapError f) xs = (readEach read xs).mapError f := by
  induction xs with
  | nil => rfl
  | cons x xs ih =>
    rw [readEach, readEach, ih]
    cases read x with
    | error fault => rfl
    | ok y => cases readEach read xs <;> rfl

theorem mapError_map {f : ε → ζ} {g : α → β} {x : Except ε α} :
    (x.mapError f).map g = (x.map g).mapError f := by
  cases x <;> rfl

namespace Multisig

/-- The layers are of one kind and agree in all but their children. -/
inductive Pointwise (R : α → β → Prop) : Multisig α → Multisig β → Prop where
  | sig (key : KeyHash) : Pointwise R (.sig key) (.sig key)
  | all {xs : List α} {ys : List β} (each : Forall₂ R xs ys) : Pointwise R (.all xs) (.all ys)
  | any {xs : List α} {ys : List β} (each : Forall₂ R xs ys) : Pointwise R (.any xs) (.any ys)
  | atLeast (required : UInt64) {xs : List α} {ys : List β} (each : Forall₂ R xs ys) :
      Pointwise R (.atLeast required xs) (.atLeast required ys)

theorem traverse_eq_ok_iff {read : α → Except ε β} {m : Multisig α} {r : Multisig β} :
    m.traverse read = .ok r ↔ Pointwise (fun x y => read x = .ok y) m r := by
  constructor
  · intro h
    cases m with
    | sig key =>
      cases h
      exact .sig key
    | all xs =>
      obtain ⟨ys, hys, rfl⟩ := map_eq_ok.mp h
      exact .all (readEach_eq_ok_iff.mp hys)
    | any xs =>
      obtain ⟨ys, hys, rfl⟩ := map_eq_ok.mp h
      exact .any (readEach_eq_ok_iff.mp hys)
    | atLeast required xs =>
      obtain ⟨ys, hys, rfl⟩ := map_eq_ok.mp h
      exact .atLeast required (readEach_eq_ok_iff.mp hys)
  · intro h
    cases h with
    | sig key => rfl
    | all each | any each | atLeast required each =>
      exact map_eq_ok.mpr ⟨_, readEach_eq_ok_iff.mpr each, rfl⟩

theorem traverse_isOk {read : α → Except ε β} {m : Multisig α} :
    (∃ r, m.traverse read = .ok r) ↔ ∀ x ∈ m.children, ∃ y, read x = .ok y := by
  rw [← readEach_isOk]
  cases m with
  | sig key => simp [traverse, children, readEach]
  | all xs | any xs | atLeast required xs => simp [traverse, children, map_eq_ok]

theorem traverse_eq_error {read : α → Except ε β} {m : Multisig α} {e : ε} :
    m.traverse read = .error e ↔ readEach read m.children = .error e := by
  cases m with
  | sig key => simp [traverse, children, readEach]
  | all xs | any xs | atLeast required xs => exact map_eq_error

theorem traverse_congr {read : α → Except ε γ} {read' : β → Except ε γ} {m : Multisig α}
    {m' : Multisig β} (h : Pointwise (fun x y => read x = read' y) m m') :
    m.traverse read = m'.traverse read' := by
  cases h with
  | sig key => rfl
  | all each | any each | atLeast required each => simp only [traverse, readEach_congr each]

theorem traverse_mapError {f : ε → ζ} {read : α → Except ε β} {m : Multisig α} :
    m.traverse (fun x => (read x).mapError f) = (m.traverse read).mapError f := by
  cases m with
  | sig key => rfl
  | all xs | any xs | atLeast required xs =>
    simp only [traverse, readEach_mapError, mapError_map]

theorem Pointwise.imp {R S : α → β → Prop} {m : Multisig α} {r : Multisig β}
    (h : ∀ x ∈ m.children, ∀ y ∈ r.children, R x y → S x y) (hp : Pointwise R m r) :
    Pointwise S m r := by
  cases hp with
  | sig key => exact .sig key
  | all each => exact .all (forall₂_imp_mem h each)
  | any each => exact .any (forall₂_imp_mem h each)
  | atLeast required each => exact .atLeast required (forall₂_imp_mem h each)

theorem Pointwise.congr {R S : α → β → Prop} {m : Multisig α} {r : Multisig β}
    (h : ∀ x ∈ m.children, ∀ y ∈ r.children, R x y ↔ S x y) : Pointwise R m r ↔ Pointwise S m r :=
  ⟨Pointwise.imp fun x hx y hy => (h x hx y hy).mp,
    Pointwise.imp fun x hx y hy => (h x hx y hy).mpr⟩

theorem pointwise_map_left {R : α → β → Prop} {f : β → α} {m : Multisig β}
    (h : ∀ c ∈ m.children, R (f c) c) : Pointwise R (m.map f) m := by
  have each : Forall₂ R (m.children.map f) m.children :=
    List.forall₂_map_left_iff.mpr (List.forall₂_same.mpr h)
  cases m with
  | sig key => exact .sig key
  | all xs => exact .all each
  | any xs => exact .any each
  | atLeast required xs => exact .atLeast required each

theorem Pointwise.map_right {R : α → γ → Prop} {f : β → γ} {m : Multisig α} {r : Multisig β}
    (h : Pointwise (fun x y => R x (f y)) m r) : Pointwise R m (r.map f) := by
  cases h with
  | sig key => exact .sig key
  | all each => exact .all (List.forall₂_map_right_iff.mpr each)
  | any each => exact .any (List.forall₂_map_right_iff.mpr each)
  | atLeast required each => exact .atLeast required (List.forall₂_map_right_iff.mpr each)

theorem pointwise_eq_map {write : β → α} {m : Multisig α} {r : Multisig β} :
    Pointwise (fun x y => x = write y) m r ↔ m = r.map write := by
  constructor
  · intro h
    cases h with
    | sig key => rfl
    | all each | any each | atLeast required each =>
      rw [forall₂_eq_map.mp each]
      rfl
  · rintro rfl
    exact pointwise_map_left fun _ _ => rfl

theorem Pointwise.eq {m r : Multisig α} (h : Pointwise Eq m r) : m = r := by
  cases h with
  | sig key => rfl
  | all each | any each | atLeast required each =>
    rw [List.forall₂_eq_eq_eq] at each
    rw [each]

theorem traverse_eq_ok {read : α → Except ε β} {write : β → α} {m : Multisig α} {r : Multisig β}
    (h : ∀ x ∈ m.children, ∀ y, read x = .ok y ↔ x = write y) :
    m.traverse read = .ok r ↔ m = r.map write := by
  rw [traverse_eq_ok_iff, Pointwise.congr fun x hx y _ => h x hx y, pointwise_eq_map]

theorem Pointwise.fieldCount_eq {R : α → β → Prop} {m : Multisig α} {r : Multisig β}
    (h : Pointwise R m r) : m.fieldCount = r.fieldCount := by
  cases h <;> rfl

end Multisig

end NativeScripts

import NativeScripts.Proofs.Evaluation.SlotVerdict
import NativeScripts.Proofs.Pointwise

/-! The order of the scripts below a script. It may be changed at any depth, and at several
depths at once, without any context noticing. -/

namespace NativeScripts

open List (Forall₂)

section Layers

variable {α β γ : Type}

theorem map_eq_map_of_forall₂ {f : α → γ} {g : β → γ} {xs : List α} {ys : List β}
    (h : Forall₂ (fun x y => f x = g y) xs ys) : xs.map f = ys.map g := by
  induction h with
  | nil => rfl
  | cons hxy _ ih => rw [List.map_cons, List.map_cons, hxy, ih]

namespace Multisig

theorem Pointwise.map_eq_map {f : α → γ} {g : β → γ} {m : Multisig α} {r : Multisig β}
    (h : Pointwise (fun x y => f x = g y) m r) : m.map f = r.map g := by
  cases h with
  | sig key => rfl
  | all each | any each | atLeast required each =>
    simp only [map, map_eq_map_of_forall₂ each]

/-- The layers have the same children, maybe in another order, and agree in all else. -/
inductive Reordered : Multisig α → Multisig α → Prop where
  | sig (key : KeyHash) : Reordered (.sig key) (.sig key)
  | all {xs ys : List α} (h : xs.Perm ys) : Reordered (.all xs) (.all ys)
  | any {xs ys : List α} (h : xs.Perm ys) : Reordered (.any xs) (.any ys)
  | atLeast (required : UInt64) {xs ys : List α} (h : xs.Perm ys) :
      Reordered (.atLeast required xs) (.atLeast required ys)

theorem Reordered.refl (m : Multisig α) : Reordered m m := by
  cases m with
  | sig key => exact .sig key
  | all xs => exact .all (.refl xs)
  | any xs => exact .any (.refl xs)
  | atLeast required xs => exact .atLeast required (.refl xs)

theorem Reordered.holds_eq {m m' : Multisig α} (h : Reordered m m') (signed : KeyHash → Bool)
    (verdict : α → Bool) : (m.map verdict).holds signed = (m'.map verdict).holds signed := by
  cases h with
  | sig key => rfl
  | all h => exact (h.map verdict).all_eq
  | any h => exact (h.map verdict).any_eq
  | atLeast required h =>
    have hcount := (h.map verdict).count_eq true
    simp only [map, holds, hcount]

end Multisig

end Layers

namespace NativeScript

/-- The scripts below are rearranged each, and then reordered. -/
inductive Rearranged : NativeScript → NativeScript → Prop where
  | multisig {layer between layer' : Multisig NativeScript}
      (each : Multisig.Pointwise Rearranged layer between) (order : between.Reordered layer') :
      Rearranged (.multisig layer) (.multisig layer')
  | after (slot : Slot) : Rearranged (.after slot) (.after slot)
  | before (slot : Slot) : Rearranged (.before slot) (.before slot)

theorem Rearranged.refl (s : NativeScript) : Rearranged s s := by
  induction s with
  | multisig layer ih =>
    have each : Multisig.Pointwise Rearranged (layer.map id) layer :=
      Multisig.pointwise_map_left ih
    have hid : layer.map id = layer := by
      cases layer <;> simp [Multisig.map]
    rw [hid] at each
    exact .multisig each (.refl layer)
  | after slot => exact .after slot
  | before slot => exact .before slot

/-- No context tells a script from a rearrangement of it. -/
theorem eval_rearranged {s s' : NativeScript} (h : Rearranged s s') (c : Context) :
    s.eval c = s'.eval c := by
  -- on the tree, since the relation is nested in lists
  induction s generalizing s' with
  | multisig layer ih =>
    cases h with
    | @multisig _ between layer' each order =>
      have hverdicts : layer.map (eval c) = between.map (eval c) :=
        (each.imp fun x hx y _ hr => ih x hx hr).map_eq_map
      rw [eval_multisig, eval_multisig, hverdicts, order.holds_eq]
  | after slot =>
    cases h
    rfl
  | before slot =>
    cases h
    rfl

end NativeScript

/-- The parts in the opposite order, and the parts of the third one too. -/
def NativeScript.twoOfFourReversed : NativeScript :=
  .multisig (.atLeast 2
    [.after 11, .multisig (.all [.before 20, .after 10]),
     .multisig (.sig (.filled 8)), .multisig (.sig (.filled 7))])

theorem twoOfFour_reversed :
    NativeScript.twoOfFour.Rearranged .twoOfFourReversed ∧
    NativeScript.twoOfFour.eval Transaction.tenSlots.answer =
      NativeScript.twoOfFourReversed.eval Transaction.tenSlots.answer := by
  have hpair : NativeScript.Rearranged (.multisig (.all [.after 10, .before 20]))
      (.multisig (.all [.before 20, .after 10])) :=
    .multisig (.all (.cons (.after 10) (.cons (.before 20) .nil))) (.all (.swap _ _ []))
  have hrearranged : NativeScript.twoOfFour.Rearranged .twoOfFourReversed :=
    .multisig
      (.atLeast 2 (.cons (.refl _) (.cons (.refl _) (.cons hpair (.cons (.after 11) .nil)))))
      (.atLeast 2 (List.reverse_perm _).symm)
  exact ⟨hrearranged, NativeScript.eval_rearranged hrearranged _⟩

end NativeScripts

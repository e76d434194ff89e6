import NativeScripts.Proofs.Evaluation.Rearrangement

/-! Thresholds. One is reached where as many positions as it asks for hold, so a list of
which all or any must hold can be put as a threshold, at any depth and at several depths at
once, without any context noticing. -/

namespace NativeScripts

theorem le_countP_iff_card_eq {α : Type} {p : α → Bool} {xs : List α} {n : Nat} :
    n ≤ xs.countP p ↔
      ∃ positions : Finset (Fin xs.length), positions.card = n ∧ ∀ i ∈ positions, p (xs.get i) := by
  rw [le_countP_iff_positions]
  constructor
  · intro h
    obtain ⟨positions, hn, hp⟩ := h
    obtain ⟨chosen, hsub, hcard⟩ := Finset.exists_subset_card_eq hn
    exact ⟨chosen, hcard, fun i hi => hp i (hsub hi)⟩
  · intro h
    obtain ⟨positions, hcard, hp⟩ := h
    exact ⟨positions, hcard.ge, hp⟩

section Layers

variable {α : Type} {signed : KeyHash → Bool} {verdict : α → Bool} {scripts : List α}

theorem Multisig.holds_atLeast_length {required : UInt64}
    (h : required.toNat = scripts.length) :
    ((all scripts).map verdict).holds signed =
      ((atLeast required scripts).map verdict).holds signed := by
  have hle : scripts.countP verdict ≤ scripts.length := List.countP_le_length
  rw [Bool.eq_iff_iff, holds_map_all, holds_map_atLeast, h, ← List.countP_eq_length]
  omega

theorem Multisig.holds_atLeast_one :
    ((any scripts).map verdict).holds signed =
      ((atLeast 1 scripts).map verdict).holds signed := by
  rw [Bool.eq_iff_iff, holds_map_any, holds_map_atLeast, ← List.countP_pos_iff]
  rfl

/-- All of a list or any of it, put as a threshold or the other way round. -/
inductive Multisig.Restated : Multisig α → Multisig α → Prop where
  | same (m : Multisig α) : Restated m m
  | all {required : UInt64} {scripts : List α} (h : required.toNat = scripts.length) :
      Restated (.all scripts) (.atLeast required scripts)
  | any (scripts : List α) : Restated (.any scripts) (.atLeast 1 scripts)
  | back {m m' : Multisig α} (h : Restated m m') : Restated m' m

theorem Multisig.Restated.holds_eq {m m' : Multisig α} (h : Restated m m')
    (signed : KeyHash → Bool) (verdict : α → Bool) :
    (m.map verdict).holds signed = (m'.map verdict).holds signed := by
  induction h with
  | same m => rfl
  | all h => exact holds_atLeast_length h
  | any scripts => exact holds_atLeast_one
  | back _ ih => exact ih.symm

end Layers

namespace NativeScript

/-- The scripts below are restated each, and then the layer over them. -/
inductive Restated : NativeScript → NativeScript → Prop where
  | multisig {layer between layer' : Multisig NativeScript}
      (each : Multisig.Pointwise Restated layer between) (own : between.Restated layer') :
      Restated (.multisig layer) (.multisig layer')
  | after (slot : Slot) : Restated (.after slot) (.after slot)
  | before (slot : Slot) : Restated (.before slot) (.before slot)

theorem eval_restated {s s' : NativeScript} (h : Restated s s') (c : Context) :
    s.eval c = s'.eval c := by
  -- on the tree, as for rearrangements
  induction s generalizing s' with
  | multisig layer ih =>
    cases h with
    | @multisig _ between layer' each own =>
      have hverdicts : layer.map (eval c) = between.map (eval c) :=
        (each.imp fun x hx y _ hr => ih x hx hr).map_eq_map
      rw [eval_multisig, eval_multisig, hverdicts, own.holds_eq]
  | after slot =>
    cases h
    rfl
  | before slot =>
    cases h
    rfl

variable {c : Context} {required : UInt64} {scripts : List NativeScript}

theorem eval_atLeast :
    eval c (.multisig (.atLeast required scripts)) = true ↔
      required.toNat ≤ scripts.countP (eval c) := by
  rw [eval_multisig]
  exact Multisig.holds_map_atLeast

theorem eval_atLeast_positions :
    eval c (.multisig (.atLeast required scripts)) = true ↔
      ∃ positions : Finset (Fin scripts.length), positions.card = required.toNat ∧
        ∀ i ∈ positions, (scripts.get i).eval c = true :=
  eval_atLeast.trans le_countP_iff_card_eq

theorem eval_atLeast_of_length_lt (h : scripts.length < required.toNat) :
    eval c (.multisig (.atLeast required scripts)) = false := by
  have hle : scripts.countP (eval c) ≤ scripts.length := List.countP_le_length
  rw [Bool.eq_false_iff, ne_eq, eval_atLeast]
  omega

theorem eval_atLeast_antitone {required' : UInt64} (hle : required ≤ required')
    (h : eval c (.multisig (.atLeast required' scripts)) = true) :
    eval c (.multisig (.atLeast required scripts)) = true := by
  have hcount : required'.toNat ≤ scripts.countP (eval c) := eval_atLeast.mp h
  exact eval_atLeast.mpr (le_trans (UInt64.le_iff_toNat_le.mp hle) hcount)

end NativeScript

/-- A threshold holds where as many positions do: always from zero on, never beyond the
length of the list, and the sooner the lower it is. The other layers over a list are
thresholds put in other words. -/
theorem threshold_counts_positions :
    (∀ (c : Context) (required : UInt64) (scripts : List NativeScript),
      NativeScript.eval c (.multisig (.atLeast required scripts)) = true ↔
        ∃ positions : Finset (Fin scripts.length), positions.card = required.toNat ∧
          ∀ i ∈ positions, (scripts.get i).eval c = true) ∧
    (∀ (c : Context) (scripts : List NativeScript),
      NativeScript.eval c (.multisig (.atLeast 0 scripts)) = true) ∧
    (∀ (c : Context) (required : UInt64) (scripts : List NativeScript),
      scripts.length < required.toNat →
        NativeScript.eval c (.multisig (.atLeast required scripts)) = false) ∧
    (∀ (c : Context) (required required' : UInt64) (scripts : List NativeScript),
      required ≤ required' →
        NativeScript.eval c (.multisig (.atLeast required' scripts)) = true →
          NativeScript.eval c (.multisig (.atLeast required scripts)) = true) ∧
    ∀ s s' : NativeScript, s.Restated s' → ∀ c : Context, s.eval c = s'.eval c :=
  ⟨fun _ _ _ => NativeScript.eval_atLeast_positions,
    fun _ _ => NativeScript.eval_atLeast.mpr (Nat.zero_le _),
    fun _ _ _ => NativeScript.eval_atLeast_of_length_lt,
    fun _ _ _ _ => NativeScript.eval_atLeast_antitone,
    fun _ _ => NativeScript.eval_restated⟩

/-- Two of the four parts, the third of them put as a threshold. -/
def NativeScript.twoOfFourCounted : NativeScript :=
  .multisig (.atLeast 2
    [.multisig (.sig (.filled 7)), .multisig (.sig (.filled 8)),
     .multisig (.atLeast 2 [.after 10, .before 20]), .after 11])

theorem twoOfFour_counted :
    (NativeScript.twoOfFour.children.length < (5 : UInt64).toNat ∧
      NativeScript.eval Transaction.tenSlots.answer
        (.multisig (.atLeast 5 NativeScript.twoOfFour.children)) = false) ∧
    ((1 : UInt64) ≤ 2 ∧
      NativeScript.eval Transaction.tenSlots.answer
        (.multisig (.atLeast 2 NativeScript.twoOfFour.children)) = true ∧
      NativeScript.eval Transaction.tenSlots.answer
        (.multisig (.atLeast 1 NativeScript.twoOfFour.children)) = true) ∧
    NativeScript.Restated (.multisig (.any [.twoOfFour]))
      (.multisig (.atLeast 1 [.twoOfFourCounted])) ∧
    NativeScript.eval Transaction.tenSlots.answer (.multisig (.any [.twoOfFour])) =
      NativeScript.eval Transaction.tenSlots.answer
        (.multisig (.atLeast 1 [.twoOfFourCounted])) := by
  have hsig (n : UInt8) : NativeScript.Restated (.multisig (.sig (.filled n)))
      (.multisig (.sig (.filled n))) :=
    .multisig (.sig _) (.same _)
  have hpair : NativeScript.Restated (.multisig (.all [.after 10, .before 20]))
      (.multisig (.atLeast 2 [.after 10, .before 20])) :=
    .multisig (.all (.cons (.after 10) (.cons (.before 20) .nil))) (.all rfl)
  have hparts : NativeScript.Restated .twoOfFour .twoOfFourCounted :=
    .multisig (.atLeast 2 (.cons (hsig 7) (.cons (hsig 8) (.cons hpair (.cons (.after 11) .nil)))))
      (.same _)
  have hwhole : NativeScript.Restated (.multisig (.any [.twoOfFour]))
      (.multisig (.atLeast 1 [.twoOfFourCounted])) :=
    .multisig (.any (.cons hparts .nil)) (.any _)
  have htwo : NativeScript.eval Transaction.tenSlots.answer
      (.multisig (.atLeast 2 NativeScript.twoOfFour.children)) = true := by decide
  obtain ⟨-, -, hbeyond, hlower, hrestated⟩ := threshold_counts_positions
  exact ⟨⟨by decide, hbeyond _ 5 _ (by decide)⟩, ⟨by decide, htwo, hlower _ 1 2 _ (by decide) htwo⟩,
    hwhole, hrestated _ _ hwhole _⟩

end NativeScripts

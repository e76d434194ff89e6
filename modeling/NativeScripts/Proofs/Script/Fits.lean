import NativeScripts.ShelleyScript

/-! Scripts that can be written down: a head has room for the length of each list
of children. Lifting a script changes none of these lists. -/

namespace NativeScripts

/-- No list of children is as long as 2 to the power of 64. -/
inductive NativeScript.Fits : NativeScript → Prop where
  | multisig {layer : Multisig NativeScript} (h : layer.children.length < UInt64.size)
      (each : ∀ c ∈ layer.children, Fits c) : Fits (.multisig layer)
  | after (slot : Slot) : Fits (.after slot)
  | before (slot : Slot) : Fits (.before slot)

/-- No list of children is as long as 2 to the power of 64. -/
inductive ShelleyScript.Fits : ShelleyScript → Prop where
  | mk {layer : Multisig ShelleyScript} (h : layer.children.length < UInt64.size)
      (each : ∀ c ∈ layer.children, Fits c) : Fits (.mk layer)

namespace NativeScript

theorem fits_multisig {layer : Multisig NativeScript} :
    Fits (.multisig layer) ↔
      layer.children.length < UInt64.size ∧ ∀ c ∈ layer.children, c.Fits := by
  constructor
  · intro h
    rcases h with ⟨hl, each⟩
    exact ⟨hl, each⟩
  · intro h
    rcases h with ⟨hl, each⟩
    exact .multisig hl each

/-- Measures every list of children. -/
def fits : NativeScript → Bool :=
  fold (fun layer : Multisig Bool => layer.children.length < UInt64.size && layer.children.all id)
    (fun _ => true) (fun _ => true)

theorem fits_eq_true {s : NativeScript} : s.fits = true ↔ s.Fits := by
  induction s with
  | multisig layer ih =>
    rw [fits_multisig, fits, fold_multisig]
    simp only [Multisig.children_map, List.length_map, Bool.and_eq_true, decide_eq_true_eq,
      List.all_map, List.all_eq_true]
    exact and_congr_right fun _ => forall₂_congr ih
  | after slot => exact ⟨fun _ => .after slot, fun _ => rfl⟩
  | before slot => exact ⟨fun _ => .before slot, fun _ => rfl⟩

instance (s : NativeScript) : Decidable s.Fits :=
  decidable_of_iff (s.fits = true) fits_eq_true

end NativeScript

namespace ShelleyScript

theorem fits_lift {s : ShelleyScript} : s.lift.Fits ↔ s.Fits := by
  induction s with
  | mk layer ih =>
    rw [lift_mk, NativeScript.fits_multisig]
    simp only [Multisig.children_map, List.length_map, List.forall_mem_map]
    constructor
    · intro h
      rcases h with ⟨hl, each⟩
      exact .mk hl fun c hc => (ih c hc).mp (each c hc)
    · intro h
      rcases h with ⟨hl, each⟩
      exact ⟨hl, fun c hc => (ih c hc).mpr (each c hc)⟩

instance (s : ShelleyScript) : Decidable s.Fits :=
  decidable_of_iff s.lift.Fits fits_lift

end ShelleyScript

end NativeScripts

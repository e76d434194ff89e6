import Mathlib.Data.Fintype.Card
import NativeScripts.Evaluation

/-! What a script says about a single slot. A verdict on a transaction is given
from the bounds of its validity alone, and it holds good in every slot in which
the transaction may stand. -/

namespace NativeScripts

/-- The slots from the first bound on and before the second. -/
structure Validity.Admits (v : Validity) (t : Slot) : Prop where
  from_first : ∀ first, v.invalidBefore = some first → first ≤ t
  before_bound : ∀ bound, v.invalidHereafter = some bound → t < bound

theorem le_countP_iff_positions {α : Type} {p : α → Bool} {xs : List α} {n : Nat} :
    n ≤ xs.countP p ↔
      ∃ positions : Finset (Fin xs.length), n ≤ positions.card ∧ ∀ i ∈ positions, p xs[i] := by
  have hxs : (List.finRange xs.length).map (fun i => xs[i]) = xs := List.map_getElem_finRange xs
  have hcount : xs.countP p = ((List.finRange xs.length).filter fun i => p xs[i]).length := by
    rw [← List.countP_eq_length_filter]
    conv_lhs => rw [← hxs]
    exact List.countP_map
  have hcard : (Finset.univ.filter fun i : Fin xs.length => p xs[i]).card = xs.countP p := by
    rw [hcount, Fin.univ_def]
    simp [Finset.card_def]
  constructor
  · intro h
    exact ⟨Finset.univ.filter fun i => p xs[i], hcard ▸ h, by simp⟩
  · intro h
    rcases h with ⟨positions, hn, hp⟩
    rw [← hcard]
    exact hn.trans (Finset.card_le_card fun i hi => by simpa using hp i hi)

theorem Transaction.of_answer_after {c : Transaction} {slot t : Slot} (ht : c.validity.Admits t)
    (h : c.answer (.after slot) = true) : slot ≤ t := by
  obtain ⟨first, hv, hle⟩ := answer_after.mp h
  exact UInt64.le_trans hle (ht.from_first first hv)

theorem Transaction.of_answer_before {c : Transaction} {slot t : Slot} (ht : c.validity.Admits t)
    (h : c.answer (.before slot) = true) : t < slot := by
  obtain ⟨bound, hv, hle⟩ := answer_before.mp h
  exact UInt64.lt_of_lt_of_le (ht.before_bound bound hv) hle

namespace NativeScript

/-- Whether a script holds in the slot `t`, given who has signed. Of the scripts
under a threshold each position counts by itself. -/
def HoldsAt (signed : KeyHash → Prop) (t : Slot) : NativeScript → Prop
  | .multisig (.sig key) => signed key
  | .multisig (.all scripts) => ∀ i : Fin scripts.length, HoldsAt signed t scripts[i]
  | .multisig (.any scripts) => ∃ i : Fin scripts.length, HoldsAt signed t scripts[i]
  | .multisig (.atLeast required scripts) =>
    ∃ positions : Finset (Fin scripts.length), required.toNat ≤ positions.card ∧
      ∀ i ∈ positions, HoldsAt signed t scripts[i]
  | .after slot => slot ≤ t
  | .before slot => t < slot
termination_by s => sizeOf s
decreasing_by
  all_goals
    have hlt := List.sizeOf_lt_of_mem (List.getElem_mem i.isLt)
    simp
    omega

theorem holdsAt_multisig {signed : KeyHash → Prop} {hasSigned : KeyHash → Bool} {t : Slot}
    {verdict : NativeScript → Bool} {layer : Multisig NativeScript}
    (h : (layer.map verdict).holds hasSigned = true)
    (hsigned : ∀ key, hasSigned key = true → signed key)
    (each : ∀ c ∈ layer.children, verdict c = true → c.HoldsAt signed t) :
    HoldsAt signed t (.multisig layer) := by
  cases layer with
  | sig key =>
    rw [HoldsAt]
    exact hsigned key h
  | all scripts =>
    have hall : ∀ c ∈ scripts, verdict c = true := Multisig.holds_map_all.mp h
    rw [HoldsAt]
    intro i
    have hi : scripts[i] ∈ scripts := List.getElem_mem i.isLt
    exact each _ hi (hall _ hi)
  | any scripts =>
    obtain ⟨c, hc, hv⟩ := Multisig.holds_map_any.mp h
    obtain ⟨i, hi, rfl⟩ := List.getElem_of_mem hc
    rw [HoldsAt]
    exact ⟨⟨i, hi⟩, each _ hc hv⟩
  | atLeast required scripts =>
    have hcount : required.toNat ≤ scripts.countP verdict := Multisig.holds_map_atLeast.mp h
    obtain ⟨positions, hn, hv⟩ := le_countP_iff_positions.mp hcount
    rw [HoldsAt]
    exact ⟨positions, hn, fun i hi => each _ (List.getElem_mem i.isLt) (hv i hi)⟩

/-- A script that evaluates to true holds in every slot in which the transaction
may stand. -/
theorem holdsAt_of_eval {c : Transaction} {t : Slot} (ht : c.validity.Admits t)
    {s : NativeScript} (h : s.eval c.answer = true) :
    s.HoldsAt (fun key => key ∈ c.signers.keys) t := by
  induction s with
  | multisig layer ih =>
    rw [eval_multisig] at h
    refine holdsAt_multisig h (fun key hkey => ?_) ih
    simpa [Transaction.answer, Signers.contains] using hkey
  | after slot =>
    rw [HoldsAt]
    exact Transaction.of_answer_after ht h
  | before slot =>
    rw [HoldsAt]
    exact Transaction.of_answer_before ht h

end NativeScript

/-- Signed by one key, for the slots from 10 to 19. -/
def Transaction.tenSlots : Transaction :=
  ⟨.ofList [⟨List.replicate hashLength 7, rfl⟩], ⟨some 10, some 20⟩⟩

/-- Only the second and the fourth script fall short. -/
def NativeScript.twoOfFour : NativeScript :=
  .multisig (.atLeast 2
    [.multisig (.sig ⟨List.replicate hashLength 7, rfl⟩),
     .multisig (.sig ⟨List.replicate hashLength 8, rfl⟩),
     .multisig (.all [.after 10, .before 20]), .after 11])

theorem twoOfFour_holdsAt_first :
    Transaction.tenSlots.validity.Admits 10 ∧
      NativeScript.twoOfFour.eval Transaction.tenSlots.answer = true ∧
      NativeScript.twoOfFour.HoldsAt (fun key => key ∈ Transaction.tenSlots.signers.keys) 10 := by
  have hadmits : Transaction.tenSlots.validity.Admits 10 := by
    constructor
    · intro first h
      cases h
      decide
    · intro bound h
      cases h
      decide
  have heval : NativeScript.twoOfFour.eval Transaction.tenSlots.answer = true := by decide
  exact ⟨hadmits, heval, NativeScript.holdsAt_of_eval hadmits heval⟩

end NativeScripts

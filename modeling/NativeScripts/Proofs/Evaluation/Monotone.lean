import NativeScripts.Proofs.Evaluation.SlotVerdict

/-! Verdicts and the answers they rest on. A script asks about the keys and slots that stand
in it and about nothing else, and where no becomes yes among these answers, its verdict
never turns from true to false. -/

namespace NativeScripts

section Layers

variable {α : Type} {signed signed' : KeyHash → Bool} {verdict verdict' : α → Bool}

theorem Multisig.holds_mono {m : Multisig α}
    (hsigned : ∀ key, m = .sig key → signed key = true → signed' key = true)
    (each : ∀ c ∈ m.children, verdict c = true → verdict' c = true)
    (h : (m.map verdict).holds signed = true) : (m.map verdict').holds signed' = true := by
  cases m with
  | sig key => exact hsigned key rfl h
  | all scripts =>
    have hall := holds_map_all.mp h
    exact holds_map_all.mpr fun c hc => each c hc (hall c hc)
  | any scripts =>
    obtain ⟨c, hc, hv⟩ := holds_map_any.mp h
    exact holds_map_any.mpr ⟨c, hc, each c hc hv⟩
  | atLeast required scripts =>
    have hcount : required.toNat ≤ scripts.countP verdict := holds_map_atLeast.mp h
    have hmono : scripts.countP verdict ≤ scripts.countP verdict' := List.countP_mono_left each
    exact holds_map_atLeast.mpr (hcount.trans hmono)

def Multisig.mentioned : Multisig (List Question) → List Question
  | .sig key => [.signedBy key]
  | .all parts => parts.flatten
  | .any parts => parts.flatten
  | .atLeast _ parts => parts.flatten

end Layers

namespace NativeScript

/-- A question for every key and every slot in the script. -/
def mentioned : NativeScript → List Question :=
  fold Multisig.mentioned (fun slot => [.after slot]) (fun slot => [.before slot])

theorem mentioned_child {layer : Multisig NativeScript} {s : NativeScript} {q : Question}
    (hs : s ∈ layer.children) (hq : q ∈ s.mentioned) : q ∈ mentioned (.multisig layer) := by
  have hpart : s.mentioned ∈ layer.children.map mentioned := List.mem_map_of_mem hs
  rw [mentioned, fold_multisig]
  cases layer with
  | sig key => cases hs
  | all scripts | any scripts | atLeast required scripts =>
    exact List.mem_flatten.mpr ⟨s.mentioned, hpart, hq⟩

theorem eval_mono {s : NativeScript} {c c' : Context}
    (hle : ∀ q ∈ s.mentioned, c q = true → c' q = true) (h : s.eval c = true) :
    s.eval c' = true := by
  induction s with
  | multisig layer ih =>
    rw [eval_multisig] at h ⊢
    refine Multisig.holds_mono (fun key hkey => ?_) (fun s hs => ?_) h
    · subst hkey
      exact hle (.signedBy key) List.mem_cons_self
    · exact ih s hs fun q hq => hle q (mentioned_child hs hq)
  | after slot => exact hle (.after slot) List.mem_cons_self h
  | before slot => exact hle (.before slot) List.mem_cons_self h

theorem eval_congr {s : NativeScript} {c c' : Context} (h : ∀ q ∈ s.mentioned, c q = c' q) :
    s.eval c = s.eval c' := by
  have hle : ∀ q ∈ s.mentioned, c q = true → c' q = true := fun q hq hc => h q hq ▸ hc
  have hge : ∀ q ∈ s.mentioned, c' q = true → c q = true := fun q hq hc => h q hq ▸ hc
  exact Bool.eq_iff_iff.mpr ⟨eval_mono hle, eval_mono hge⟩

end NativeScript

namespace Transaction

variable {c c' : Transaction}

/-- Nobody who signed is missing, the first bound is no earlier than it was and the second
no later, and a bound that was left open may have been set. -/
structure Tightens (c c' : Transaction) : Prop where
  signed : ∀ key ∈ c.signers.keys, key ∈ c'.signers.keys
  first : ∀ a, c.validity.invalidBefore = some a →
    ∃ b, c'.validity.invalidBefore = some b ∧ a ≤ b
  bound : ∀ a, c.validity.invalidHereafter = some a →
    ∃ b, c'.validity.invalidHereafter = some b ∧ b ≤ a

theorem tightens_sign (h : c.Tightens c') (key : KeyHash) : c.Tightens (c'.sign key) where
  signed k hk := Signers.mem_insertKey.mpr (.inr (h.signed k hk))
  first := h.first
  bound := h.bound

theorem answer_mono (h : c.Tightens c') {q : Question} (hq : c.answer q = true) :
    c'.answer q = true := by
  cases q with
  | signedBy key => exact answer_signedBy.mpr (h.signed key (answer_signedBy.mp hq))
  | after slot =>
    obtain ⟨a, ha, hslot⟩ := answer_after.mp hq
    obtain ⟨b, hb, hab⟩ := h.first a ha
    exact answer_after.mpr ⟨b, hb, UInt64.le_trans hslot hab⟩
  | before slot =>
    obtain ⟨a, ha, hslot⟩ := answer_before.mp hq
    obtain ⟨b, hb, hba⟩ := h.bound a ha
    exact answer_before.mpr ⟨b, hb, UInt64.le_trans hba hslot⟩

end Transaction

/-- Where all that a script mentions is answered with yes as before, it holds as before, and
where the answers are the same, so is the verdict. More signers and tighter bounds make no
script fail. -/
theorem verdict_rests_on_mentioned (s : NativeScript) :
    (∀ c c' : Context, (∀ q ∈ s.mentioned, c q = true → c' q = true) →
      s.eval c = true → s.eval c' = true) ∧
    (∀ c c' : Context, (∀ q ∈ s.mentioned, c q = c' q) → s.eval c = s.eval c') ∧
    ∀ c c' : Transaction, c.Tightens c' → s.eval c.answer = true → s.eval c'.answer = true :=
  ⟨fun _ _ => NativeScript.eval_mono, fun _ _ => NativeScript.eval_congr,
    fun _ _ h => NativeScript.eval_mono fun _ _ => Transaction.answer_mono h⟩

def Transaction.nineSlots : Transaction :=
  Transaction.tenSlots.during ⟨some 10, some 19⟩

/-- Signed by a second key, for the slots from 12 to 14. -/
def Transaction.threeSlots : Transaction :=
  (Transaction.tenSlots.during ⟨some 12, some 15⟩).sign (.filled 8)

theorem twoOfFour_keeps_verdict :
    NativeScript.twoOfFour.eval Transaction.tenSlots.answer = true ∧
    NativeScript.twoOfFour.eval (fun q => q ∈ NativeScript.twoOfFour.mentioned) = true ∧
    NativeScript.twoOfFour.eval Transaction.tenSlots.answer =
      NativeScript.twoOfFour.eval Transaction.nineSlots.answer ∧
    Transaction.tenSlots.Tightens Transaction.threeSlots ∧
    NativeScript.twoOfFour.eval Transaction.threeSlots.answer = true := by
  have heval : NativeScript.twoOfFour.eval Transaction.tenSlots.answer = true := by decide
  have hyes : ∀ q ∈ NativeScript.twoOfFour.mentioned, Transaction.tenSlots.answer q = true →
      decide (q ∈ NativeScript.twoOfFour.mentioned) = true := by decide
  -- the bounds differ, but no slot in the script lies between them
  have hsame : ∀ q ∈ NativeScript.twoOfFour.mentioned,
      Transaction.tenSlots.answer q = Transaction.nineSlots.answer q := by decide
  have hduring : Transaction.tenSlots.Tightens
      (Transaction.tenSlots.during ⟨some 12, some 15⟩) := by
    refine ⟨fun _ hkey => hkey, fun a ha => ⟨12, rfl, ?_⟩, fun a ha => ⟨15, rfl, ?_⟩⟩
    · cases ha
      decide
    · cases ha
      decide
  have htight : Transaction.tenSlots.Tightens Transaction.threeSlots :=
    Transaction.tightens_sign hduring _
  have hrests := verdict_rests_on_mentioned NativeScript.twoOfFour
  exact ⟨heval, hrests.1 _ _ hyes heval, hrests.2.1 _ _ hsame, htight,
    hrests.2.2 _ _ htight heval⟩

end NativeScripts

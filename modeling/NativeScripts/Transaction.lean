import NativeScripts.NativeScript
import NativeScripts.Signers

/-! What a script may ask about a transaction. A bound that is left open meets
no time lock. -/

namespace NativeScripts

inductive Question where
  | signedBy (key : KeyHash)
  | after (slot : Slot)
  | before (slot : Slot)
  deriving DecidableEq

/-- An answer to every question. -/
abbrev Context := Question → Bool

/-- The slots in which a transaction may stand: none before the first bound,
and none from the second on. -/
structure Validity where
  invalidBefore : Option Slot
  invalidHereafter : Option Slot
  deriving DecidableEq

def Validity.unbounded : Validity := ⟨none, none⟩

structure Transaction where
  signers : Signers
  validity : Validity
  deriving DecidableEq

namespace Transaction

def empty : Transaction := ⟨.empty, .unbounded⟩

def sign (c : Transaction) (key : KeyHash) : Transaction :=
  ⟨c.signers.insert key, c.validity⟩

def during (c : Transaction) (validity : Validity) : Transaction :=
  ⟨c.signers, validity⟩

/-- A transaction is after a slot if it is invalid in every earlier one, and
before a slot if it is invalid from that one on. -/
def answer (c : Transaction) : Context
  | .signedBy key => c.signers.contains key
  | .after slot =>
    match c.validity.invalidBefore with
    | some first => slot ≤ first
    | none => false
  | .before slot =>
    match c.validity.invalidHereafter with
    | some bound => bound ≤ slot
    | none => false

theorem answer_signedBy {c : Transaction} {key : KeyHash} :
    c.answer (.signedBy key) = true ↔ key ∈ c.signers.keys := by
  simp [answer, Signers.contains]

theorem answer_after {c : Transaction} {slot : Slot} :
    c.answer (.after slot) = true ↔
      ∃ first, c.validity.invalidBefore = some first ∧ slot ≤ first := by
  rw [answer]
  cases c.validity.invalidBefore <;> simp

theorem answer_before {c : Transaction} {slot : Slot} :
    c.answer (.before slot) = true ↔
      ∃ bound, c.validity.invalidHereafter = some bound ∧ bound ≤ slot := by
  rw [answer]
  cases c.validity.invalidHereafter <;> simp

end Transaction

end NativeScripts

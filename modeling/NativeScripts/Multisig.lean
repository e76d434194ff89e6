import NativeScripts.Kind
import NativeScripts.Hash
import NativeScripts.Reading

/-! One layer of a script that has no time lock at its top. What stands in the
place of the scripts below it is left open: whole scripts, their verdicts or
their encodings. -/

namespace NativeScripts

inductive Multisig (α : Type) where
  | sig (key : KeyHash)
  | all (scripts : List α)
  | any (scripts : List α)
  | atLeast (required : UInt64) (scripts : List α)
  deriving DecidableEq

namespace Multisig

variable {α β ε : Type}

def kind : Multisig α → Kind
  | .sig _ => .sig
  | .all _ => .all
  | .any _ => .any
  | .atLeast _ _ => .atLeast

def children : Multisig α → List α
  | .sig _ => []
  | .all scripts => scripts
  | .any scripts => scripts
  | .atLeast _ scripts => scripts

def map (f : α → β) : Multisig α → Multisig β
  | .sig key => .sig key
  | .all scripts => .all (scripts.map f)
  | .any scripts => .any (scripts.map f)
  | .atLeast required scripts => .atLeast required (scripts.map f)

@[simp] theorem children_map (f : α → β) (m : Multisig α) :
    (m.map f).children = m.children.map f := by
  cases m <;> rfl

theorem map_map {γ : Type} (g : β → γ) (f : α → β) (m : Multisig α) :
    (m.map f).map g = m.map fun c => g (f c) := by
  cases m <;> simp [map]

theorem map_congr {f g : α → β} {m : Multisig α} (h : ∀ c ∈ m.children, f c = g c) :
    m.map f = m.map g := by
  cases m with
  | sig key => rfl
  | all scripts => exact congrArg all (List.map_congr_left h)
  | any scripts => exact congrArg any (List.map_congr_left h)
  | atLeast required scripts => exact congrArg (atLeast required) (List.map_congr_left h)

theorem sizeOf_lt_of_mem_children {m : Multisig α} {c : α} [SizeOf α] (h : c ∈ m.children) :
    sizeOf c < sizeOf m := by
  cases m with
  | sig key => cases h
  | all scripts | any scripts | atLeast required scripts =>
    have hlt := List.sizeOf_lt_of_mem h
    simp only [children, all.sizeOf_spec, any.sizeOf_spec, atLeast.sizeOf_spec] at hlt ⊢
    omega

/-- The same layer, in which each child knows that it is one. -/
def attach : (m : Multisig α) → Multisig { c // c ∈ m.children }
  | .sig key => .sig key
  | .all scripts => .all scripts.attach
  | .any scripts => .any scripts.attach
  | .atLeast required scripts => .atLeast required scripts.attach

/-- Reads the children in order, up to the first fault. -/
def traverse (read : α → Except ε β) : Multisig α → Except ε (Multisig β)
  | .sig key => .ok (.sig key)
  | .all scripts => (readEach read scripts).map .all
  | .any scripts => (readEach read scripts).map .any
  | .atLeast required scripts => (readEach read scripts).map (.atLeast required)

theorem traverse_attach (m : Multisig α) (read : α → Except ε β) :
    (m.attach.traverse fun c => read c.1) = m.traverse read := by
  cases m <;> simp only [attach, traverse, children, readEach_attach]

/-- The number of fields in an array that holds the layer. -/
def fieldCount : Multisig α → Nat
  | .sig _ => 2
  | .all _ => 2
  | .any _ => 2
  | .atLeast _ _ => 3

@[simp] theorem fieldCount_map (f : α → β) (m : Multisig α) :
    (m.map f).fieldCount = m.fieldCount := by
  cases m <;> rfl

/-- Whether the condition holds, given who has signed and which of the scripts
below hold. A threshold beyond their number is never reached. -/
def holds (signed : KeyHash → Bool) : Multisig Bool → Bool
  | .sig key => signed key
  | .all verdicts => verdicts.all id
  | .any verdicts => verdicts.any id
  | .atLeast required verdicts => required.toNat ≤ verdicts.count true

section Holds

variable {signed : KeyHash → Bool} {verdict : α → Bool} {scripts : List α}

theorem holds_map_all :
    ((all scripts).map verdict).holds signed = true ↔ ∀ c ∈ scripts, verdict c = true := by
  simp [map, holds]

theorem holds_map_any :
    ((any scripts).map verdict).holds signed = true ↔ ∃ c ∈ scripts, verdict c = true := by
  simp [map, holds]

theorem holds_map_atLeast {required : UInt64} :
    ((atLeast required scripts).map verdict).holds signed = true ↔
      required.toNat ≤ scripts.countP verdict := by
  simp [map, holds, List.count, List.countP_map, Function.comp_def]

end Holds

end Multisig

end NativeScripts

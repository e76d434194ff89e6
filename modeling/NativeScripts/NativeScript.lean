import NativeScripts.Multisig

/-! Scripts as trees. A time lock is a leaf, and every other node is a layer
whose children are scripts again. -/

namespace NativeScripts

abbrev Slot := UInt64

inductive NativeScript where
  | multisig (layer : Multisig NativeScript)
  | after (slot : Slot)
  | before (slot : Slot)

namespace NativeScript

def kind : NativeScript → Kind
  | .multisig layer => layer.kind
  | .after _ => .after
  | .before _ => .before

def children : NativeScript → List NativeScript
  | .multisig layer => layer.children
  | .after _ => []
  | .before _ => []

/-- What every tree has if it passes from the children of a layer to the layer. -/
@[elab_as_elim, induction_eliminator]
theorem induct {P : NativeScript → Prop}
    (multisig : ∀ layer, (∀ c ∈ layer.children, P c) → P (.multisig layer))
    (after : ∀ slot, P (.after slot)) (before : ∀ slot, P (.before slot)) (s : NativeScript) :
    P s :=
  match s with
  | .multisig layer => multisig layer fun c _ => induct multisig after before c
  | .after slot => after slot
  | .before slot => before slot
termination_by sizeOf s
decreasing_by
  have hlt := Multisig.sizeOf_lt_of_mem_children ‹_›
  simp only [NativeScript.multisig.sizeOf_spec]
  omega

section Fold

variable {α : Type} (onMultisig : Multisig α → α) (onAfter onBefore : Slot → α)

mutual

/-- The value of a tree, made from the values of the subtrees. -/
def fold : NativeScript → α
  | .multisig layer => onMultisig (foldLayer layer)
  | .after slot => onAfter slot
  | .before slot => onBefore slot

def foldLayer : Multisig NativeScript → Multisig α
  | .sig key => .sig key
  | .all scripts => .all (foldEach scripts)
  | .any scripts => .any (foldEach scripts)
  | .atLeast required scripts => .atLeast required (foldEach scripts)

def foldEach : List NativeScript → List α
  | [] => []
  | script :: scripts => fold script :: foldEach scripts

end

theorem foldEach_eq_map (scripts : List NativeScript) :
    foldEach onMultisig onAfter onBefore scripts =
      scripts.map (fold onMultisig onAfter onBefore) := by
  induction scripts with
  | nil => rfl
  | cons s ss ih => rw [foldEach, ih, List.map_cons]

theorem fold_multisig (layer : Multisig NativeScript) :
    fold onMultisig onAfter onBefore (.multisig layer) =
      onMultisig (layer.map (fold onMultisig onAfter onBefore)) := by
  cases layer <;> simp only [fold, foldLayer, foldEach_eq_map, Multisig.map]

end Fold

mutual

def decEq : (a b : NativeScript) → Decidable (a = b)
  | .multisig a, .multisig b =>
    match decEqLayer a b with
    | isTrue h => isTrue (by rw [h])
    | isFalse h => isFalse fun e => h (by injection e)
  | .after a, .after b =>
    if h : a = b then isTrue (by rw [h]) else isFalse fun e => h (by injection e)
  | .before a, .before b =>
    if h : a = b then isTrue (by rw [h]) else isFalse fun e => h (by injection e)
  | .multisig _, .after _ => isFalse fun e => by cases e
  | .multisig _, .before _ => isFalse fun e => by cases e
  | .after _, .multisig _ => isFalse fun e => by cases e
  | .after _, .before _ => isFalse fun e => by cases e
  | .before _, .multisig _ => isFalse fun e => by cases e
  | .before _, .after _ => isFalse fun e => by cases e

def decEqLayer : (a b : Multisig NativeScript) → Decidable (a = b)
  | .sig a, .sig b =>
    if h : a = b then isTrue (by rw [h]) else isFalse fun e => h (by injection e)
  | .all a, .all b =>
    match decEqEach a b with
    | isTrue h => isTrue (by rw [h])
    | isFalse h => isFalse fun e => h (by injection e)
  | .any a, .any b =>
    match decEqEach a b with
    | isTrue h => isTrue (by rw [h])
    | isFalse h => isFalse fun e => h (by injection e)
  | .atLeast m a, .atLeast n b =>
    if hn : m = n then
      match decEqEach a b with
      | isTrue h => isTrue (by rw [hn, h])
      | isFalse h => isFalse fun e => h (by injection e)
    else isFalse fun e => hn (by injection e)
  | .sig _, .all _ => isFalse fun e => by cases e
  | .sig _, .any _ => isFalse fun e => by cases e
  | .sig _, .atLeast _ _ => isFalse fun e => by cases e
  | .all _, .sig _ => isFalse fun e => by cases e
  | .all _, .any _ => isFalse fun e => by cases e
  | .all _, .atLeast _ _ => isFalse fun e => by cases e
  | .any _, .sig _ => isFalse fun e => by cases e
  | .any _, .all _ => isFalse fun e => by cases e
  | .any _, .atLeast _ _ => isFalse fun e => by cases e
  | .atLeast _ _, .sig _ => isFalse fun e => by cases e
  | .atLeast _ _, .all _ => isFalse fun e => by cases e
  | .atLeast _ _, .any _ => isFalse fun e => by cases e

def decEqEach : (a b : List NativeScript) → Decidable (a = b)
  | [], [] => isTrue rfl
  | [], _ :: _ => isFalse fun e => by cases e
  | _ :: _, [] => isFalse fun e => by cases e
  | a :: as, b :: bs =>
    match decEq a b with
    | isTrue h =>
      match decEqEach as bs with
      | isTrue hs => isTrue (by rw [h, hs])
      | isFalse hs => isFalse fun e => hs (by injection e)
    | isFalse h => isFalse fun e => h (by injection e)

end

instance : DecidableEq NativeScript := decEq

end NativeScript

end NativeScripts

import NativeScripts.NativeScript

/-! Scripts without time locks. Each of them is a native script too, and none
is lost by looking at it as one. -/

namespace NativeScripts

inductive ShelleyScript where
  | mk (layer : Multisig ShelleyScript)

namespace ShelleyScript

def layer : ShelleyScript → Multisig ShelleyScript
  | .mk layer => layer

def kind (s : ShelleyScript) : Kind :=
  s.layer.kind

def children (s : ShelleyScript) : List ShelleyScript :=
  s.layer.children

/-- What every tree has if it passes from the children of a layer to the layer. -/
@[elab_as_elim, induction_eliminator]
theorem induct {P : ShelleyScript → Prop}
    (mk : ∀ layer, (∀ c ∈ layer.children, P c) → P (.mk layer)) (s : ShelleyScript) : P s :=
  match s with
  | .mk layer => mk layer fun c _ => induct mk c
termination_by sizeOf s
decreasing_by
  have hlt := Multisig.sizeOf_lt_of_mem_children ‹_›
  simp only [ShelleyScript.mk.sizeOf_spec]
  omega

section Fold

variable {α : Type} (onMultisig : Multisig α → α)

mutual

/-- The value of a tree, made from the values of the subtrees. -/
def fold : ShelleyScript → α
  | .mk layer => onMultisig (foldLayer layer)

def foldLayer : Multisig ShelleyScript → Multisig α
  | .sig key => .sig key
  | .all scripts => .all (foldEach scripts)
  | .any scripts => .any (foldEach scripts)
  | .atLeast required scripts => .atLeast required (foldEach scripts)

def foldEach : List ShelleyScript → List α
  | [] => []
  | script :: scripts => fold script :: foldEach scripts

end

theorem foldEach_eq_map (scripts : List ShelleyScript) :
    foldEach onMultisig scripts = scripts.map (fold onMultisig) := by
  induction scripts with
  | nil => rfl
  | cons s ss ih => rw [foldEach, ih, List.map_cons]

theorem fold_mk (layer : Multisig ShelleyScript) :
    fold onMultisig (.mk layer) = onMultisig (layer.map (fold onMultisig)) := by
  cases layer <;> simp only [fold, foldLayer, foldEach_eq_map, Multisig.map]

end Fold

def lift : ShelleyScript → NativeScript :=
  fold .multisig

theorem lift_mk (layer : Multisig ShelleyScript) : lift (.mk layer) = .multisig (layer.map lift) :=
  fold_mk _ layer

mutual

theorem lift_inj : (a b : ShelleyScript) → a.lift = b.lift → a = b
  | .mk a, .mk b, h => by
    rw [lift, fold, fold] at h
    injection h with h
    rw [foldLayer_inj a b h]

theorem foldLayer_inj : (a b : Multisig ShelleyScript) →
    foldLayer NativeScript.multisig a = foldLayer NativeScript.multisig b → a = b
  | .sig a, b, h => by
    cases b with
    | sig b => simpa [foldLayer] using h
    | all _ => simp [foldLayer] at h
    | any _ => simp [foldLayer] at h
    | atLeast _ _ => simp [foldLayer] at h
  | .all as, b, h => by
    cases b with
    | all bs =>
      rw [foldLayer, foldLayer] at h
      injection h with h
      rw [foldEach_inj as bs h]
    | sig _ => simp [foldLayer] at h
    | any _ => simp [foldLayer] at h
    | atLeast _ _ => simp [foldLayer] at h
  | .any as, b, h => by
    cases b with
    | any bs =>
      rw [foldLayer, foldLayer] at h
      injection h with h
      rw [foldEach_inj as bs h]
    | sig _ => simp [foldLayer] at h
    | all _ => simp [foldLayer] at h
    | atLeast _ _ => simp [foldLayer] at h
  | .atLeast m as, b, h => by
    cases b with
    | atLeast n bs =>
      rw [foldLayer, foldLayer] at h
      injection h with hn h
      rw [hn, foldEach_inj as bs h]
    | sig _ => simp [foldLayer] at h
    | all _ => simp [foldLayer] at h
    | any _ => simp [foldLayer] at h

theorem foldEach_inj : (as bs : List ShelleyScript) →
    foldEach NativeScript.multisig as = foldEach NativeScript.multisig bs → as = bs
  | [], bs, h => by
    cases bs with
    | nil => rfl
    | cons _ _ => simp [foldEach] at h
  | a :: as, bs, h => by
    cases bs with
    | nil => simp [foldEach] at h
    | cons b bs =>
      rw [foldEach, foldEach] at h
      injection h with h hs
      rw [lift_inj a b h, foldEach_inj as bs hs]

end

instance : DecidableEq ShelleyScript := fun a b =>
  decidable_of_iff (a.lift = b.lift) ⟨lift_inj a b, congrArg lift⟩

end ShelleyScript

end NativeScripts

import NativeScripts.Proofs.Script.Description
import NativeScripts.ScriptFault

/-! Layers over children of any kind. Whatever reads the children, it reads back what was
written for a layer if it reads back the children, and the first child that it refuses
decides how the layer is refused. -/

namespace NativeScripts

namespace Multisig

variable {α ε : Type} {fault : JsonFault → ε} {read : Json → Except ε α}

theorem ofJsonWith_toJson {write : α → Json} {m : Multisig α}
    (h : ∀ c ∈ m.children, read (write c) = .ok c) :
    ofJsonWith fault read (m.map write).toJson = .ok m :=
  ofJsonWith_eq_ok.mpr (described_toJson h)

/-- What becomes of a layer over values once each of these is read. -/
structure FollowsReader (read : Json → Except ε α) (layer : Multisig Json)
    (result : Except ε (Multisig α)) : Prop where
  ok : ∀ m, result = .ok m ↔ Pointwise (fun w c => read w = .ok c) layer m
  isOk : (∃ m, result = .ok m) ↔ ∀ w ∈ layer.children, ∃ c, read w = .ok c
  error : ∀ e, result = .error e ↔ ∃ before w after, layer.children = before ++ w :: after ∧
    (∀ b ∈ before, ∃ c, read b = .ok c) ∧ read w = .error e

theorem followsReader_traverse (layer : Multisig Json) :
    FollowsReader read layer (layer.traverse read) where
  ok _ := traverse_eq_ok_iff
  isOk := traverse_isOk
  error _ := traverse_eq_error.trans readEach_eq_error_iff

theorem followsReader_ofJsonWith {v : Json} {layer : Multisig Json} (h : Described Eq v layer) :
    FollowsReader read layer (ofJsonWith fault read v) := by
  rw [ofJsonWith_of_described h]
  exact followsReader_traverse layer

end Multisig

/-- With any reader of the children a layer is read back from what any fitting writer wrote,
and of an object for a layer over values the reader alone decides what is read. Read with
the reader of whole scripts, a layer is the one that the script of the object has on top. -/
theorem layers_follow_child_reader :
    (∀ (α ε : Type) (fault : JsonFault → ε) (write : α → Json) (read : Json → Except ε α)
      (m : Multisig α), (∀ c ∈ m.children, read (write c) = .ok c) →
        Multisig.ofJsonWith fault read (m.map write).toJson = .ok m) ∧
    (∀ (α ε : Type) (fault : JsonFault → ε) (read : Json → Except ε α) (v : Json)
      (layer : Multisig Json), Multisig.Described Eq v layer →
        Multisig.FollowsReader read layer (Multisig.ofJsonWith fault read v)) ∧
    ∀ (v : Json) (m : Multisig NativeScript),
      Multisig.ofJsonWith id NativeScript.ofJson v = .ok m ↔
        NativeScript.ofJson v = .ok (.multisig m) :=
  ⟨fun _ _ _ _ _ _ => Multisig.ofJsonWith_toJson,
    fun _ _ _ _ _ _ => Multisig.followsReader_ofJsonWith,
    fun _ _ => NativeScript.ofJson_eq_multisig.symm⟩

/-- A child that is no more than a text. -/
def Json.readLabel (v : Json) : Except ScriptFault String :=
  match v.asString? with
  | some label => .ok label
  | none => .error (.config .unreadable)

def Multisig.labels : Multisig String :=
  .atLeast 5 ["one", "two", "one"]

/-- Labels with other values between them. -/
def Multisig.mixedLabels : Multisig Json :=
  .any [.string "one", .null, .string "two", .integer 7]

theorem labels_follow_reader :
    ((∀ c ∈ Multisig.labels.children, (Json.string c).readLabel = .ok c) ∧
      Multisig.ofJsonWith .malformedJson Json.readLabel (Multisig.labels.map .string).toJson =
        .ok .labels) ∧
    Multisig.Described Eq Multisig.mixedLabels.toJson .mixedLabels ∧
      Multisig.ofJsonWith .malformedJson Json.readLabel Multisig.mixedLabels.toJson =
        .error (.config .unreadable) := by
  obtain ⟨hwritten, hread, -⟩ := layers_follow_child_reader
  have heach : ∀ c ∈ Multisig.labels.children, (Json.string c).readLabel = .ok c := fun _ _ => rfl
  have hdescribed : Multisig.Described Eq Multisig.mixedLabels.toJson .mixedLabels :=
    .any rfl rfl (List.forall₂_refl _)
  have hone : ∀ b ∈ [Json.string "one"], ∃ label, b.readLabel = .ok label :=
    List.forall_mem_singleton.mpr ⟨"one", rfl⟩
  refine ⟨⟨heach, hwritten _ _ _ _ _ _ heach⟩, hdescribed, ?_⟩
  exact ((hread _ _ .malformedJson _ _ _ hdescribed).error _).mpr ⟨_, .null, _, rfl, hone, rfl⟩

end NativeScripts

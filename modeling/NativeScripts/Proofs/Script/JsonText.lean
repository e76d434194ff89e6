import NativeScripts.Proofs.Json.Pretty
import NativeScripts.Proofs.Script.Description

/-! Scripts as JSON text. Descriptions hold no number that the text could change,
so a script is read back from its text as it is from its description. -/

namespace NativeScripts

open Json (Exact)
open JsonForm

theorem Json.exact_ofWord (n : UInt64) : Exact (.ofWord n) := by
  have hn := n.toNat_lt
  refine .integer ⟨by omega, ?_⟩
  rw [UInt64.size]
  omega

theorem JsonForm.exact_ofSlot (kind : Kind) (slot : Slot) : Exact (ofSlot kind slot) := by
  refine .object (Json.ascending_of_names ["slot", "type"] rfl (by decide)) ?_
  simp [typed, Json.exact_ofWord, Exact.string]

theorem Multisig.exact_toJson {m : Multisig Json} (h : ∀ c ∈ m.children, Exact c) :
    Exact m.toJson := by
  cases m with
  | sig key =>
    refine .object (Json.ascending_of_names ["keyHash", "type"] rfl (by decide)) ?_
    simp [typed, Exact.string]
  | all scripts | any scripts =>
    have hs : Exact (.array scripts) := .array h
    refine .object (Json.ascending_of_names ["scripts", "type"] rfl (by decide)) ?_
    simp [typed, hs, Exact.string]
  | atLeast required scripts =>
    have hs : Exact (.array scripts) := .array h
    refine .object (Json.ascending_of_names ["required", "scripts", "type"] rfl (by decide)) ?_
    simp [typed, hs, Json.exact_ofWord, Exact.string]

namespace NativeScript

theorem exact_toJson (s : NativeScript) : Exact s.toJson := by
  induction s with
  | multisig layer ih =>
    rw [toJson_multisig]
    apply Multisig.exact_toJson
    rw [Multisig.children_map]
    exact List.forall_mem_map.mpr ih
  | after slot => exact exact_ofSlot .after slot
  | before slot => exact exact_ofSlot .before slot

theorem parse_compact (s : NativeScript) : parse s.toJson.compact = .ok s := by
  rw [parse, Json.read?_compact s.exact_toJson]
  exact ofJson_toJson s

theorem parse_pretty (s : NativeScript) {after : List Char} (ha : Json.Blanks after) :
    parse (s.toJson.pretty ++ String.ofList after) = .ok s := by
  rw [parse, Json.read?_pretty s.exact_toJson ha]
  exact ofJson_toJson s

end NativeScript

theorem ShelleyScript.parse_compact (s : ShelleyScript) : parse s.toJson.compact = .ok s := by
  have he : Exact s.toJson := s.toJson_lift ▸ s.lift.exact_toJson
  rw [parse, Json.read?_compact he]
  exact ofJson_toJson s

theorem NativeScript.compact_toJson_inj {s t : NativeScript} :
    s.toJson.compact = t.toJson.compact ↔ s = t := by
  constructor
  · intro h
    have hs := s.parse_compact
    rw [h, t.parse_compact, Except.ok.injEq] at hs
    exact hs.symm
  · rintro rfl
    rfl

/-- Scripts are read back from their descriptions and from the texts of these. Scripts
with one text are one script. -/
theorem descriptions_read_back :
    (∀ s : NativeScript, NativeScript.ofJson s.toJson = .ok s ∧
      NativeScript.parse s.toJson.compact = .ok s) ∧
    (∀ s : ShelleyScript, ShelleyScript.ofJson s.toJson = .ok s ∧
      ShelleyScript.parse s.toJson.compact = .ok s) ∧
    ∀ s t : NativeScript, s.toJson.compact = t.toJson.compact ↔ s = t :=
  ⟨fun s => ⟨s.ofJson_toJson, s.parse_compact⟩, fun s => ⟨s.ofJson_toJson, s.parse_compact⟩,
    fun _ _ => NativeScript.compact_toJson_inj⟩

end NativeScripts

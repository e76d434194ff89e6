import NativeScripts.Proofs.Hex
import NativeScripts.Proofs.Pointwise
import NativeScripts.Script.JsonForm

/-! The grammar of scripts in JSON. It looks at no field but those that the type of
an object calls for, and what it relates to a script is read as that script. -/

namespace NativeScripts

open Json (Fields get?)
open List (Forall₂)

/-- An object for a layer, in which `child` relates the items of `scripts` to the children. -/
inductive Multisig.Described {α : Type} (child : Json → α → Prop) : Json → Multisig α → Prop where
  | sig {fields : Fields} {text : String} {key : KeyHash}
      (ht : get? fields "type" = some (.string "sig"))
      (hk : get? fields "keyHash" = some (.string text)) (hl : text.length = 56)
      (hd : Hex.Spelled text.toList key.bytes) : Described child (.object fields) (.sig key)
  | all {fields : Fields} {items : List Json} {scripts : List α}
      (ht : get? fields "type" = some (.string "all"))
      (hs : get? fields "scripts" = some (.array items)) (each : Forall₂ child items scripts) :
      Described child (.object fields) (.all scripts)
  | any {fields : Fields} {items : List Json} {scripts : List α}
      (ht : get? fields "type" = some (.string "any"))
      (hs : get? fields "scripts" = some (.array items)) (each : Forall₂ child items scripts) :
      Described child (.object fields) (.any scripts)
  | atLeast {fields : Fields} {items : List Json} {scripts : List α} {required : UInt64}
      (ht : get? fields "type" = some (.string "atLeast"))
      (hr : get? fields "required" = some (.integer required.toNat))
      (hs : get? fields "scripts" = some (.array items)) (each : Forall₂ child items scripts) :
      Described child (.object fields) (.atLeast required scripts)

inductive NativeScript.Described : Json → NativeScript → Prop where
  | multisig {v : Json} {layer : Multisig NativeScript} (h : Multisig.Described Described v layer) :
      Described v (.multisig layer)
  | after {fields : Fields} {slot : Slot} (ht : get? fields "type" = some (.string "after"))
      (hs : get? fields "slot" = some (.integer slot.toNat)) :
      Described (.object fields) (.after slot)
  | before {fields : Fields} {slot : Slot} (ht : get? fields "type" = some (.string "before"))
      (hs : get? fields "slot" = some (.integer slot.toNat)) :
      Described (.object fields) (.before slot)

theorem Json.asString?_eq_some {v : Json} {s : String} : v.asString? = some s ↔ v = .string s := by
  cases v <;> simp [asString?]

theorem Json.asWord?_eq_some {v : Json} {n : UInt64} :
    v.asWord? = some n ↔ v = .integer n.toNat := by
  cases v with
  | integer i =>
    rw [Json.integer.injEq, ← ofNat_toNat_eq_iff, asWord?]
    split
    · rename_i h
      rw [Option.some.injEq, and_iff_right h]
    · rename_i h
      simp only [h, false_and, reduceCtorEq]
  | _ => simp [asWord?]

namespace JsonForm

variable {fields : Fields}

theorem fieldsOf_eq_ok {v : Json} : fieldsOf v = .ok fields ↔ v = .object fields := by
  cases v <;> simp [fieldsOf]

theorem textAt_eq_some {name s : String} :
    (get? fields name).bind Json.asString? = some s ↔ get? fields name = some (.string s) := by
  simp [Option.bind_eq_some_iff, Json.asString?_eq_some]

theorem wordAt_eq_some {name : String} {n : UInt64} :
    (get? fields name).bind Json.asWord? = some n ↔
      get? fields name = some (.integer n.toNat) := by
  simp [Option.bind_eq_some_iff, Json.asWord?_eq_some]

theorem typeName_eq_ok {name : String} :
    typeName fields = .ok name ↔ get? fields "type" = some (.string name) := by
  rw [← textAt_eq_some, typeName]
  cases (get? fields "type").bind Json.asString? <;> simp

theorem keyHashOf_eq_ok {key : KeyHash} :
    keyHashOf fields = .ok key ↔
      ∃ text, get? fields "keyHash" = some (.string text) ∧
        Hex.Spelled text.toList key.bytes := by
  simp only [← textAt_eq_some, ← Hash.ofHex_eq_ok, keyHashOf]
  cases (get? fields "keyHash").bind Json.asString? with
  | none => simp
  | some text => cases h : (Hash.ofHex text : Except HashFault KeyHash) <;> simp [h]

theorem scriptsOf_eq_ok {kind : Kind} {scripts : List Json} :
    scriptsOf kind fields = .ok scripts ↔ get? fields "scripts" = some (.array scripts) := by
  rw [scriptsOf]
  split <;> simp_all

theorem requiredOf_eq_ok {n : UInt64} :
    requiredOf fields = .ok n ↔ get? fields "required" = some (.integer n.toNat) := by
  rw [← wordAt_eq_some, requiredOf]
  cases (get? fields "required").bind Json.asWord? <;> simp

theorem slotOf_eq_ok {kind : Kind} {slot : Slot} :
    slotOf kind fields = .ok slot ↔ get? fields "slot" = some (.integer slot.toNat) := by
  rw [← wordAt_eq_some, slotOf]
  cases (get? fields "slot").bind Json.asWord? <;> simp

end JsonForm

open JsonForm

namespace Multisig

variable {α ε : Type} {child : Json → α → Prop} {v : Json}

theorem ofJson_object {fields : Fields} (kind : Kind)
    (ht : get? fields "type" = some (.string kind.name)) :
    Multisig.ofJson (.object fields) = ofFieldsOfType kind.name fields := by
  have hname : typeName fields = .ok kind.name := typeName_eq_ok.mpr ht
  simp only [ofJson, fieldsOf, hname, bind, Except.bind]

theorem ofJson_eq_ok {layer : Multisig Json} :
    Multisig.ofJson v = .ok layer ↔
      ∃ fields name, v = .object fields ∧ get? fields "type" = some (.string name) ∧
        ofFieldsOfType name fields = .ok layer := by
  simp [ofJson, bind_eq_ok, fieldsOf_eq_ok, typeName_eq_ok]

theorem Described.exists_layer {m : Multisig α} (h : Described child v m) :
    ∃ layer, Multisig.ofJson v = .ok layer ∧ Pointwise child layer m := by
  cases h with
  | @sig fields text key ht hk hl hd =>
    refine ⟨.sig key, ?_, .sig key⟩
    rw [ofJson_object .sig ht, ofFieldsOfType, Kind.ofName?_name]
    exact map_eq_ok.mpr ⟨key, keyHashOf_eq_ok.mpr ⟨text, hk, hd⟩, rfl⟩
  | @all fields items scripts ht hs each =>
    refine ⟨.all items, ?_, .all each⟩
    rw [ofJson_object .all ht, ofFieldsOfType, Kind.ofName?_name]
    exact map_eq_ok.mpr ⟨items, scriptsOf_eq_ok.mpr hs, rfl⟩
  | @any fields items scripts ht hs each =>
    refine ⟨.any items, ?_, .any each⟩
    rw [ofJson_object .any ht, ofFieldsOfType, Kind.ofName?_name]
    exact map_eq_ok.mpr ⟨items, scriptsOf_eq_ok.mpr hs, rfl⟩
  | @atLeast fields items scripts required ht hr hs each =>
    refine ⟨.atLeast required items, ?_, .atLeast required each⟩
    rw [ofJson_object .atLeast ht, ofFieldsOfType, Kind.ofName?_name]
    exact bind_eq_ok.mpr ⟨required, requiredOf_eq_ok.mpr hr,
      bind_eq_ok.mpr ⟨items, scriptsOf_eq_ok.mpr hs, rfl⟩⟩

theorem described_of_layer {layer : Multisig Json} {m : Multisig α}
    (h : Multisig.ofJson v = .ok layer) (hp : Pointwise child layer m) : Described child v m := by
  obtain ⟨fields, name, rfl, ht, hf⟩ := ofJson_eq_ok.mp h
  unfold ofFieldsOfType at hf
  split at hf <;> rename_i hkind
  · rw [Kind.ofName?_eq_some.mp hkind] at ht
    obtain ⟨key, hk, rfl⟩ := map_eq_ok.mp hf
    obtain ⟨text, hk, hd⟩ := keyHashOf_eq_ok.mp hk
    have hl : text.length = 56 := by
      rw [← String.length_toList, hd.length_eq, key.length_eq]
      rfl
    cases hp
    exact .sig ht hk hl hd
  · rw [Kind.ofName?_eq_some.mp hkind] at ht
    obtain ⟨items, hs, rfl⟩ := map_eq_ok.mp hf
    cases hp with
    | all each => exact .all ht (scriptsOf_eq_ok.mp hs) each
  · rw [Kind.ofName?_eq_some.mp hkind] at ht
    obtain ⟨items, hs, rfl⟩ := map_eq_ok.mp hf
    cases hp with
    | any each => exact .any ht (scriptsOf_eq_ok.mp hs) each
  · rw [Kind.ofName?_eq_some.mp hkind] at ht
    obtain ⟨required, hr, hf⟩ := bind_eq_ok.mp hf
    obtain ⟨items, hs, hf⟩ := bind_eq_ok.mp hf
    cases hf
    cases hp with
    | atLeast _ each => exact .atLeast ht (requiredOf_eq_ok.mp hr) (scriptsOf_eq_ok.mp hs) each
  · cases hf

theorem described_iff {m : Multisig α} :
    Described child v m ↔ ∃ layer, Multisig.ofJson v = .ok layer ∧ Pointwise child layer m := by
  constructor
  · exact Described.exists_layer
  · intro h
    obtain ⟨layer, hl, hp⟩ := h
    exact described_of_layer hl hp

/-- A value that describes a layer over values is read as that layer. -/
theorem ofJson_of_described {layer : Multisig Json} (h : Described Eq v layer) :
    Multisig.ofJson v = .ok layer := by
  obtain ⟨layer', hl, hp⟩ := h.exists_layer
  rw [hl, hp.eq]

theorem Described.congr {child' : Json → α → Prop} {m : Multisig α}
    (h : ∀ c ∈ m.children, ∀ w, child w c ↔ child' w c) :
    Described child v m ↔ Described child' v m := by
  simp only [described_iff, Pointwise.congr fun w _ c hc => h c hc w]

theorem Described.type {m : Multisig α} (h : Described child v m) :
    ∃ fields, v = .object fields ∧ get? fields "type" = some (.string m.kind.name) := by
  cases h with
  | sig ht | all ht | any ht | atLeast ht => exact ⟨_, rfl, ht⟩

theorem described_toJson {write : α → Json} {m : Multisig α}
    (h : ∀ c ∈ m.children, child (write c) c) : Described child (m.map write).toJson m := by
  have each : Forall₂ child (m.children.map write) m.children :=
    List.forall₂_map_left_iff.mpr (List.forall₂_same.mpr h)
  cases m with
  | sig key =>
    have hd := Hex.spelled_encode key.bytes
    have hl : key.toHex.length = 56 := by
      rw [← String.length_toList, Hash.toHex, hd.length_eq, key.length_eq]
      rfl
    exact .sig rfl rfl hl hd
  | all scripts => exact .all rfl rfl each
  | any scripts => exact .any rfl rfl each
  | atLeast required scripts => exact .atLeast rfl rfl rfl each

/-- Whatever the children are, a layer over them is read from its descriptions. -/
theorem ofJsonWith_eq_ok {fault : JsonFault → ε} {read : Json → Except ε α} {m : Multisig α} :
    ofJsonWith fault read v = .ok m ↔ Described (fun w c => read w = .ok c) v m := by
  rw [described_iff, ofJsonWith]
  simp only [← traverse_eq_ok_iff]
  cases Multisig.ofJson v <;> simp

theorem ofJsonWith_of_described {fault : JsonFault → ε} {read : Json → Except ε α}
    {layer : Multisig Json} (h : Described Eq v layer) :
    ofJsonWith fault read v = layer.traverse read := by
  rw [ofJsonWith, ofJson_of_described h]

end Multisig

namespace NativeScript

variable {v : Json}

theorem ofJson_object {fields : Fields} (kind : Kind)
    (ht : get? fields "type" = some (.string kind.name)) :
    ofJson (.object fields) =
      match kind with
      | .after => (slotOf .after fields).map .after
      | .before => (slotOf .before fields).map .before
      | _ => (Multisig.ofJsonWith id ofJson (.object fields)).map .multisig := by
  have hname : typeName fields = .ok kind.name := typeName_eq_ok.mpr ht
  rw [ofJson_eq]
  simp only [fieldsOf, hname, bind, Except.bind, Kind.ofName?_name]
  cases kind <;> rfl

theorem type_of_ofJson {s : NativeScript} (h : ofJson v = .ok s) :
    ∃ fields, v = .object fields ∧ get? fields "type" = some (.string s.kind.name) := by
  simp only [ofJson_eq, bind_eq_ok, fieldsOf_eq_ok, typeName_eq_ok] at h
  obtain ⟨fields, rfl, name, ht, h⟩ := h
  split at h
  · rename_i hkind
    obtain ⟨slot, -, rfl⟩ := map_eq_ok.mp h
    rw [Kind.ofName?_eq_some.mp hkind] at ht
    exact ⟨fields, rfl, ht⟩
  · rename_i hkind
    obtain ⟨slot, -, rfl⟩ := map_eq_ok.mp h
    rw [Kind.ofName?_eq_some.mp hkind] at ht
    exact ⟨fields, rfl, ht⟩
  · obtain ⟨layer, hl, rfl⟩ := map_eq_ok.mp h
    exact (Multisig.ofJsonWith_eq_ok.mp hl).type

theorem ofJson_object_multisig {α : Type} {fields : Fields} (layer : Multisig α)
    (ht : get? fields "type" = some (.string layer.kind.name)) :
    ofJson (.object fields) = (Multisig.ofJsonWith id ofJson (.object fields)).map .multisig := by
  rw [ofJson_object layer.kind ht]
  cases layer <;> rfl

theorem ofJson_of_described {layer : Multisig Json} (h : Multisig.Described Eq v layer) :
    ofJson v = (layer.traverse ofJson).map .multisig := by
  obtain ⟨fields, rfl, ht⟩ := h.type
  rw [ofJson_object_multisig layer ht, Multisig.ofJsonWith_of_described h]

theorem ofJson_eq_multisig {layer : Multisig NativeScript} :
    ofJson v = .ok (.multisig layer) ↔ Multisig.ofJsonWith id ofJson v = .ok layer := by
  constructor
  · intro h
    obtain ⟨fields, rfl, ht⟩ := type_of_ofJson h
    have hkind : get? fields "type" = some (.string layer.kind.name) := ht
    rw [ofJson_object_multisig layer hkind] at h
    simpa [map_eq_ok] using h
  · intro h
    obtain ⟨fields, rfl, ht⟩ := (Multisig.ofJsonWith_eq_ok.mp h).type
    rw [ofJson_object_multisig layer ht, h]
    rfl

theorem ofJson_eq_ok {s : NativeScript} : ofJson v = .ok s ↔ Described v s := by
  induction s generalizing v with
  | multisig layer ih =>
    rw [ofJson_eq_multisig, Multisig.ofJsonWith_eq_ok,
      Multisig.Described.congr fun c hc w => ih c hc]
    constructor
    · exact .multisig
    · intro h
      cases h with
      | multisig h => exact h
  | after slot =>
    constructor
    · intro h
      obtain ⟨fields, rfl, ht⟩ := type_of_ofJson h
      rw [ofJson_object .after ht] at h
      obtain ⟨slot', hs, he⟩ := map_eq_ok.mp h
      cases he
      exact .after ht (slotOf_eq_ok.mp hs)
    · intro h
      cases h with
      | after ht hs =>
        rw [ofJson_object .after ht]
        exact map_eq_ok.mpr ⟨slot, slotOf_eq_ok.mpr hs, rfl⟩
  | before slot =>
    constructor
    · intro h
      obtain ⟨fields, rfl, ht⟩ := type_of_ofJson h
      rw [ofJson_object .before ht] at h
      obtain ⟨slot', hs, he⟩ := map_eq_ok.mp h
      cases he
      exact .before ht (slotOf_eq_ok.mp hs)
    · intro h
      cases h with
      | before ht hs =>
        rw [ofJson_object .before ht]
        exact map_eq_ok.mpr ⟨slot, slotOf_eq_ok.mpr hs, rfl⟩

theorem described_toJson (s : NativeScript) : Described s.toJson s := by
  induction s with
  | multisig layer ih =>
    rw [toJson_multisig]
    exact .multisig (Multisig.described_toJson ih)
  | after slot => exact .after rfl rfl
  | before slot => exact .before rfl rfl

theorem ofJson_toJson (s : NativeScript) : ofJson s.toJson = .ok s :=
  ofJson_eq_ok.mpr s.described_toJson

end NativeScript

theorem ShelleyScript.ofJson_toJson (s : ShelleyScript) : ofJson s.toJson = .ok s := by
  induction s with
  | mk layer ih =>
    rw [toJson_mk, ofJson_eq, map_eq_ok]
    exact ⟨layer, Multisig.ofJsonWith_eq_ok.mpr (Multisig.described_toJson ih), rfl⟩

end NativeScripts

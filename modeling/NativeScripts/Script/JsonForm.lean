import NativeScripts.Json.Reader
import NativeScripts.NativeScript
import NativeScripts.Script.JsonFault
import NativeScripts.ShelleyScript

/-! Scripts described in JSON, by objects whose field `type` names the kind.
Fields that the kind does not call for are passed over. -/

namespace NativeScripts

open Json (Fields get?)

def Json.ofWord (n : UInt64) : Json :=
  .integer n.toNat

namespace JsonForm

def typed (kind : Kind) : String × Json :=
  ("type", .string kind.name)

def ofSlot (kind : Kind) (slot : Slot) : Json :=
  .object [("slot", .ofWord slot), typed kind]

def fieldsOf : Json → Except JsonFault Fields
  | .object fields => .ok fields
  | found => .error (.notObject found)

def typeName (fields : Fields) : Except JsonFault String :=
  match (get? fields "type").bind Json.asString? with
  | none => .error .untyped
  | some name => .ok name

def keyHashOf (fields : Fields) : Except JsonFault KeyHash :=
  match (get? fields "keyHash").bind Json.asString? with
  | none => .error .noKeyHash
  | some text =>
    match Hash.ofHex text with
    | .error fault => .error (.badKeyHash fault)
    | .ok key => .ok key

def scriptsOf (kind : Kind) (fields : Fields) : Except JsonFault (List Json) :=
  match get? fields "scripts" with
  | some (.array scripts) => .ok scripts
  | _ => .error (.noScripts kind)

def requiredOf (fields : Fields) : Except JsonFault UInt64 :=
  match (get? fields "required").bind Json.asWord? with
  | none => .error .noRequired
  | some required => .ok required

def slotOf (kind : Kind) (fields : Fields) : Except JsonFault Slot :=
  match (get? fields "slot").bind Json.asWord? with
  | none => .error (.noSlot kind)
  | some slot => .ok slot

/-- The type named by an object. -/
def typeOf (v : Json) : Except JsonFault String := do
  let fields ← fieldsOf v
  typeName fields

end JsonForm

open JsonForm

/-- A layer whose children are described already. -/
def Multisig.toJson : Multisig Json → Json
  | .sig key => .object [("keyHash", .string key.toHex), typed .sig]
  | .all scripts => .object [("scripts", .array scripts), typed .all]
  | .any scripts => .object [("scripts", .array scripts), typed .any]
  | .atLeast required scripts =>
    .object [("required", .ofWord required), ("scripts", .array scripts), typed .atLeast]

/-- The layer of this type, its children not yet read. A threshold is read
before the scripts it is about. -/
def Multisig.ofFieldsOfType (name : String) (fields : Fields) :
    Except JsonFault (Multisig Json) :=
  match Kind.ofName? name with
  | some .sig => (keyHashOf fields).map .sig
  | some .all => (scriptsOf .all fields).map .all
  | some .any => (scriptsOf .any fields).map .any
  | some .atLeast => do
    let required ← requiredOf fields
    let scripts ← scriptsOf .atLeast fields
    .ok (.atLeast required scripts)
  | _ => .error (.unknownType name)

/-- The layer described by a value, its children not yet read. -/
def Multisig.ofJson (v : Json) : Except JsonFault (Multisig Json) := do
  let fields ← fieldsOf v
  let name ← typeName fields
  Multisig.ofFieldsOfType name fields

theorem JsonForm.sizeOf_lt_of_scriptsOf {kind : Kind} {fields : Fields} {scripts : List Json}
    (h : scriptsOf kind fields = .ok scripts) : sizeOf scripts < sizeOf fields := by
  unfold scriptsOf at h
  split at h
  · rename_i hs
    cases h
    have := Json.sizeOf_lt_of_get? hs
    simp only [Json.array.sizeOf_spec] at this
    omega
  · cases h

theorem Multisig.sizeOf_lt_of_ofFieldsOfType {name : String} {fields : Fields}
    {m : Multisig Json} (h : ofFieldsOfType name fields = .ok m) {c : Json}
    (hc : c ∈ m.children) : sizeOf c < sizeOf fields := by
  have below {kind : Kind} {scripts : List Json} (hs : scriptsOf kind fields = .ok scripts)
      (hm : c ∈ scripts) : sizeOf c < sizeOf fields :=
    Nat.lt_trans (List.sizeOf_lt_of_mem hm) (sizeOf_lt_of_scriptsOf hs)
  unfold ofFieldsOfType at h
  split at h
  · cases hk : keyHashOf fields <;> rw [hk] at h <;> cases h
    simp [children] at hc
  · cases hs : scriptsOf .all fields <;> rw [hs] at h <;> cases h
    exact below hs hc
  · cases hs : scriptsOf .any fields <;> rw [hs] at h <;> cases h
    exact below hs hc
  · cases hr : requiredOf fields <;> rw [hr] at h
    · cases h
    · cases hs : scriptsOf .atLeast fields <;> simp only [hs, bind, Except.bind] at h <;> cases h
      exact below hs hc
  · cases h

theorem Multisig.sizeOf_lt_of_ofJson {v : Json} {m : Multisig Json} (h : ofJson v = .ok m)
    {c : Json} (hc : c ∈ m.children) : sizeOf c < sizeOf v := by
  unfold ofJson at h
  cases v <;> simp only [fieldsOf, bind, Except.bind, reduceCtorEq] at h
  split at h
  · cases h
  · have := sizeOf_lt_of_ofFieldsOfType h hc
    simp only [Json.object.sizeOf_spec]
    omega

/-- The layer described by a value, with children read by `child`, which may
have faults of its own. -/
def Multisig.ofJsonWith {α ε : Type} (fault : JsonFault → ε) (child : Json → Except ε α)
    (v : Json) : Except ε (Multisig α) :=
  match Multisig.ofJson v with
  | .error f => .error (fault f)
  | .ok layer => layer.traverse child

namespace ShelleyScript

def toJson : ShelleyScript → Json :=
  fold Multisig.toJson

theorem toJson_mk (layer : Multisig ShelleyScript) :
    toJson (.mk layer) = (layer.map toJson).toJson :=
  fold_mk _ layer

def ofJson (v : Json) : Except JsonFault ShelleyScript :=
  match hl : Multisig.ofJson v with
  | .error fault => .error fault
  | .ok layer =>
    let script := layer.attach.traverse fun c =>
      have := Multisig.sizeOf_lt_of_ofJson hl c.2
      ofJson c.1
    script.map .mk
termination_by sizeOf v

theorem ofJson_eq (v : Json) : ofJson v = (Multisig.ofJsonWith id ofJson v).map .mk := by
  rw [ofJson, Multisig.ofJsonWith]
  split
  · rename_i hl
    simp only [hl]
    rfl
  · rename_i layer hl
    simp only [hl, Multisig.traverse_attach layer ofJson]

def parse (s : String) : Except JsonFault ShelleyScript :=
  match Json.read? s with
  | none => .error .unreadable
  | some v => ofJson v

end ShelleyScript

namespace NativeScript

def toJson : NativeScript → Json :=
  fold Multisig.toJson (ofSlot .after) (ofSlot .before)

theorem toJson_multisig (layer : Multisig NativeScript) :
    toJson (.multisig layer) = (layer.map toJson).toJson :=
  fold_multisig _ _ _ layer

def ofJson (v : Json) : Except JsonFault NativeScript :=
  match fieldsOf v with
  | .error fault => .error fault
  | .ok fields =>
    match typeName fields with
    | .error fault => .error fault
    | .ok name =>
      match Kind.ofName? name with
      | some .after => (slotOf .after fields).map .after
      | some .before => (slotOf .before fields).map .before
      | _ =>
        match hl : Multisig.ofJson v with
        | .error fault => .error fault
        | .ok layer =>
          let script := layer.attach.traverse fun c =>
            have := Multisig.sizeOf_lt_of_ofJson hl c.2
            ofJson c.1
          script.map .multisig
termination_by sizeOf v

theorem ofJson_eq (v : Json) :
    ofJson v =
      (do
        let fields ← fieldsOf v
        let name ← typeName fields
        match Kind.ofName? name with
        | some .after => (slotOf .after fields).map .after
        | some .before => (slotOf .before fields).map .before
        | _ => (Multisig.ofJsonWith id ofJson v).map .multisig) := by
  rw [ofJson]
  cases fieldsOf v with
  | error fault => rfl
  | ok fields =>
    simp only [bind, Except.bind]
    cases typeName fields with
    | error fault => rfl
    | ok name =>
      simp only
      split
      · rfl
      · rfl
      · rw [Multisig.ofJsonWith]
        split
        · rename_i hl
          simp only [hl]
          rfl
        · rename_i layer hl
          simp only [hl, Multisig.traverse_attach layer ofJson]

def parse (s : String) : Except JsonFault NativeScript :=
  match Json.read? s with
  | none => .error .unreadable
  | some v => ofJson v

end NativeScript

theorem ShelleyScript.toJson_lift (s : ShelleyScript) : s.lift.toJson = s.toJson := by
  induction s with
  | mk layer ih =>
    rw [lift_mk, NativeScript.toJson_multisig, toJson_mk, Multisig.map_map, Multisig.map_congr ih]

/-- A layer over native scripts. -/
def Multisig.parse (s : String) : Except JsonFault (Multisig NativeScript) :=
  match Json.read? s with
  | none => .error .unreadable
  | some v => Multisig.ofJsonWith id NativeScript.ofJson v

end NativeScripts

import NativeScripts.Blake2b
import NativeScripts.Cbor.Item
import NativeScripts.ShelleyScript

/-! Scripts in CBOR. A script is an array of the tag of its kind and its fields
in order. The hash of a script is taken over its encoding with a zero byte in
front. -/

namespace NativeScripts

def Cbor.Item.ofWord (n : UInt64) : Cbor.Item :=
  .integer n.toNat

def Hash.toItem {kind : HashKind} (h : Hash kind) : Cbor.Item :=
  .bytes h.bytes

def Hash.encode {kind : HashKind} (h : Hash kind) : Bytes :=
  h.toItem.encode

def ScriptHash.ofMessage (message : Bytes) : ScriptHash :=
  ⟨Blake2b.digest message, Blake2b.length_digest message⟩

/-- The hash of a script whose encoding is given. -/
def ScriptHash.ofEncoding (encoding : Bytes) : ScriptHash :=
  ScriptHash.ofMessage (0 :: encoding)

def Multisig.fieldItems : Multisig Cbor.Item → List Cbor.Item
  | .sig key => [key.toItem]
  | .all scripts => [.array scripts]
  | .any scripts => [.array scripts]
  | .atLeast required scripts => [.ofWord required, .array scripts]

/-- A layer whose children are encoded already. -/
def Multisig.toItem (m : Multisig Cbor.Item) : Cbor.Item :=
  .array (.ofWord m.kind.tag :: m.fieldItems)

theorem Multisig.length_fieldItems (m : Multisig Cbor.Item) :
    m.fieldItems.length + 1 = m.fieldCount := by
  cases m <;> rfl

namespace NativeScript

def toItem : NativeScript → Cbor.Item :=
  fold Multisig.toItem
    (fun slot => .array [.ofWord Kind.after.tag, .ofWord slot])
    (fun slot => .array [.ofWord Kind.before.tag, .ofWord slot])

theorem toItem_multisig (layer : Multisig NativeScript) :
    toItem (.multisig layer) = (layer.map toItem).toItem :=
  fold_multisig _ _ _ layer

def encode (s : NativeScript) : Bytes :=
  s.toItem.encode

def hash (s : NativeScript) : ScriptHash :=
  ScriptHash.ofEncoding s.encode

end NativeScript

namespace ShelleyScript

def toItem : ShelleyScript → Cbor.Item :=
  fold Multisig.toItem

theorem toItem_mk (layer : Multisig ShelleyScript) :
    toItem (.mk layer) = (layer.map toItem).toItem :=
  fold_mk _ layer

/-- A script is laid out like the native script that it is. -/
theorem toItem_lift (s : ShelleyScript) : s.lift.toItem = s.toItem := by
  induction s with
  | mk layer ih =>
    rw [lift_mk, NativeScript.toItem_multisig, toItem_mk, Multisig.map_map, Multisig.map_congr ih]

def encode (s : ShelleyScript) : Bytes :=
  s.toItem.encode

theorem encode_lift (s : ShelleyScript) : s.lift.encode = s.encode :=
  congrArg Cbor.Item.encode s.toItem_lift

def hash (s : ShelleyScript) : ScriptHash :=
  ScriptHash.ofEncoding s.encode

end ShelleyScript

/-- A layer over native scripts. -/
def Multisig.encode (m : Multisig NativeScript) : Bytes :=
  (m.map NativeScript.toItem).toItem.encode

end NativeScripts

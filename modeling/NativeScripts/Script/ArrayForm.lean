import NativeScripts.Script.JsonForm
import NativeScripts.Script.Layout

/-! Scripts as JSON arrays with the layout that they have in CBOR. JSON has no
byte strings: a hash is written as an array of numbers and never read. -/

namespace NativeScripts

def Hash.toArray {kind : HashKind} (h : Hash kind) : Json :=
  .array (h.bytes.map fun b => .integer b.toNat)

def Hash.ofArray {kind : HashKind} (v : Json) : Except LayoutFault (Hash kind) :=
  Layout.hashOf kind v.toItem

def Multisig.fieldArrays : Multisig Json → List Json
  | .sig key => [key.toArray]
  | .all scripts => [.array scripts]
  | .any scripts => [.array scripts]
  | .atLeast required scripts => [.ofWord required, .array scripts]

/-- A layer whose children are arrays already. -/
def Multisig.toArray (m : Multisig Json) : Json :=
  .array (.ofWord m.kind.tag :: m.fieldArrays)

def NativeScript.toArray : NativeScript → Json :=
  fold Multisig.toArray
    (fun slot => .array [.ofWord Kind.after.tag, .ofWord slot])
    (fun slot => .array [.ofWord Kind.before.tag, .ofWord slot])

def NativeScript.ofArray (v : Json) : Except LayoutFault NativeScript :=
  ofItem v.toItem

def ShelleyScript.toArray : ShelleyScript → Json :=
  fold Multisig.toArray

def ShelleyScript.ofArray (v : Json) : Except LayoutFault ShelleyScript :=
  ofItem v.toItem

/-- A layer over native scripts. -/
def Multisig.ofArray (v : Json) : Except LayoutFault (Multisig NativeScript) :=
  Multisig.ofItem NativeScript.ofItem v.toItem

end NativeScripts

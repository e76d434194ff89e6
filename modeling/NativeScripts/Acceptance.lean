import NativeScripts.Script.JsonForm
import NativeScripts.ScriptFault

/-! Scripts and hashes as they come in from outside. Whatever is wrong with one of them is a
fault of the form that it comes in. -/

namespace NativeScripts

namespace NativeScript

/-- Bytes that may have the marker in front. -/
def acceptBytes (bs : Bytes) : Except ScriptFault NativeScript :=
  (decodeMarked bs).mapError .malformedCbor

/-- Bytes that are taken as they are. -/
def acceptBare (bs : Bytes) : Except ScriptFault NativeScript :=
  (decode bs).mapError .malformedCbor

def acceptDigits (s : String) : Except ScriptFault NativeScript :=
  (decodeHex s).mapError .malformedCbor

def acceptValue (v : Json) : Except ScriptFault NativeScript :=
  (ofJson v).mapError .malformedJson

def acceptText (s : String) : Except ScriptFault NativeScript :=
  (parse s).mapError .malformedJson

end NativeScript

namespace ShelleyScript

/-- Bytes that may have the marker in front. -/
def acceptBytes (bs : Bytes) : Except ScriptFault ShelleyScript :=
  (decodeMarked bs).mapError .malformedCbor

/-- Bytes that are taken as they are. -/
def acceptBare (bs : Bytes) : Except ScriptFault ShelleyScript :=
  (decode bs).mapError .malformedCbor

def acceptText (s : String) : Except ScriptFault ShelleyScript :=
  (parse s).mapError .malformedJson

end ShelleyScript

namespace Multisig

/-- A layer over native scripts. -/
def acceptBare (bs : Bytes) : Except ScriptFault (Multisig NativeScript) :=
  (Multisig.decode bs).mapError .malformedCbor

/-- A layer over native scripts. -/
def acceptText (s : String) : Except ScriptFault (Multisig NativeScript) :=
  (Multisig.parse s).mapError .malformedJson

end Multisig

namespace Hash

variable {kind : HashKind}

def acceptDigits (s : String) : Except ScriptFault (Hash kind) :=
  (ofHex s).mapError .invalidHash

/-- The bytes of the hash itself. -/
def acceptContent (bs : Bytes) : Except ScriptFault (Hash kind) :=
  (ofBytes bs).mapError .invalidHash

/-- A hash as it stands in a script. -/
def acceptBare (bs : Bytes) : Except ScriptFault (Hash kind) :=
  (decode bs).mapError .malformedCbor

end Hash

/-- A hash that stands alone. -/
def ScriptHash.acceptAlone (bs : Bytes) : Except ScriptFault ScriptHash :=
  (decodeAlone bs).mapError .invalidHashItem

end NativeScripts

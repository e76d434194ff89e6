import NativeScripts.Cbor.Reader
import NativeScripts.Cbor.Tags
import NativeScripts.Script.Layout
import NativeScripts.Text

/-! Scripts and hashes read from bytes. One item has to take up all of the
bytes, no tag may stand anywhere in it, and its layout comes last. -/

namespace NativeScripts

inductive CborFault where
  | notHex (fault : Hex.Fault)
  | unreadable (fault : Cbor.ReadFault)
  | trailing (count : Nat)
  | tagged (number : Nat)
  | layout (fault : LayoutFault)

def CborFault.message : CborFault → String
  | .notHex fault => "script CBOR is not valid hex: " ++ fault.message
  | .unreadable fault => fault.message
  | .trailing count => toString count ++ " trailing bytes after script"
  | .tagged number => "unexpected CBOR tag " ++ toString number
  | .layout fault => "Custom(" ++ Text.quote fault.itemText ++ ")"

/-- The item that takes up all of the bytes and holds no tag. -/
def decodeItem (bs : Bytes) : Except CborFault Cbor.Item :=
  match Cbor.Item.read bs with
  | .error fault => .error (.unreadable fault)
  | .ok (item, rest) =>
    if rest ≠ [] then .error (.trailing rest.length)
    else
      match Cbor.searchTag [item] with
      | some number => .error (.tagged number)
      | none => .ok item

/-- What `ofItem` makes of the only item in the bytes. -/
def decodeAs {α : Type} (ofItem : Cbor.Item → Except LayoutFault α) (bs : Bytes) :
    Except CborFault α :=
  match decodeItem bs with
  | .error fault => .error fault
  | .ok item =>
    match ofItem item with
    | .error fault => .error (.layout fault)
    | .ok value => .ok value

/-- The bytes without the zero that may stand before a script. -/
def dropMarker : Bytes → Bytes
  | 0 :: rest => rest
  | bs => bs

namespace NativeScript

/-- Reads the bytes as they are. -/
def decode (bs : Bytes) : Except CborFault NativeScript :=
  decodeAs ofItem bs

def decodeMarked (bs : Bytes) : Except CborFault NativeScript :=
  decode (dropMarker bs)

/-- Blanks around the digits do not count. -/
def decodeHex (s : String) : Except CborFault NativeScript :=
  match Hex.decode (Text.trim s) with
  | .error fault => .error (.notHex fault)
  | .ok bs => decodeMarked bs

end NativeScript

namespace ShelleyScript

/-- Reads the bytes as they are. -/
def decode (bs : Bytes) : Except CborFault ShelleyScript :=
  decodeAs ofItem bs

def decodeMarked (bs : Bytes) : Except CborFault ShelleyScript :=
  decode (dropMarker bs)

end ShelleyScript

/-- A layer over native scripts. -/
def Multisig.decode (bs : Bytes) : Except CborFault (Multisig NativeScript) :=
  decodeAs (Multisig.ofItem NativeScript.ofItem) bs

def Hash.decode {kind : HashKind} (bs : Bytes) : Except CborFault (Hash kind) :=
  decodeAs (Layout.hashOf kind) bs

end NativeScripts

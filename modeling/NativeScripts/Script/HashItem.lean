import NativeScripts.Cbor.Display
import NativeScripts.Cbor.Reader
import NativeScripts.Hash

/-! A script hash that stands alone in CBOR, as a byte string without a tag. -/

namespace NativeScripts

/-- How deep an item that stands for a hash may nest. -/
def hashItemDepth : Nat := 256

inductive HashItemFault where
  | unreadable (fault : Cbor.ReadFault)
  | trailing (count : Nat)
  | noByteString (found : Cbor.Item)
  | unfit (fault : HashFault)

def HashItemFault.message : HashItemFault → String
  | .unreadable fault => "failed to decode script hash CBOR: " ++ fault.message
  | .trailing count =>
    "failed to decode script hash CBOR: " ++ toString count ++ " trailing bytes"
  | .noByteString found =>
    "failed to decode script hash CBOR: expected a byte string, got " ++ found.display
  | .unfit fault => fault.message

def ScriptHash.decodeAlone (bs : Bytes) : Except HashItemFault ScriptHash :=
  match Cbor.readItem hashItemDepth bs with
  | .error fault => .error (.unreadable fault)
  | .ok (item, rest) =>
    if rest ≠ [] then .error (.trailing rest.length)
    else
      match item with
      | .bytes content =>
        match Hash.ofBytes content with
        | .error fault => .error (.unfit fault)
        | .ok h => .ok h
      | found => .error (.noByteString found)

end NativeScripts

import NativeScripts.Cbor.Display
import NativeScripts.Hash
import NativeScripts.Kind

/-! What can be wrong with a script laid out as an array. A script read from
CBOR and one read from JSON have the same faults, but where an item of another
kind is called for they are told in different words. -/

namespace NativeScripts

/-- What a layout calls for. -/
inductive Wanted where
  | nativeScript
  | multisig
  | scripts
  | word
  | digits
  | hash (kind : HashKind)
  deriving DecidableEq

inductive LayoutFault where
  | unsuited (found : Cbor.Item) (wanted : Wanted)
  | missingField (index : Nat)
  | extraField (count : Nat)
  | unknownTag (tag : UInt64)
  | hugeNumber
  | wrongHashLength (kind : HashKind) (length : Nat)

namespace LayoutFault

/-- An item of the wrong kind. -/
def mismatchText (style : NumberStyle) (found : Cbor.Item) (expected : String) : String :=
  "invalid type: " ++ found.describe style ++ ", expected " ++ expected

/-- A number where only others are allowed. -/
def outOfRangeText (n : Int) (expected : String) : String :=
  "invalid value: integer `" ++ toString n ++ "`, expected " ++ expected

def hashPhrase (kind : HashKind) : String :=
  "a " ++ toString hashLength ++ "-byte " ++ kind.label

/-- The text of a fault, an unsuited item being told by the function given. -/
def textWith (unsuited : Cbor.Item → Wanted → String) : LayoutFault → String
  | .unsuited found wanted => unsuited found wanted
  | .missingField index =>
    "invalid length " ++ toString index ++ ", expected a complete native script array"
  | .extraField count =>
    "invalid length " ++ toString (count + 1) ++ ", expected no fields after the last one"
  | .unknownTag tag =>
    outOfRangeText tag.toNat "a native script tag"
  | .hugeNumber => "bigint too large"
  | .wrongHashLength kind length =>
    "invalid length " ++ toString length ++ ", expected " ++ hashPhrase kind

/-- In CBOR the item called for is named. -/
def wantedItem (found : Cbor.Item) : Wanted → String
  | .nativeScript => "array"
  | .multisig => "array"
  | .scripts => "array"
  | .word =>
    match found with
    | .integer _ => "u64"
    | .tag 2 _ => "u64"
    | .tag 3 _ => "u64"
    | _ => "(big)int"
  | .digits => "bytes"
  | .hash _ => "bytes"

/-- In JSON the use of the value called for is named. -/
def wantedValue : Wanted → String
  | .nativeScript => "a native script array"
  | .multisig => "a multisig script array"
  | .scripts => "a sequence"
  | .word => "u64"
  | .digits => "bytes"
  | .hash kind => hashPhrase kind

/-- The text of a fault in CBOR. -/
def itemText : LayoutFault → String :=
  textWith fun found wanted => mismatchText .writtenOut found (wantedItem found wanted)

/-- The text of a fault in JSON. -/
def valueText : LayoutFault → String :=
  textWith fun found wanted =>
    match found, wanted with
    | .integer n, .word => outOfRangeText n (wantedValue .word)
    | _, _ => mismatchText .json found (wantedValue wanted)

end LayoutFault

end NativeScripts

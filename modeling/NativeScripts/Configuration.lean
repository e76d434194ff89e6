import NativeScripts.ScriptFault
import NativeScripts.Toml.Reader
import NativeScripts.Transaction

/-! Transactions as people write them down: signers in hexadecimal digits and the
two bounds, in a TOML document. -/

namespace NativeScripts

structure Configuration where
  signers : List String
  validity : Validity
  deriving DecidableEq

namespace Configuration

open Toml (Value Entries)

def textOf? : Value → Option String
  | .text s => some s
  | _ => none

def signersOf? : Value → Option (List String)
  | .array items => items.mapM textOf?
  | _ => none

/-- Slots beyond the integers of TOML cannot be written. -/
def slotOf? : Value → Option Slot
  | .integer n => if 0 ≤ n then some (UInt64.ofNat n.toNat) else none
  | _ => none

/-- A bound that is left out is open. -/
def boundOf? : Option Value → Option (Option Slot)
  | none => some none
  | some value => (slotOf? value).map some

def boundsOf? (invalidBefore invalidHereafter : Option Value) : Option Validity := do
  let invalidBefore ← boundOf? invalidBefore
  let invalidHereafter ← boundOf? invalidHereafter
  some ⟨invalidBefore, invalidHereafter⟩

/-- A table gives the bounds by name and an array by position; what else they
hold is passed over. A date counts as a table without either bound. -/
def validityOf? : Value → Option Validity
  | .table _ entries =>
    boundsOf? (entries.lookup "invalid_before") (entries.lookup "invalid_hereafter")
  | .array items => boundsOf? items[0]? items[1]?
  | .moment _ => some .unbounded
  | _ => none

/-- The fields of a configuration are `signers` and `validity`. -/
def isField (name : String) : Bool :=
  name = "signers" || name = "validity"

def ofEntries? (entries : Entries) : Option Configuration :=
  if entries.all fun e => isField e.1 then do
    let signers ← ((entries.lookup "signers").map signersOf?).getD (some [])
    let validity ← ((entries.lookup "validity").map validityOf?).getD (some .unbounded)
    some ⟨signers, validity⟩
  else none

def ofToml (s : String) : Except ConfigFault Configuration :=
  match (Toml.read? s).bind ofEntries? with
  | none => .error .unreadable
  | some config => .ok config

def signerOf (s : String) : Except ConfigFault KeyHash :=
  match Hash.ofHex s with
  | .error fault => .error (.badSigner s fault)
  | .ok key => .ok key

/-- The transaction described, unless a signer is no hash. -/
def toTransaction (config : Configuration) : Except ConfigFault Transaction :=
  (readEach signerOf config.signers).map fun keys => ⟨.ofList keys, config.validity⟩

end Configuration

end NativeScripts

import NativeScripts.Configuration
import NativeScripts.Json.Printer
import NativeScripts.Script.ArrayForm

/-! Configurations as JSON values. A record is an object, or an array that gives its
fields by position. Fields of an object are read in the order of their names,
and what is left out has a default. -/

namespace NativeScripts

/-- What a part of a configuration has to be. -/
inductive ConfigurationPart where
  | config
  | validity
  | signers
  | signer
  | slot
  deriving DecidableEq

def ConfigurationPart.phrase : ConfigurationPart → String
  | .config => "struct ContextConfig"
  | .validity => "struct ValidityInterval"
  | .signers => "a sequence"
  | .signer => "a string"
  | .slot => "u64"

inductive RecordFault where
  | unsuited (found : Json) (part : ConfigurationPart)
  | unknownField (name : String)
  | tooLong (length : Nat)

def RecordFault.message : RecordFault → String
  | .unsuited (.integer n) .slot => LayoutFault.outOfRangeText n ConfigurationPart.slot.phrase
  | .unsuited found part => LayoutFault.mismatchText .json found.toItem part.phrase
  | .unknownField name => "unknown field `" ++ name ++ "`, expected `signers` or `validity`"
  | .tooLong length =>
    "invalid length " ++ toString length ++ ", expected fewer elements in array"

namespace Json

def toSlot (v : Json) : Except RecordFault Slot :=
  match v.asWord? with
  | some slot => .ok slot
  | none => .error (.unsuited v .slot)

/-- No bound is written as null. -/
def toBound : Json → Except RecordFault (Option Slot)
  | .null => .ok none
  | v => (toSlot v).map some

def toSigner (v : Json) : Except RecordFault String :=
  match v.asString? with
  | some s => .ok s
  | none => .error (.unsuited v .signer)

def toSigners : Json → Except RecordFault (List String)
  | .array items => readEach toSigner items
  | v => .error (.unsuited v .signers)

/-- What a part that may be left out is read as. -/
def readOr {α : Type} (default : α) (read : Json → Except RecordFault α) :
    Option Json → Except RecordFault α
  | none => .ok default
  | some v => read v

def toValidity : Json → Except RecordFault Validity
  | .array items => do
    let invalidBefore ← readOr none toBound items[0]?
    let invalidHereafter ← readOr none toBound items[1]?
    if 2 < items.length then .error (.tooLong items.length)
    else .ok ⟨invalidBefore, invalidHereafter⟩
  | .object fields => do
    let invalidBefore ← readOr none toBound (get? fields "invalid_before")
    let invalidHereafter ← readOr none toBound (get? fields "invalid_hereafter")
    .ok ⟨invalidBefore, invalidHereafter⟩
  | v => .error (.unsuited v .validity)

/-- Reads one field after another into a configuration. -/
def readFields (config : Configuration) : Fields → Except RecordFault Configuration
  | [] => .ok config
  | (name, value) :: rest =>
    if name = "signers" then do
      let signers ← toSigners value
      readFields ⟨signers, config.validity⟩ rest
    else if name = "validity" then do
      let validity ← toValidity value
      readFields ⟨config.signers, validity⟩ rest
    else .error (.unknownField name)

def toConfig : Json → Except RecordFault Configuration
  | .array items => do
    let signers ← readOr [] toSigners items[0]?
    let validity ← readOr .unbounded toValidity items[1]?
    if 2 < items.length then .error (.tooLong items.length)
    else .ok ⟨signers, validity⟩
  | .object fields => readFields ⟨[], .unbounded⟩ fields
  | v => .error (.unsuited v .config)

def ofBound : Option Slot → Json
  | none => .null
  | some slot => .ofWord slot

end Json

def Validity.toJson (v : Validity) : Json :=
  .object [("invalid_before", .ofBound v.invalidBefore),
    ("invalid_hereafter", .ofBound v.invalidHereafter)]

def Configuration.toJson (config : Configuration) : Json :=
  .object [("signers", .array (config.signers.map .string)), ("validity", config.validity.toJson)]

end NativeScripts

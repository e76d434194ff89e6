import NativeScripts.Hash
import NativeScripts.Json.Printer
import NativeScripts.Kind

/-! What can be wrong with a script described in JSON. -/

namespace NativeScripts

inductive JsonFault where
  | unreadable
  | notObject (found : Json)
  | untyped
  | unknownType (name : String)
  | noKeyHash
  | badKeyHash (fault : HashFault)
  | noScripts (kind : Kind)
  | noRequired
  | noSlot (kind : Kind)

/-- A text between two quotation marks, as it is. -/
def inMarks (s : String) : String :=
  "\"" ++ s ++ "\""

def JsonFault.message : JsonFault → String
  | .unreadable => "invalid JSON"
  | .notObject found => "expected a JSON object, got " ++ found.compact
  | .untyped => "native script requires a string " ++ inMarks "type" ++ " field"
  | .unknownType name => "unrecognized native script type '" ++ name ++ "'"
  | .noKeyHash => "sig script requires a string " ++ inMarks "keyHash"
  | .badKeyHash fault => "invalid " ++ inMarks "keyHash" ++ ": invalid hash: " ++ fault.message
  | .noScripts kind => kind.name ++ " script requires a " ++ inMarks "scripts" ++ " array"
  | .noRequired =>
    "atLeast script requires a non-negative integer " ++ inMarks "required"
  | .noSlot kind =>
    kind.name ++ " script requires a non-negative integer " ++ inMarks "slot"

end NativeScripts

import NativeScripts.Script.Decoding
import NativeScripts.Script.HashItem
import NativeScripts.Script.JsonFault
import NativeScripts.Validation

/-! Everything that can go wrong with scripts, their contexts and their
files, under six heads. -/

namespace NativeScripts

/-- Why a file could not be read. -/
inductive FileFault where
  | missing
  | directory
  | notText
  | other (text : String)
  deriving DecidableEq

def FileFault.message : FileFault → String
  | .missing => "No such file or directory (os error 2)"
  | .directory => "Is a directory (os error 21)"
  | .notText => "stream did not contain valid UTF-8"
  | .other text => text

inductive ConfigFault where
  | unreadable
  | badSigner (text : String) (fault : HashFault)
  | noFile (path : String) (fault : FileFault)
  deriving DecidableEq

def ConfigFault.message : ConfigFault → String
  | .unreadable => "failed to parse context TOML"
  | .badSigner text fault => "invalid signer '" ++ text ++ "': invalid hash: " ++ fault.message
  | .noFile path fault =>
    "failed to read context file '" ++ path ++ "': " ++ fault.message

inductive ScriptFault where
  | malformedCbor (fault : CborFault)
  | malformedJson (fault : JsonFault)
  | invalidHash (fault : HashFault)
  | invalidHashItem (fault : HashItemFault)
  | config (fault : ConfigFault)
  | validationFailed (report : Report)
  | io (fault : FileFault)

def ScriptFault.message : ScriptFault → String
  | .malformedCbor fault => "malformed native script CBOR: " ++ fault.message
  | .malformedJson fault => "malformed native script JSON: " ++ fault.message
  | .invalidHash fault => "invalid hash: " ++ fault.message
  | .invalidHashItem fault => "invalid hash: " ++ fault.message
  | .config fault => "configuration error: " ++ fault.message
  | .validationFailed report => "script validation failed: " ++ report.summary
  | .io fault => "i/o error: " ++ fault.message

end NativeScripts

import NativeScripts.Transaction

/-! What the tool notes down while it works. -/

namespace NativeScripts.Tool

/-- How much is noted down, from nothing to everything. -/
inductive Level where
  | off
  | error
  | warn
  | info
  | debug
  | trace
  deriving DecidableEq

namespace Level

def rank : Level → Nat
  | .off => 0
  | .error => 1
  | .warn => 2
  | .info => 3
  | .debug => 4
  | .trace => 5

def every : List (String × Level) :=
  [("off", .off), ("error", .error), ("warn", .warn), ("info", .info), ("debug", .debug),
    ("trace", .trace)]

/-- A level by its name in either case or by its rank. -/
def ofName? (s : String) : Option Level :=
  (every.find? fun e => e.1 = s.toLower || toString e.2.rank = s).map Prod.snd

end Level

inductive Event where
  | decoded (kind : Kind)
  | contextLoaded (signers : Nat) (validity : Validity)
  | evaluated (hash : ScriptHash) (kind : Kind) (satisfied : Bool)
  deriving DecidableEq

namespace Event

def level : Event → Level
  | .decoded _ => .debug
  | .contextLoaded _ _ => .debug
  | .evaluated _ _ _ => .info

def boundText : Option Slot → String
  | none => "None"
  | some slot => "Some(" ++ toString slot.toNat ++ ")"

def text : Event → String
  | .decoded kind => "DEBUG decoded native script kind=" ++ kind.name
  | .contextLoaded signers validity =>
    "DEBUG evaluation context loaded signers=" ++ toString signers ++
      " invalid_before=" ++ boundText validity.invalidBefore ++
      " invalid_hereafter=" ++ boundText validity.invalidHereafter
  | .evaluated hash kind satisfied =>
    "INFO script evaluated script_hash=" ++ hash.toHex ++ " kind=" ++ kind.name ++
      " satisfied=" ++ (if satisfied then "true" else "false")

/-- The events that are noted down at a level. -/
def shownAt (level : Level) (events : List Event) : List Event :=
  events.filter fun e => e.level.rank ≤ level.rank

end Event

end NativeScripts.Tool

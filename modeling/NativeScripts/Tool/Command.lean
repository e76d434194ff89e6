/-! The commands of the tool and the arguments that name them. An argument that
begins with a hyphen is an option, unless it is a hyphen alone or follows two
hyphens that stand alone. -/

namespace NativeScripts.Tool

inductive Command where
  | hash (script : String)
  | encode (script : String)
  | decode (digits : String)
  | eval (script context : String)
  deriving DecidableEq

/-- Arguments after the name of a command. -/
structure Arguments where
  operands : List String
  contexts : List String
  deriving DecidableEq

namespace Arguments

def isOption (s : String) : Bool :=
  match s.toList with
  | '-' :: _ :: _ => true
  | _ => false

/-- The value in an option of the form `--context=value`. -/
def attachedContext? (s : String) : Option String :=
  let mark := "--context=".toList
  if mark.isPrefixOf s.toList then some (String.ofList (s.toList.drop mark.length)) else none

def addOperand (operand : String) (a : Arguments) : Arguments :=
  ⟨operand :: a.operands, a.contexts⟩

def addContext (context : String) (a : Arguments) : Arguments :=
  ⟨a.operands, context :: a.contexts⟩

/-- Tells options from operands. The only option is `--context`, whose value
may be the next argument. -/
def ofList? : List String → Option Arguments
  | [] => some ⟨[], []⟩
  | "--" :: rest => some ⟨rest, []⟩
  | "--context" :: value :: rest =>
    if isOption value then none else (ofList? rest).map (addContext value)
  | arg :: rest =>
    match attachedContext? arg with
    | some value => (ofList? rest).map (addContext value)
    | none => if isOption arg then none else (ofList? rest).map (addOperand arg)

end Arguments

namespace Command

/-- No file has an empty name. -/
def ofPath? (command : String → Command) (path : String) : Option Command :=
  if path.isEmpty then none else some (command path)

/-- The command on a script with its arguments. -/
def onScript? (command : String → Command) (args : List String) : Option Command :=
  match Arguments.ofList? args with
  | some ⟨[script], []⟩ => ofPath? command script
  | _ => none

def onDigits? (args : List String) : Option Command :=
  match Arguments.ofList? args with
  | some ⟨[digits], []⟩ => some (.decode digits)
  | _ => none

def onScriptAndContext? (args : List String) : Option Command :=
  match Arguments.ofList? args with
  | some ⟨[script], [context]⟩ =>
    if script.isEmpty then none else ofPath? (.eval script) context
  | _ => none

def ofArguments? : List String → Option Command
  | "hash" :: args => onScript? .hash args
  | "encode" :: args => onScript? .encode args
  | "decode" :: args => onDigits? args
  | "eval" :: args => onScriptAndContext? args
  | _ => none

end Command

end NativeScripts.Tool

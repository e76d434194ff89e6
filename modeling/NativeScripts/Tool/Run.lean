import NativeScripts.Acceptance
import NativeScripts.Configuration
import NativeScripts.Evaluation
import NativeScripts.Tool.Command
import NativeScripts.Tool.Event

/-! Carrying out commands. A command sees nothing but its arguments, the files
it names and the standard input, and comes to an end with a text or an error. -/

namespace NativeScripts.Tool

/-- What a command can read. -/
structure Sources where
  file : String → Except FileFault Bytes
  input : Except FileFault Bytes

inductive Ending where
  | printed (text : String) (code : Nat)
  | failed (error : ScriptFault)
  | misused

structure Outcome where
  events : List Event
  ending : Ending

namespace Ending

/-- Zero for success, one for a script that does not hold, two for an error. -/
def code : Ending → Nat
  | .printed _ code => code
  | .failed _ => 2
  | .misused => 2

def output : Ending → String
  | .printed text _ => text ++ "\n"
  | .failed _ => ""
  | .misused => ""

end Ending

namespace Sources

/-- A hyphen stands for the standard input, whatever slashes and dots follow. -/
def isInputMark (path : String) : Bool :=
  match path.splitOn "/" with
  | "-" :: rest => rest.all fun part => part = "" || part = "."
  | _ => false

def textOf (bytes : Except FileFault Bytes) : Except FileFault String :=
  match bytes with
  | .error fault => .error fault
  | .ok bs =>
    match bs.toText? with
    | none => .error .notText
    | some text => .ok text

def script (sources : Sources) (path : String) : Except ScriptFault NativeScript :=
  let bytes := if isInputMark path then sources.input else sources.file path
  match textOf bytes with
  | .error fault => .error (.io fault)
  | .ok text => NativeScript.acceptText text

def context (sources : Sources) (path : String) : Except ScriptFault Transaction :=
  match textOf (sources.file path) with
  | .error fault => .error (.config (.noFile path fault))
  | .ok text =>
    match Configuration.ofToml text with
    | .error fault => .error (.config fault)
    | .ok config => config.toTransaction.mapError .config

end Sources

namespace Outcome

/-- An outcome without events. -/
def quiet (text : Except ScriptFault String) : Outcome :=
  match text with
  | .error e => ⟨[], .failed e⟩
  | .ok text => ⟨[], .printed text 0⟩

def ofEvaluation (script : NativeScript) (context : Transaction) : Outcome :=
  let satisfied := script.eval context.answer
  ⟨[.contextLoaded context.signers.size context.validity,
      .evaluated script.hash script.kind satisfied],
    .printed (if satisfied then "true" else "false") (if satisfied then 0 else 1)⟩

end Outcome

namespace Command

def scriptPath? : Command → Option String
  | .hash path => some path
  | .encode path => some path
  | .decode _ => none
  | .eval path _ => some path

def contextPath? : Command → Option String
  | .eval _ path => some path
  | _ => none

/-- A script is read before the context that it is judged in. -/
def run (sources : Sources) : Command → Outcome
  | .hash path => .quiet ((sources.script path).map fun s => s.hash.toHex)
  | .encode path => .quiet ((sources.script path).map fun s => Hex.encode s.encode)
  | .decode digits =>
    match NativeScript.acceptDigits digits with
    | .error e => ⟨[], .failed e⟩
    | .ok script => ⟨[.decoded script.kind], .printed script.toJson.pretty 0⟩
  | .eval path contextPath =>
    match sources.script path with
    | .error e => ⟨[], .failed e⟩
    | .ok script =>
      match sources.context contextPath with
      | .error e => ⟨[], .failed e⟩
      | .ok context => .ofEvaluation script context

end Command

/-- What the tool does with its arguments. -/
def run (sources : Sources) (args : List String) : Outcome :=
  match Command.ofArguments? args with
  | none => ⟨[], .misused⟩
  | some command => command.run sources

end NativeScripts.Tool

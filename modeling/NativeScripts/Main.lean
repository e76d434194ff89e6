import NativeScripts.Tool.Run

/-! The tool itself. It gathers what the command can read, and shows what the
command comes to. -/

namespace NativeScripts.Tool

def usage : String :=
  "usage: native-scripts hash SCRIPT\n" ++
  "       native-scripts encode SCRIPT\n" ++
  "       native-scripts decode HEX\n" ++
  "       native-scripts eval SCRIPT --context FILE"

def faultOf : IO.Error → FileFault
  | .noFileOrDirectory _ _ _ => .missing
  | .inappropriateType _ _ _ => .directory
  | e => .other (toString e)

def gather (read : IO ByteArray) : IO (Except FileFault Bytes) := do
  try
    return .ok (← read).toList
  catch e =>
    return .error (faultOf e)

partial def readToEnd (stream : IO.FS.Stream) (sofar : ByteArray) : IO ByteArray := do
  let chunk ← stream.read 65536
  if chunk.isEmpty then return sofar
  readToEnd stream (sofar ++ chunk)

def readFile (path : String) : IO (String × Except FileFault Bytes) := do
  return (path, ← gather (IO.FS.readBinFile path))

/-- The files that a command names, and the standard input if it asks for it. -/
def sourcesOf (command : Command) : IO Sources := do
  let script := command.scriptPath?.toList
  let files ← (script ++ command.contextPath?.toList).mapM readFile
  let input ←
    if script.any Sources.isInputMark then gather do readToEnd (← IO.getStdin) ByteArray.empty
    else pure (.ok [])
  return ⟨fun path => (files.lookup path).getD (.error .missing), input⟩

/-- How much is noted down, if the environment says so. -/
def chosenLevel : IO Level := do
  let name ← IO.getEnv "LOG_LEVEL"
  return (name.bind Level.ofName?).getD .warn

end NativeScripts.Tool

open NativeScripts.Tool

def main (args : List String) : IO UInt32 := do
  let outcome ←
    match Command.ofArguments? args with
    | none => pure ⟨[], .misused⟩
    | some command => do pure (command.run (← sourcesOf command))
  for event in Event.shownAt (← chosenLevel) outcome.events do
    IO.eprintln event.text
  match outcome.ending with
  | .printed _ _ => IO.print outcome.ending.output
  | .failed e => IO.eprintln ("error: " ++ e.message)
  | .misused => IO.eprintln usage
  return outcome.ending.code.toUInt32

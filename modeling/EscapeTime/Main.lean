/-
The program: arguments and files in, text and exit status out. Everything else is decided by `CommandLine`.
-/
import EscapeTime.CommandLine.Run

namespace EscapeTime.CommandLine

/-- the content of a file, if it can be read -/
def fileContent? (path : String) : IO (Option ByteArray) := do
  try
    return some (← IO.FS.readBinFile path)
  catch _ =>
    return none

/-- the content of the settings file that a request names, or of the one in the home directory -/
def settingsFile? (i : Invocation) : IO (Option ByteArray) := do
  match i.settingsPath, ← IO.getEnv "HOME" with
  | some path, _ => fileContent? path
  | none, some home => fileContent? (home ++ "/" ++ Settings.homePath)
  | none, none => return none

/-- the run that arguments ask for, with what it needs from the outside -/
def runOf (arguments : List String) : IO Run := do
  match Invocation.ofArguments arguments with
  | .error halt => return halt.run
  | .ok i =>
    let file ← settingsFile? i
    return i.run (← IO.getEnv filterVariable) file

end EscapeTime.CommandLine

def main (arguments : List String) : IO UInt32 := do
  let run ← EscapeTime.CommandLine.runOf arguments
  for line in run.errors do
    IO.eprintln line.text
  IO.print run.output
  return run.exit.toUInt32

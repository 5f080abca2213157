import ScriptSession.CommandLine.Console

/-!
# The executable

Reads the environment and the files around the working directory, runs the program line by line
and writes back what it has done to the files.
-/

namespace ScriptSession
namespace Main

open CommandLine (Change ExitCode Run)
open Files (Entry Place Tree)

/-- The environment variables that the program looks at, apart from single settings. -/
def variableNames : List String := [
  "HOME", "XDG_CONFIG_HOME", "XDG_CACHE_HOME", "XDG_DATA_HOME", "RIVET_ENV", "RIVET_LOG",
  "RIVET_LOG_FORMAT", "RIVET_LOG_MODULES", "RIVET_LOG_OUTPUT"]

/-- The environment variables for single settings. -/
def settingNames : List String :=
  (["USE_MANIFEST_RESOLUTION", "RESOLVER", "INCLUDE_LOCAL_BUILD_OUTPUT", "INSTALL_DIR",
    "PROJECT_DIR", "AUTORUN_GLOBAL", "AUTORUN_PROJECT", "CACHE_DIR", "WATCH_MANIFEST"].map
      ("RIVET_SESSION__" ++ ·)) ++
    ["LEVEL", "FORMAT", "OUTPUT", "FILE", "COLOR"].map ("RIVET_LOGGING__" ++ ·)

/-- The environment. -/
def environment : IO (List (String × String)) :=
  (variableNames ++ settingNames).filterMapM fun name => do
    return (← IO.getEnv name).map fun value => (name, value)

/-- The text of a place. -/
def placeText (place : Place) : String := "/" ++ "/".intercalate place

/-- The names of a path. -/
def placeOf (text : String) : Place := (text.splitOn "/").filter (!·.isEmpty)

/-- Take a place and everything below it into a tree. -/
partial def snapshot (tree : Tree) (place : Place) : IO Tree := do
  try
    let mut tree := tree.put place .directory
    for entry in ← ((← IO.currentDir) / placeText place).readDir do
      let inner := place ++ [entry.fileName]
      match (← entry.path.metadata).type with
      | .dir => tree ← snapshot tree inner
      | .file => tree := tree.put inner (.file (← IO.FS.readBinFile (placeText inner)))
      | _ => pure ()
    return tree
  catch _ => return tree

/-- The directories above a place. -/
def above (place : Place) : List Place := (List.range place.length).map fun n => place.take (n + 1)

/-- The host: its environment, and the files below the working directory and in the directories
of the user. -/
def readHost : IO Host := do
  let cwd := placeOf (← IO.currentDir).toString
  let empty := Host.empty cwd
  let host := { empty with environment := ← environment }
  let places := [host.configDirectory?, some host.cacheDirectory, some host.dataDirectory]
  let roots := cwd :: (places.filterMap id).map fun p => placeOf (host.absolute p).text
  let mut tree := host.files
  for root in roots do
    if ← ((← IO.currentDir) / placeText root).isDir then
      for dir in above root do tree := tree.put dir .directory
      tree ← snapshot tree root
  return { host with files := tree }

/-- Carry out a change of the files. -/
def carryOut : Change → IO Unit
  | .makeDirectory place => IO.FS.createDirAll (placeText place)
  | .writeFile place content => IO.FS.writeBinFile (placeText place) content
  | .remove place true => IO.FS.removeDir (placeText place)
  | .remove place false => IO.FS.removeFile (placeText place)

/-- The next line of the input without its end, or nothing. -/
def readLine (input : IO.FS.Stream) : IO (Option String) := do
  let line ← input.getLine
  return if line.isEmpty then none else some line

/-- Run until there is an exit code, writing back the files after every line. -/
partial def interact (input : IO.FS.Stream) (files : Tree) (r : Run) : IO ExitCode := do
  let (streams, r) := r.advance
  IO.print streams.out
  (← IO.getStdout).flush
  IO.eprint streams.err
  let after := r.shared.host.files
  (CommandLine.changes files after).forM carryOut
  match r.exitCode? with
  | some code => return code
  | none => interact input after (r.feed (← readLine input))

end Main
end ScriptSession

/-- The program. -/
def main (args : List String) : IO UInt32 := do
  let host ← ScriptSession.Main.readHost
  let run := ScriptSession.CommandLine.Run.start host args
  let code ← ScriptSession.Main.interact (← IO.getStdin) host.files run
  return code.number.toUInt32

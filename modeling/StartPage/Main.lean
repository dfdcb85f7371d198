import StartPage.CommandLine
import StartPage.Storage.Memory

/-!
The program itself. It looks up the environment, reads the one file that a job is about, lets
the job run in memory, and puts the file back when the job wrote. When that fails, the job is
run again in a memory that refuses to be written.
-/
namespace StartPage.Main

open CommandLine

def lookup (found : List (String × String)) (name : String) : Option String := found.lookup name

def readEnvironment : IO (List (String × String)) := do
  let names := [Config.keyVariable, Config.windowVariable, Config.formatVariable]
  names.filterMapM fun name => do return (← IO.getEnv name).map fun value => (name, value)

def readFile (path key : String) : IO Memory := do
  try
    let content ← IO.FS.readBinFile path
    return { entries := [(key, content.toList)] }
  catch
    | .noFileOrDirectory .. => return {}
    | _ => return { failReads := true }

def makeDirectories (directory : String) : IO Unit := do
  let levels := (Route.ofText directory).above.map Route.text ++ [directory]
  for level in levels.filter (· ≠ "") do
    try IO.FS.createDir level
    catch
      | .alreadyExists .. => pure ()
      | fault => throw fault

/-- Puts the file in place in one piece, and leaves nothing behind when that fails. -/
def writeFile (directory path : String) (bytes : Bytes) : IO Bool := do
  let draft := Folder.join directory (".tmp" ++ toString (← IO.rand 100000 999999))
  try
    makeDirectories directory
    IO.FS.writeBinFile draft bytes.toByteArray
    IO.FS.rename draft path
    return true
  catch _ =>
    try IO.FS.removeFile draft catch _ => pure ()
    return false

def runJob (job : Job) : IO Outcome := do
  let key := job.store.config.key
  let path := Folder.pathFor job.directory key
  let memory ← readFile path key
  let (after, outcome) := job.run memory
  if after.writes = 0 then return outcome
  if ← writeFile job.directory path ((after.get? key).getD []) then return outcome
  return (job.run { memory with failWrites := true }).2

def runProgram (arguments : List String) : IO UInt32 := do
  let environment ← readEnvironment
  let outcome ←
    match plan (lookup environment) arguments with
    | .finished outcome => pure outcome
    | .job job => runJob job
  IO.print outcome.output
  if outcome.complaint ≠ "" then IO.eprintln outcome.complaint
  return .ofNat outcome.code

end StartPage.Main

def main (arguments : List String) : IO UInt32 := StartPage.Main.runProgram arguments

import StartPage.CommandLine.Arguments
import StartPage.CommandLine.Assignment
import StartPage.Document
import StartPage.Json.Printer
import StartPage.Storage.Folder
import StartPage.Store.Timeline

/-!
The command line: print the settings, change some, bring the stored record into the current
shape, or name the file. Planning needs the arguments and the environment only; what is left
then is a job on the place where the bytes live. A job ends with the program, so a write that
is still pending then is not made.
-/
namespace StartPage.CommandLine

inductive Failure where
  | plain (message : String)
  | because (context cause : String)
deriving DecidableEq, Repr

def indent (text : String) : String :=
  String.ofList (text.toList.flatMap fun c => if c = '\n' then '\n' :: "    ".toList else [c])

def Failure.text : Failure → String
  | .plain message => "Error: " ++ message
  | .because context cause =>
    "Error: " ++ context ++ "\n\nCaused by:\n    " ++ indent cause

structure Outcome where
  code : Nat
  output : String := ""
  complaint : String := ""
deriving DecidableEq, Repr, Inhabited

namespace Outcome

def success (output : String) : Outcome := { code := 0, output := output ++ "\n" }

def failure (reason : Failure) : Outcome := { code := 1, complaint := reason.text }

end Outcome

def usage : String :=
  "Usage: start-page [--dir DIR] [--key KEY] [--codec json|msgpack] [--incognito] [--tor] " ++
    "[--rtl] show | set NAME=VALUE... | migrate | path"

/-- A loaded store has something to do. -/
structure Job where
  directory : String
  store : Store
  command : Command

inductive Plan where
  | finished (outcome : Outcome)
  | job (job : Job)

/-- A Tor window is a private one. -/
def Options.host (options : Options) : Host :=
  { direction := if options.rtl then .rtl else .ltr
    incognito := options.incognito || options.tor
    tor := options.tor }

def Options.override (options : Options) (config : Config) : Config :=
  { config with
    key := options.key.getD config.key
    format := options.format.getD config.format }

def plan (environment : String → Option String) (arguments : List String) : Plan :=
  match read arguments with
  | .error .help => .finished (.success usage)
  | .error .usage => .finished { code := 2, complaint := usage }
  | .ok (options, command) =>
    match Config.ofEnvironment environment with
    | .error fault =>
      .finished (.failure (.because "Invalid NEWTAB_STATE_* environment" fault.message))
    | .ok config =>
      let config := options.override config
      let directory := options.directory.getD "."
      -- Naming the file asks less of the key than opening a store does.
      if command = .path then .finished (.success (Folder.pathFor directory config.key))
      else
        match Store.new config Migration.widgetStack options.host with
        | .error fault =>
          .finished (.failure (.because "Failed to create settings store" fault.message))
        | .ok store => .job { directory, store, command }

variable {Place : Type} [Backend Place]

def showSettings (time : Timeline Place) : Outcome :=
  .success (Json.prettyText time.store.snapshot.document)

def save (time : Timeline Place) (complaint : String) : Timeline Place × Option Failure :=
  match time.flush with
  | (time, .error fault) => (time, some (.because "Failed to write settings" fault.message))
  | (time, .ok ()) =>
    if 0 < time.store.tally.failed then (time, some (.plain complaint)) else (time, none)

def setSettings (time : Timeline Place) (assignments : List String) : Timeline Place × Outcome :=
  match readAssignments? assignments with
  | .error fault => (time, .failure (.plain fault.message))
  | .ok record =>
    match Patch.ofRecord record with
    | .error fault => (time, .failure (.because "Rejected settings update" fault.message))
    | .ok patch =>
      let (time, _) := time.update patch
      match save time "Settings were not saved; see the log for the backend error" with
      | (time, some reason) => (time, .failure reason)
      | (time, none) => (time, showSettings time)

def migrate (time : Timeline Place) : Timeline Place × Outcome :=
  let version := toString time.store.chain.current.toNat
  match save time "Migrated record could not be written" with
  | (time, some reason) => (time, .failure reason)
  | (time, none) =>
    if 0 < time.store.tally.completed then
      (time, .success ("Rewrote settings at version " ++ version))
    else (time, .success ("Settings already at version " ++ version))

def Job.run (job : Job) (place : Place) : Place × Outcome :=
  let (time, _) := (Timeline.start job.store place).load
  let (time, outcome) :=
    match job.command with
    | .print | .path => (time, showSettings time)
    | .set assignments => setSettings time assignments
    | .migrate => migrate time
  (time.place, outcome)

def run (environment : String → Option String) (arguments : List String) (tree : FileTree) :
    FileTree × Outcome :=
  match plan environment arguments with
  | .finished outcome => (tree, outcome)
  | .job job =>
    let (folder, outcome) := job.run (⟨job.directory, tree⟩ : Folder)
    (folder.tree, outcome)

end StartPage.CommandLine

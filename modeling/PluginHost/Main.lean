import PluginHost.Program
import PluginHost.Url.CodedNames

/-!
# The command line

A run of the program on the machine that it is called on.  The files that a command looks at
are copied first, the command runs on the copy, and what it has changed is written back.  Where
that is refused, the run is the one of a program that is denied to change the files.  No other
program is started here, so a package manager is never found.
-/

namespace PluginHost

/-- The variables that the program looks at. -/
def variableNames : List String :=
  ["PLUGDECK_CONFIG_DIR", "PLUGDECK_DATA_DIR", "PLUGDECK_PACKAGE_MANAGER", "PLUGDECK_REGISTRY",
    "XDG_CONFIG_HOME", "XDG_DATA_HOME", "HOME", "PATH"]

/-- The variables that are set. -/
def readEnvironment : IO Environment := do
  let values ← variableNames.mapM fun name => do return (← IO.getEnv name).map (name, ·)
  return ⟨values.filterMap id⟩

/-- The files with a copy of what a path leads to, down to a depth. -/
def copyTree : Nat → Path → Files → IO Files
  | 0, _, files => return files
  | depth + 1, p, files => do
    try
      let bytes ← IO.FS.readBinFile p.text
      return files.provide p (.file ((String.fromUTF8? bytes).elim .binary .text))
    catch _ =>
      try
        let entries ← ((← IO.currentDir) / p.text).readDir
        entries.foldlM (fun files e => copyTree depth (p.below e.fileName) files)
          (files.provide p .directory)
      catch _ => return files

/-- The depth to which directories are copied. -/
def copyDepth : Nat := 64

/-- The files with a copy of what a path leads to, and of the directories above it. -/
def copyPath (files : Files) (p : Path) : IO Files := do
  let above ← p.ancestors.reverse.foldlM (fun files a => copyTree 1 a files) files
  copyTree copyDepth p above

/-- The file that a command is told to read. -/
def Command.file? : Command → Option Path
  | .plugins (.install (.file path) _) => some path
  | _ => none

/-- The paths that the program looks at under some settings, and the file of a command. -/
def lookedAt (e : Environment) (s : Settings) (words : List String) : List Path :=
  [e.pluginDirectory, s.root e, e.hostDirectory]
    ++ ((Command.grammar.read Command.commonOptions words).toOption.bind Command.file?).toList

/-- The machine that the program is called on, as far as some words need it. -/
def readMachine (words : List String) : IO Machine := do
  let e ← readEnvironment
  let here : Path := ⟨(← IO.currentDir).toString⟩
  let start ← copyPath (← copyTree 1 here ⟨[], here, false⟩) e.settingsFile
  let s := (Settings.load e start).toOption.getD Settings.default
  let files ← (lookedAt e s words).foldlM copyPath start
  return { files, environment := e, manager := ⟨""⟩, replies := [],
           lastReply := ⟨[], [], [], .code 1⟩, calls := [] }

/-- Puts a file with a text in the place of the one at a path. -/
def replaceFile (path text : String) : IO Unit := do
  let staged := path ++ ".staged"
  try
    IO.FS.writeFile staged text
    IO.FS.rename staged path
  catch e =>
    try IO.FS.removeFile staged catch _ => pure ()
    throw e

/-- Writes back the entries that are not as they were. -/
def writeBack (before after : Files) : IO Unit := do
  for (location, entry) in after.entries.reverse do
    let path := "/" ++ "/".intercalate location
    if before.entryAt location ≠ some entry then
      match entry with
      | .directory => IO.FS.createDirAll path
      | .file (.text s) => replaceFile path s
      | .file .binary => pure ()

/-- What is shown about words that make no command. -/
def usageText (error : UsageError) : String :=
  match error with
  | .help => (Host.builtin ⟨""⟩).commandTree.outline ++ "\n"
  | _ => "error: " ++ error.message ++ "\n"

attribute [local instance] Url.codedNames

/-- How a run on a machine ends, once what it has changed has been written back or refused. -/
def Machine.perform (machine : Machine) (words : List String) : IO (Ending × Console) := do
  let (ending, console) := (Console.ofMachine machine).run words
  try
    writeBack machine.files console.machine.files
    return (ending, console)
  catch _ =>
    let denied := { machine with files := { machine.files with denied := true } }
    return (Console.ofMachine denied).run words

end PluginHost

open PluginHost

/-- Runs the program. -/
def main (words : List String) : IO UInt32 := do
  let (ending, console) ← (← readMachine words).perform words
  IO.print console.output
  IO.eprint console.notices
  match ending with
  | .misused .help => IO.print (usageText .help)
  | .misused error => IO.eprint (usageText error)
  | _ => pure ()
  return ending.code

import PluginHost.Arguments.Reader
import PluginHost.Command
import PluginHost.Complaint
import PluginHost.PackageManager.Npm
import PluginHost.Manager
import PluginHost.Settings.Store

/-!
# The program

What the commands do on a machine, and what they print.  Output and notices are kept apart,
and a command that cannot do its work ends in a `Complaint`.  Commands about plugins load the
settings first, and each works in a session of its own.
-/

namespace PluginHost

/-- A machine, and what has been printed on it. -/
structure Console where
  machine : Machine
  output : String
  notices : String

/-- The work of a command. -/
abbrev Action := ExceptT Complaint (StateM Console)

namespace Action

variable {α : Type} [DomainNames]

/-- How an action ends on a console, and the console after it. -/
def outcome (act : Action α) (c : Console) : Except Complaint α × Console := act.run.run c

/-- Prints a text. -/
def say (text : String) : Action Unit := modify fun c => { c with output := c.output ++ text }

/-- Prints a line. -/
def sayLine (text : String) : Action Unit := say (text ++ "\n")

/-- Prints a line beside the output. -/
def notice (text : String) : Action Unit :=
  modify fun c => { c with notices := c.notices ++ text ++ "\n" }

/-- The environment. -/
def environment : Action Environment := do return (← get).machine.environment

/-- The files. -/
def files : Action Files := do return (← get).machine.files

/-- Changes the files. -/
def setFiles (files : Files) : Action Unit :=
  modify fun c => { c with machine := { c.machine with files } }

/-- The result of work on settings in a circumstance. -/
def settle (circumstance : Option Circumstance) (x : Except SettingsError α) : Action α :=
  match x with
  | .ok a => return a
  | .error e => throw ⟨circumstance, .settings e⟩

/-! ### Settings -/

/-- The settings that the program works with. -/
def loadSettings : Action Settings := do
  settle (some .loadingSettings) (Settings.load (← environment) (← files))

/-- The settings in the file, whatever variables say, or the default ones if there is no
file. -/
def storedSettings : Action Settings := do
  settle none (Settings.stored (← environment) (← files))

/-- Puts settings into the file. -/
def saveSettings (s : Settings) : Action Unit := do
  let (x, files) := s.save (← files) (← environment).settingsFile
  setFiles files
  settle (some .savingSettings) x

/-- Changes a setting in the file. -/
def assign (key value : String) : Action Unit := do
  let s ← storedSettings
  saveSettings (← settle (some (.assigning key value)) (s.assign key value))

/-- What a command about settings does. -/
def runSettings : SettingsCommand → Action Unit
  | .get none => do say (← loadSettings).print
  | .get (some key) => do
    let s ← loadSettings
    sayLine (← settle none (s.valueOf (← environment) key))
  | .set key value => do
    assign key value
    sayLine "Configuration saved"
  | .list => do
    let s ← loadSettings
    let e ← environment
    for key in SettingsKey.all do
      sayLine (key.name ++ ": " ++ s.value e key)
  | .path => do sayLine (← environment).settingsFile.text
  | .validate => do
    settle (some .validatingSettings) (Settings.validate (← environment) (← files))
    sayLine "Configuration is valid"

/-! ### Plugins -/

/-- The manager of plugins under some settings. -/
def manager (s : Settings) (e : Environment) : Manager Machine where
  host := { Host.builtin e.hostDirectory with sharedModules := s.sharedModules }
  store := ⟨e.inventoryFile⟩
  packages := (⟨s.packageManager, s.root e⟩ : Npm).manager
  defaultRegistry := s.registry

/-- An operation on plugins in a circumstance and in a new session. -/
def manage (s : Settings) (circumstance : Circumstance)
    (act : Manager Machine → Attempt (Session Machine) α) : Action α := do
  let m := manager s (← environment)
  let (x, session) := (act m).outcome (m.start (← get).machine)
  modify fun c => { c with machine := session.world }
  match x with
  | .ok a => return a
  | .error failure => throw ⟨some circumstance, .plugins failure⟩

/-- The installation of packages from a source. -/
def install (s : Settings) (registry : Option String) : PackageSource → Action (List Outcome)
  | .file path => manage s (.installingFrom path) (·.installListed path registry)
  | .locators list => manage s .installing (·.install list registry)
  | .registered => manage s .reinstalling (·.reinstall registry)

/-- The text about an installed plugin. -/
def printOutcome (o : Outcome) : String :=
  let name := "'" ++ o.record.name ++ "'"
  "Installed plugin name = " ++ name ++ " (version " ++ o.record.version ++ ")\n"
    ++ o.report.print
    ++ if o.report.hasErrors then
        "The plugin " ++ name ++ " will not be loaded until its errors are fixed.\n"
      else ""

/-- The text about all installed plugins. -/
def printOutcomes (os : List Outcome) : String :=
  if os.isEmpty then "No plugins to install.\n" else String.join (os.map printOutcome)

/-- What a command about plugins does. -/
def runPlugins (command : PluginCommand) : Action Unit := do
  let s ← loadSettings
  match command with
  | .install source registry => say (printOutcomes (← install s registry source))
  | .uninstall name =>
    let _ ← manage s (.uninstalling name) (·.uninstall name)
    sayLine ("Removal of the plugin '" ++ name ++ "' was successful.")
  | .update name registry =>
    let version ← manage s (.updating name) (·.update name registry)
    sayLine ("Update of the plugin '" ++ name ++ "' to version " ++ version
      ++ " was successful.")
  | .list short => say (Record.printList (← manage s .readingInventory (·.list)) short)
  | .validate name failOnError failOnWarning =>
    let report ← manage s .validatingPlugins (·.validate name)
    say report.print
    unless report.passes failOnError (failOnWarning || s.failOnWarning) do
      throw ⟨none, .invalidPlugins (report.count .error) (report.count .warning)⟩

/-- The names of the plugins that have errors in a log. -/
def brokenPlugins (log : IssueLog) : List String := log.names.filter fun p => log.has p .error

/-- Prints the commands of the host together with those of the plugins. -/
def printTree : Action Unit := do
  let s ← loadSettings
  let (tree, broken) ← manage s .loadingPlugins fun m => do
    let tree ← m.extend m.host.commandTree
    return (tree, brokenPlugins (← get).log)
  sayLine tree.outline
  for plugin in broken do
    notice ("Plugin '" ++ plugin ++ "' was not loaded. Run `plugdeck plugins validate " ++ plugin
      ++ "` for details.")

/-! ### The program as a whole -/

/-- The text about the version of the program. -/
def versionText : String :=
  Host.builtinPackage ++ " " ++ Host.builtinVersion ++ "\n"
    ++ "  Plugin lifecycle and command-tree composition for modular command-line applications\n"
    ++ "  Framework: " ++ Host.builtinFramework ++ " " ++ Host.builtinVersion ++ "\n"
    ++ "  License: Apache-2.0\n"
    ++ "  Repository: https://github.com/dgunzy/plugdeck\n"

/-- What a command does. -/
def runCommand : Command → Action Unit
  | .plugins command => runPlugins command
  | .settings command => runSettings command
  | .tree => printTree
  | .version => say versionText

end Action

/-- How a run of the program ends. -/
inductive Ending where
  | done
  | failed (complaint : Complaint)
  | misused (error : UsageError)
  deriving DecidableEq, Repr

/-- The exit code of an ending; to ask for help is no misuse. -/
def Ending.code : Ending → UInt32
  | done => 0
  | failed _ => 1
  | misused .help => 0
  | misused _ => 2

namespace Console

/-- The console of a machine on which nothing has been printed. -/
def ofMachine (m : Machine) : Console := ⟨m, "", ""⟩

/-- How an action ends, as the ending of a run. -/
def perform (c : Console) (act : Action Unit) : Ending × Console :=
  match act.outcome c with
  | (.ok (), c) => (.done, c)
  | (.error complaint, c) => (.failed complaint, c)

/-- A run of a part of the program that some words choose a command of. -/
def runWords {α : Type} (c : Console) (grammar : Grammar α) (common : List Argument)
    (act : α → Action Unit) (words : List String) : Ending × Console :=
  match grammar.read common words with
  | .ok command => c.perform (act command)
  | .error error => (.misused error, c)

/-- A run of the program, which prints the complaint that it ends with. -/
def run [DomainNames] (c : Console) (words : List String) : Ending × Console :=
  match c.runWords Command.grammar Command.commonOptions Action.runCommand words with
  | (.failed complaint, c) =>
    (.failed complaint, { c with notices := c.notices ++ complaint.line })
  | ending => ending

end Console

end PluginHost

import PluginHost.Path

/-!
# The environment

The variables of the environment, and the directories that follow from them: settings are kept
in `configDirectory` and everything that concerns plugins below `dataDirectory`.  Each is named
by a variable of its own, or lies in the directory of the user for such things, which a further
variable or the home directory tells.
-/

namespace PluginHost

/-- The variables of the environment. -/
structure Environment where
  bindings : List (String × String)

namespace Environment

/-- The value of a variable. -/
def lookup? (e : Environment) (name : String) : Option String :=
  (e.bindings.find? fun v => v.1 == name).map (·.2)

/-- The value of a variable that is not empty. -/
def nonempty? (e : Environment) (name : String) : Option String :=
  (e.lookup? name).filter (· ≠ "")

/-- The name of the program in directories that it shares with others. -/
def programName : String := "plugdeck"

/-- The home directory, or the current one where it is not known. -/
def home (e : Environment) : Path := ⟨(e.nonempty? "HOME").getD "."⟩

/-- A directory that a variable names, or one of the program in a directory that another
variable names, or in one below the home directory. -/
def directory (e : Environment) (own shared : String) (below : List String) : Path :=
  match e.lookup? own with
  | some path => ⟨path⟩
  | none =>
    let base : Path := match e.lookup? shared with
      | some path => ⟨path⟩
      | none => below.foldl Path.below e.home
    base.below programName

/-- The directory of the settings. -/
def configDirectory (e : Environment) : Path :=
  e.directory "PLUGDECK_CONFIG_DIR" "XDG_CONFIG_HOME" [".config"]

/-- The directory of everything that concerns plugins. -/
def dataDirectory (e : Environment) : Path :=
  e.directory "PLUGDECK_DATA_DIR" "XDG_DATA_HOME" [".local", "share"]

/-- The file of the settings. -/
def settingsFile (e : Environment) : Path := e.configDirectory.below "config.yaml"

/-- The directory of the plugins. -/
def pluginDirectory (e : Environment) : Path := e.dataDirectory.below "plugins"

/-- The file of the inventory. -/
def inventoryFile (e : Environment) : Path := e.pluginDirectory.below "plugins.json"

/-- The directory of the host. -/
def hostDirectory (e : Environment) : Path := e.dataDirectory.below "host"

/-- The directory that packages are installed into unless the settings name another. -/
def installRoot (e : Environment) : Path := e.pluginDirectory.below "installed"

end Environment

end PluginHost

import PluginHost.Arguments
import PluginHost.Path

/-!
# Commands

The commands that the program understands, and the grammar of the words that choose them.
-/

namespace PluginHost

/-- Where the packages to install are named: in a file, by their locators, or in the inventory
of what is installed already. -/
inductive PackageSource where
  | file (path : Path)
  | locators (list : List String)
  | registered
  deriving DecidableEq, Repr

/-- The commands about plugins. -/
inductive PluginCommand where
  | install (source : PackageSource) (registry : Option String)
  | uninstall (name : String)
  | update (name : String) (registry : Option String)
  | list (short : Bool)
  | validate (name : Option String) (failOnError failOnWarning : Bool)
  deriving DecidableEq, Repr

/-- The commands about settings. -/
inductive SettingsCommand where
  | get (key : Option String)
  | set (key value : String)
  | list
  | path
  | validate
  deriving DecidableEq, Repr

/-- The commands of the program. -/
inductive Command where
  | plugins (command : PluginCommand)
  | settings (command : SettingsCommand)
  | tree
  | version
  deriving DecidableEq, Repr

/-- The packages that values name: a file excludes locators, and without either the inventory
is meant. -/
def PackageSource.ofValues (v : Values) : PackageSource :=
  match v.text? "file" with
  | some path => .file ⟨path⟩
  | none => if (v.texts "locators").isEmpty then .registered else .locators (v.texts "locators")

/-- The name of a plugin, as a required operand. -/
def Argument.pluginName : Argument := { name := "name", kind := .text, required := true }

/-- The registry of packages, as an option. -/
def Argument.registry : Argument := { name := "registry", kind := .text }

/-- The grammar of the commands about plugins. -/
def PluginCommand.grammar : Grammar PluginCommand := .group [
  (["install"], .command
    [.registry, { name := "file", kind := .path, letter := some 'f' }]
    [{ name := "locators", kind := .text, many := true }]
    [("file", "locators")]
    fun v => .install (.ofValues v) (v.text? "registry")),
  (["uninstall"], .command [] [.pluginName] [] fun v => .uninstall (v.text "name")),
  (["update"], .command [.registry] [.pluginName] []
    fun v => .update (v.text "name") (v.text? "registry")),
  (["list", "ls"], .command [{ name := "short", kind := .switch }] [] []
    fun v => .list (v.has "short")),
  (["validate"], .command
    [{ name := "fail-on-error", kind := .truth }, { name := "fail-on-warning", kind := .switch }]
    [{ name := "name", kind := .text }] []
    fun v => .validate (v.text? "name") (v.truth "fail-on-error" true) (v.has "fail-on-warning"))]

/-- The grammar of the commands about settings. -/
def SettingsCommand.grammar : Grammar SettingsCommand := .group [
  (["get"], .command [] [{ name := "key", kind := .text }] [] fun v => .get (v.text? "key")),
  (["set"], .command []
    [{ name := "key", kind := .text, required := true },
      { name := "value", kind := .text, required := true }] []
    fun v => .set (v.text "key") (v.text "value")),
  (["list"], .plain .list),
  (["path"], .plain .path),
  (["validate"], .plain .validate)]

namespace Command

/-- The grammar of the commands of the program. -/
def grammar : Grammar Command := .group [
  (["plugins", "plugin"], PluginCommand.grammar.map .plugins),
  (["config"], SettingsCommand.grammar.map .settings),
  (["tree"], .plain .tree),
  (["version"], .plain .version)]

/-- The options that every command understands: a switch that asks for a log, which leaves what
a command does and prints as it is. -/
def commonOptions : List Argument :=
  [{ name := "debug", kind := .switch, letter := some 'd' }]

end Command

end PluginHost

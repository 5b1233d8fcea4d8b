import PluginHost.CommandTree

/-!
# The host

The host is the program that plugins extend.  It knows its own package and that of its
framework, where its modules are, which profile types it defines, and which further packages
it shares with plugins.  `Host.builtin` is the program itself and `Host.commandTree` the
commands that it has without plugins.
-/

namespace PluginHost

/-- The identity of a host and what it shares with plugins. -/
structure Host where
  package : String
  version : String
  framework : String
  frameworkVersion : String
  root : Path
  profileTypes : List String
  sharedModules : List String
  deriving DecidableEq, Repr

namespace Host

/-- The package of the program. -/
def builtinPackage : String := "plugdeck"

/-- The package of its framework. -/
def builtinFramework : String := "@plugdeck/core"

/-- The version of both. -/
def builtinVersion : String := "0.1.0"

/-- The program as a host, with its modules in a directory. -/
def builtin (root : Path) : Host where
  package := builtinPackage
  version := builtinVersion
  framework := builtinFramework
  frameworkVersion := builtinVersion
  root := root
  profileTypes := ["base"]
  sharedModules := []

/-- The packages that plugins use from the host: its own, that of the framework, and the shared
ones that are not among those before them. -/
def sharedPackages (h : Host) : List String :=
  h.sharedModules.foldl (fun shared m => if shared.contains m then shared else shared ++ [m])
    [h.package, h.framework]

/-- A command of the program, run by the part of it that has the given words as id. -/
def builtinCommand (name description id : String) : CommandTree :=
  .plainCommand name description (.builtin id)

/-- The commands about the configuration. -/
def configCommands : CommandTree :=
  .plainGroup "config" "Manage configuration"
    [builtinCommand "get" "Get a configuration value" "config get",
      builtinCommand "set" "Set a configuration value" "config set",
      builtinCommand "list" "List all configuration" "config list",
      builtinCommand "path" "Show the configuration file path" "config path",
      builtinCommand "validate" "Validate configuration" "config validate"]

/-- The commands about plugins. -/
def pluginCommands : CommandTree :=
  (CommandTree.plainGroup "plugins" "Install and manage plugins"
    [builtinCommand "install" "Install plugins" "plugins install",
      builtinCommand "uninstall" "Uninstall a plugin" "plugins uninstall",
      builtinCommand "update" "Update a plugin" "plugins update",
      (builtinCommand "list" "List installed plugins" "plugins list").replaceAliases ["ls"],
      builtinCommand "validate" "Validate installed plugins" "plugins validate"]).replaceAliases
    ["plugin"]

/-- The command tree of a host without plugins. -/
def commandTree (h : Host) : CommandTree :=
  .plainGroup h.package "Extensible command-line interface"
    [configCommands, pluginCommands,
      builtinCommand "tree" "Show the merged command tree" "tree",
      builtinCommand "version" "Show version information" "version"]

end Host

end PluginHost

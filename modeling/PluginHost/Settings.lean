import PluginHost.Environment
import PluginHost.Files
import PluginHost.Text.Digits
import PluginHost.Url

/-!
# Settings

The settings of the program, each of which has a key.  `SettingsError` lists what can be wrong
with them, and `SettingsError.chain` words it from the outermost circumstance to the cause.
-/

namespace PluginHost

/-- The settings of the program. -/
structure Settings where
  packageManager : String
  registry : Option String
  installRoot : Option Path
  sharedModules : List String
  failOnWarning : Bool
  deriving DecidableEq, Repr

/-- The settings where none are given. -/
def Settings.default : Settings := ⟨"npm", none, none, [], false⟩

/-! ### Keys -/

/-- The settings that can be read and changed one at a time. -/
inductive SettingsKey where
  | packageManager
  | registry
  | installRoot
  | sharedModules
  | failOnWarning
  deriving DecidableEq, Repr

namespace SettingsKey

/-- All keys, in the order in which they are listed. -/
def all : List SettingsKey :=
  [packageManager, registry, installRoot, sharedModules, failOnWarning]

/-- The name of a key. -/
def name : SettingsKey → String
  | packageManager => "packageManager"
  | registry => "registry"
  | installRoot => "installRoot"
  | sharedModules => "sharedModules"
  | failOnWarning => "validation.failOnWarning"

/-- The key of a name. -/
def ofName? (s : String) : Option SettingsKey := all.find? (·.name == s)

end SettingsKey

/-! ### Errors -/

/-- The wording of every refusal of a text as YAML. -/
def Yaml.refusal : String := "<yaml error>"

/-- What can be wrong with settings, or with the file that they are in. -/
inductive SettingsError where
  | emptyPackageManager
  | badRegistry (text : String) (reason : UrlError)
  | relativeInstallRoot
  | relativeInstallRootIs (path : Path)
  | blankModule (index : Nat)
  | badModules
  | badBool
  | unknownKey (name : String)
  | notRead (path : Path) (reason : FileError)
  | notParsed (path : Path)
  | noDirectory (path : Path) (reason : FileError)
  | notWritten (path : Path) (reason : FileError)
  | inFile (path : Path) (cause : SettingsError)
  | loadingMerged (cause : SettingsError)
  | afterOverrides (cause : SettingsError)
  deriving DecidableEq, Repr

namespace SettingsError

/-- The wordings of an error, from the outermost circumstance to the cause. -/
def chain : SettingsError → List String
  | emptyPackageManager => ["packageManager must not be empty"]
  | badRegistry text reason =>
    ["registry '" ++ text ++ "' is not a valid URL", reason.message]
  | relativeInstallRoot => ["installRoot must be an absolute path"]
  | relativeInstallRootIs path =>
    ["installRoot must be an absolute path, got '" ++ path.text ++ "'"]
  | blankModule index => ["sharedModules[" ++ Text.decimal index ++ "] is empty"]
  | badModules =>
    ["sharedModules must be a YAML array (e.g., ['@plugdeck/rest'])", Yaml.refusal]
  | badBool =>
    ["validation.failOnWarning must be 'true' or 'false'",
      "provided string was not `true` or `false`"]
  | unknownKey name => ["Unknown configuration key: " ++ name]
  | notRead path reason => ["Failed to read config file: " ++ path.text, reason.message]
  | notParsed path => ["Failed to parse config file: " ++ path.text, Yaml.refusal]
  | noDirectory path reason => ["Failed to create directory: " ++ path.text, reason.message]
  | notWritten path reason => ["Failed to write config file: " ++ path.text, reason.message]
  | inFile path cause => ("Invalid configuration in " ++ path.text) :: cause.chain
  | loadingMerged cause => "Failed to load merged configuration" :: cause.chain
  | afterOverrides cause =>
    "Invalid configuration after environment overrides" :: cause.chain

end SettingsError

end PluginHost

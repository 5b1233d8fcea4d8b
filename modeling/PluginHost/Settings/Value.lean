import PluginHost.Settings.Document
import PluginHost.Text.Blank
import PluginHost.Url.Reader

/-!
# Single settings

`Settings.value` shows the setting of a key as a text, `Settings.assign` changes it to what a
text says, and `Settings.check` looks at all settings whether they can be used.  An empty text
unsets a setting that need not be set.
-/

namespace PluginHost.Settings

/-- The directory that packages are installed into. -/
def root (s : Settings) (e : Environment) : Path := s.installRoot.getD e.installRoot

/-- The text of a truth value. -/
def boolText (b : Bool) : String := if b then "true" else "false"

/-- The setting of a key, as a text. -/
def value (s : Settings) (e : Environment) : SettingsKey → String
  | .packageManager => s.packageManager
  | .registry => s.registry.getD ""
  | .installRoot => (s.root e).text
  | .sharedModules => ",".intercalate s.sharedModules
  | .failOnWarning => boolText s.failOnWarning

/-- A URL, for which the text itself is kept. -/
def readRegistry [DomainNames] (text : String) : Except SettingsError String :=
  match Url.read text with
  | .ok _ => .ok text
  | .error reason => .error (.badRegistry text reason)

/-- The modules between commas, without blanks around them and without empty ones. -/
def splitModules (text : String) : List String :=
  ((Text.splitOn ',' text.toList).map Text.trimChars).filterMap fun m =>
    if m.isEmpty then none else some (String.ofList m)

/-- A list of modules in brackets, or between commas. -/
def readModules (text : String) : Except SettingsError (List String) :=
  if (Text.trimStartChars text.toList).head? = some '[' then
    match readModules? text with
    | some modules => .ok modules
    | none => .error .badModules
  else .ok (splitModules text)

/-- The settings with that of a key changed to what a text says. -/
def assignKey [DomainNames] (s : Settings) (key : SettingsKey) (text : String) :
    Except SettingsError Settings :=
  match key with
  | .packageManager =>
    if Text.isBlankText text then .error .emptyPackageManager
    else .ok { s with packageManager := text }
  | .registry =>
    if text = "" then .ok { s with registry := none }
    else do return { s with registry := some (← readRegistry text) }
  | .installRoot =>
    if text = "" then .ok { s with installRoot := none }
    else if (⟨text⟩ : Path).isAbsolute then .ok { s with installRoot := some ⟨text⟩ }
    else .error .relativeInstallRoot
  | .sharedModules => do return { s with sharedModules := ← readModules text }
  | .failOnWarning =>
    if text = boolText true then .ok { s with failOnWarning := true }
    else if text = boolText false then .ok { s with failOnWarning := false }
    else .error .badBool

/-- The key of a name. -/
def keyOf (name : String) : Except SettingsError SettingsKey :=
  match SettingsKey.ofName? name with
  | some key => .ok key
  | none => .error (.unknownKey name)

/-- The setting that a name stands for, as a text. -/
def valueOf (s : Settings) (e : Environment) (name : String) : Except SettingsError String := do
  return s.value e (← keyOf name)

/-- The settings with the one that a name stands for changed to what a text says. -/
def assign [DomainNames] (s : Settings) (name text : String) : Except SettingsError Settings := do
  s.assignKey (← keyOf name) text

/-- The first thing that is wrong with some settings. -/
def check [DomainNames] (s : Settings) : Except SettingsError Unit := do
  if Text.isBlankText s.packageManager then throw .emptyPackageManager
  if let some registry := s.registry then
    let _ ← readRegistry registry
  if let some path := s.installRoot then
    if !path.isAbsolute then throw (.relativeInstallRootIs path)
  match s.sharedModules.findIdx? Text.isBlankText with
  | some index => throw (.blankModule index)
  | none => return ()

end PluginHost.Settings

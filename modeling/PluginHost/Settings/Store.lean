import PluginHost.Settings.Value

/-!
# The file of the settings

Settings come from a file, if it is there, and some of them may be overridden by variables of
the environment.  Saving creates the directory of the file if it is missing.
-/

namespace PluginHost.Settings

/-- The settings in a file. -/
def ofFile (files : Files) (path : Path) : Except SettingsError Settings :=
  match files.read path with
  | .error reason => .error (.notRead path reason)
  | .ok text =>
    match read? text with
    | some s => .ok s
    | none => .error (.notParsed path)

/-- The settings in the file of the environment, or the default ones if there is no file. -/
def stored (e : Environment) (files : Files) : Except SettingsError Settings :=
  if files.exists? e.settingsFile then ofFile files e.settingsFile else .ok default

/-- The settings with those that variables override, unless they are empty. -/
def override (s : Settings) (e : Environment) : Settings :=
  { s with
    packageManager := (e.nonempty? "PLUGDECK_PACKAGE_MANAGER").getD s.packageManager
    registry := (e.nonempty? "PLUGDECK_REGISTRY").or s.registry }

/-- The settings that the program works with. -/
def load (e : Environment) (files : Files) : Except SettingsError Settings := do
  return (← stored e files).override e

/-- An error in a circumstance, if there is one. -/
def within {α : Type} (circumstance : SettingsError → SettingsError)
    (x : Except SettingsError α) : Except SettingsError α := x.mapError circumstance

/-- The first thing that is wrong with the settings in the file, or else with those that the
program works with. -/
def validate [DomainNames] (e : Environment) (files : Files) : Except SettingsError Unit := do
  if files.exists? e.settingsFile then
    within (.inFile e.settingsFile) (← ofFile files e.settingsFile).check
  within .afterOverrides (← within .loadingMerged (load e files)).check

/-- The files after a directory has been created, if it is missing. -/
def makeParent (files : Files) (path : Path) : Except SettingsError Files :=
  match path.parent? with
  | none => .ok files
  | some parent =>
    if files.exists? parent then .ok files
    else (files.makeDirectories parent).mapError (.noDirectory parent)

/-- The files after some settings have been saved to a path, or after what has been done
before that failed. -/
def save (s : Settings) (files : Files) (path : Path) : Except SettingsError Unit × Files :=
  match makeParent files path with
  | .error e => (.error e, files)
  | .ok made =>
    match made.write path s.print with
    | .error reason => (.error (.notWritten path reason), made)
    | .ok written => (.ok (), written)

end PluginHost.Settings

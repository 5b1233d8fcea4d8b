import PluginHost.Failure
import PluginHost.Settings

/-!
# Complaints

A complaint tells why a command could not do its work: what went wrong, and what the program
was doing when it did.  `Complaint.chain` words it from the outermost circumstance to the
cause.
-/

namespace PluginHost

/-- What the program is doing when something goes wrong. -/
inductive Circumstance where
  | loadingSettings
  | assigning (key value : String)
  | savingSettings
  | validatingSettings
  | installing
  | reinstalling
  | installingFrom (file : Path)
  | uninstalling (name : String)
  | updating (name : String)
  | readingInventory
  | validatingPlugins
  | loadingPlugins
  deriving DecidableEq, Repr

/-- The wording of what has failed. -/
def Circumstance.failed : Circumstance → String
  | loadingSettings => "Failed to load configuration"
  | assigning key value => "Failed to set " ++ key ++ " = " ++ value
  | savingSettings => "Failed to save configuration"
  | validatingSettings => "Configuration validation failed"
  | installing => "Failed to install plugins"
  | reinstalling => "Failed to reinstall registered plugins"
  | installingFrom file => "Failed to install plugins listed in " ++ file.text
  | uninstalling name => "Failed to uninstall plugin '" ++ name ++ "'"
  | updating name => "Failed to update plugin '" ++ name ++ "'"
  | readingInventory => "Failed to read the plugin registry"
  | validatingPlugins => "Failed to validate plugins"
  | loadingPlugins => "Failed to load plugins"

/-- What goes wrong. -/
inductive Trouble where
  | plugins (failure : Failure)
  | settings (error : SettingsError)
  | invalidPlugins (errors warnings : Nat)
  deriving DecidableEq, Repr

/-- The wordings of a trouble and what is behind it. -/
def Trouble.chain : Trouble → List String
  | plugins failure => failure.chain
  | settings error => error.chain
  | invalidPlugins errors warnings =>
    ["Plugin validation failed: " ++ Text.decimal errors ++ " error(s), "
      ++ Text.decimal warnings ++ " warning(s)"]

/-- A trouble, and the circumstance of it if that needs to be said. -/
structure Complaint where
  circumstance : Option Circumstance
  trouble : Trouble
  deriving DecidableEq, Repr

namespace Complaint

/-- The wordings of a complaint, from the outermost circumstance to the cause. -/
def chain (c : Complaint) : List String :=
  (c.circumstance.map Circumstance.failed).toList ++ c.trouble.chain

/-- A complaint on one line. -/
def line (c : Complaint) : String := "Error: " ++ ": ".intercalate c.chain ++ "\n"

end Complaint

end PluginHost

import PluginHost.ByName
import PluginHost.Json.Printer
import PluginHost.Json.Record

/-!
# The inventory of plugins

The inventory holds for each installed plugin where it came from and its version, in the order
of the names.  It is written as a JSON object of plugins by name: `Inventory.print` gives that
text, and `Inventory.read?` the inventory that a text spells.
-/

namespace PluginHost

/-- How a plugin was installed. -/
structure Installation where
  locator : String
  registry : String
  version : String
  deriving DecidableEq, Repr

/-- An installation together with the name of its plugin. -/
structure Record where
  name : String
  locator : String
  registry : String
  version : String
  deriving DecidableEq, Repr

/-- A record without its name. -/
def Record.installation (r : Record) : Installation := ⟨r.locator, r.registry, r.version⟩

/-- The record of the plugin with a name. -/
def Installation.record (name : String) (i : Installation) : Record :=
  ⟨name, i.locator, i.registry, i.version⟩

/-! ### The form in JSON -/

namespace Installation

/-- The fields of an installation, in order. -/
def fieldNames : List String := ["package", "registry", "version"]

/-- An installation in JSON. -/
def shape : Json.Shape Installation
  | 0, _ => none
  | n + 1, value => do
    match ← Json.fields? fieldNames value with
    | [locator, registry, version] =>
      return {
        locator := ← Json.required Json.text n locator
        registry := ← Json.required Json.text n registry
        version := ← Json.required Json.text n version }
    | _ => none

/-- The text of an installation, one level deep. -/
def print (i : Installation) : List Char :=
  Json.printObject 1
    (fieldNames.zip [Json.quote i.locator, Json.quote i.registry, Json.quote i.version])

end Installation

/-- The installed plugins. -/
abbrev Inventory := ByName Installation

namespace Inventory

/-- The records of all plugins, in the order of their names. -/
def records (r : Inventory) : List Record := r.entries.map fun e => e.2.record e.1

/-- The record of a plugin. -/
def record? (r : Inventory) (name : String) : Option Record := (r.get? name).map (·.record name)

/-- The inventory with a record in the place of the one of its name. -/
def add (r : Inventory) (record : Record) : Inventory :=
  r.insert record.name record.installation

/-- The inventory with the installation of a plugin changed, if the plugin is there. -/
def adjust (r : Inventory) (name : String) (change : Installation → Installation) : Inventory :=
  match r.get? name with
  | some i => r.insert name (change i)
  | none => r

/-- The text of an inventory. -/
def print (r : Inventory) : String :=
  String.ofList (Json.printObject 0 (r.entries.map fun e => (e.1, e.2.print)))

/-- The inventory that a text spells. -/
def read? (text : String) : Option Inventory :=
  (Json.decode? (Json.table Installation.shape) text).map ByName.ofList

end Inventory

end PluginHost

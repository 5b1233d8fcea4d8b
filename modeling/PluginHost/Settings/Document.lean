import PluginHost.Settings
import PluginHost.Yaml.Node.Reader
import PluginHost.Yaml.Printer

/-!
# Settings as a document

Settings are written in YAML, as a mapping with a mapping inside it.  `Settings.read?` reads
them: a key that is missing has its default, keys that are not known are not looked at, a known
key must not be repeated, and where a mapping or a list is expected nothing at all means an
empty one.  `Settings.print` writes them without the keys that are not set.
-/

namespace PluginHost

namespace Settings

open Yaml (Node)

/-- The text of a scalar, whatever it spells. -/
def textIn? (root : Node) (value : Node) : Option String :=
  match root.resolve? value with
  | some (.scalar _ _ text) => some (String.ofList text)
  | _ => none

/-- The tag of null. -/
def nullTag : List Char := "tag:yaml.org,2002:null".toList

/-- The tag of truth values. -/
def boolTag : List Char := "tag:yaml.org,2002:bool".toList

/-- The text of a scalar that may be missing: a plain one is missing if it is empty or spells
null. -/
def optionalTextIn? (root : Node) (value : Node) : Option (Option String) :=
  match root.resolve? value with
  | some (.scalar p style text) =>
    if style ≠ .plain then some (some (String.ofList text))
    else match p.tag with
      | some tag =>
        if tag ≠ nullTag then some (some (String.ofList text))
        else if Yaml.isNull text then some none
        else none
      | none =>
        if text.isEmpty || Yaml.isNull text then some none else some (some (String.ofList text))
  | _ => none

/-- The truth value of a plain scalar, or of one in lines with the tag of truth values. -/
def boolIn? (root : Node) (value : Node) : Option Bool :=
  match root.resolve? value with
  | some (.scalar p style text) =>
    if style = .plain ∨ (style = .literal ∧ p.tag = some boolTag) then Yaml.bool? text else none
  | _ => none

/-- The texts of a list. -/
def textsIn? (root : Node) (value : Node) : Option (List String) :=
  match root.resolve? value with
  | some (.sequence _ items) => items.mapM (textIn? root)
  | some (.scalar _ .plain []) => some []
  | _ => none

/-- The entries of a mapping with the texts of their keys. -/
def entriesIn? (root : Node) (value : Node) : Option (List (String × Node)) :=
  match root.resolve? value with
  | some (.mapping _ entries) =>
    entries.mapM fun (key, value) => (textIn? root key).map (·, value)
  | some (.scalar _ .plain []) => some []
  | _ => none

/-- The value of a key, or its default if it is missing; a key that is repeated has none. -/
def member? {α : Type} (entries : List (String × Node)) (key : String) (default : α)
    (read : Node → Option α) : Option α :=
  match entries.filter fun e => e.1 == key with
  | [] => some default
  | [e] => read e.2
  | _ => none

/-- The settings of the mapping about validation: whether warnings are failures. -/
def validationIn? (root : Node) (value : Node) : Option Bool := do
  member? (← entriesIn? root value) "failOnWarning" default.failOnWarning (boolIn? root)

/-- The settings of a document. -/
def ofNode? (root : Node) : Option Settings := do
  let entries ← entriesIn? root root
  return {
    packageManager := ← member? entries "packageManager" default.packageManager (textIn? root)
    registry := ← member? entries "registry" default.registry (optionalTextIn? root)
    installRoot := (← member? entries "installRoot" none (optionalTextIn? root)).map Path.mk
    sharedModules := ← member? entries "sharedModules" default.sharedModules (textsIn? root)
    failOnWarning := ← member? entries "validation" default.failOnWarning (validationIn? root) }

/-- The settings that a text spells. -/
def read? (text : String) : Option Settings := do
  match ← Node.read? text with
  | some root => ofNode? root
  | none => some default

/-- The list of texts that a text spells. -/
def readModules? (text : String) : Option (List String) := do
  match ← Node.read? text with
  | some root => textsIn? root root
  | none => some []

/-! ### Printing -/

/-- An entry of a mapping with a text as its value. -/
def printEntry (key value : String) : List Char :=
  key.toList ++ [':', ' '] ++ Yaml.printScalar value.toList

/-- An entry with a list of texts as its value. -/
def printList (key : String) (values : List String) : List Char :=
  key.toList ++ [':', '\n'] ++ values.flatMap fun v => ['-', ' '] ++ Yaml.printScalar v.toList

/-- The text of some settings. -/
def print (s : Settings) : String :=
  String.ofList (printEntry "packageManager" s.packageManager
    ++ (s.registry.map (printEntry "registry")).getD []
    ++ (s.installRoot.map fun p => printEntry "installRoot" p.text).getD []
    ++ (if s.sharedModules.isEmpty then [] else printList "sharedModules" s.sharedModules)
    ++ ("validation:\n  failOnWarning: " ++ (if s.failOnWarning then "true" else "false")
      ++ "\n").toList)

end Settings

end PluginHost

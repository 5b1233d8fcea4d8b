import PluginHost.Failure
import PluginHost.Json.Record

/-!
# Manifests

A plugin is a package whose `package.json` has a block that describes the commands and profile
types it adds.  Nothing in the block has to be there for it to be read, so that every missing
piece can be reported; only a plugin without any name has no manifest.  A `Manifest` puts the
block together with the place of the package and the version ranges that it declares for the
host and the framework.
-/

namespace PluginHost

/-- A command or group as a plugin declares it. -/
structure Definition where
  name : Option String
  kind : Option String
  description : Option String
  aliases : List String
  summary : Option String
  handler : Option String
  children : Option (List Definition)
  deriving Repr

/-- A profile type as a plugin declares it. -/
structure ProfileType where
  type : Option String
  schema : Json
  deriving Repr

/-- The block of a package that makes it a plugin. -/
structure Extension where
  name : Option String
  description : Option String
  definitions : Option (List Definition)
  profiles : List ProfileType
  healthCheck : Option String
  aliases : List String
  summary : Option String
  deriving Repr

/-- The part of `package.json` that is read. -/
structure Package where
  name : Option String
  version : Option String
  peers : List (String × String)
  extension : Option Extension
  deriving Repr

/-- What is known of a plugin before it is checked. -/
structure Manifest where
  name : String
  plugin : String
  packageName : Option String
  packageVersion : Option String
  root : Path
  description : Option String
  definitions : Option (List Definition)
  profiles : List ProfileType
  healthCheck : Option String
  aliases : List String
  summary : Option String
  hostRange : Option String
  frameworkRange : Option String
  deriving Repr

/-! ### Shapes -/

namespace Definition

/-- The fields of a definition, in order. -/
def fieldNames : List String :=
  ["name", "type", "description", "aliases", "summary", "handler", "children"]

mutual

/-- A definition in JSON. -/
def shape : Nat → Json → Option Definition
  | 0, _ => none
  | n + 1, value => do
    match ← Json.fields? fieldNames value with
    | [name, kind, description, aliases, summary, handler, children] =>
      return {
        name := ← Json.optional Json.text n name
        kind := ← Json.optional Json.text n kind
        description := ← Json.optional Json.text n description
        aliases := ← Json.defaulted [] (Json.list Json.text) n aliases
        summary := ← Json.optional Json.text n summary
        handler := ← Json.optional Json.text n handler
        children := ← Json.optional (fun _ v => shapes n v) n children }
    | _ => none

/-- A list of definitions in JSON. -/
def shapes : Nat → Json → Option (List Definition)
  | n + 1, .array items => items.mapM fun item => shape n item
  | _, _ => none

end

end Definition

/-- A profile type in JSON; a schema may be any value. -/
def ProfileType.shape : Json.Shape ProfileType
  | 0, _ => none
  | n + 1, value => do
    match ← Json.fields? ["type", "schema"] value with
    | [type, schema] =>
      return {
        type := ← Json.optional Json.text n type
        schema := ← Json.defaulted .null Json.anything n schema }
    | _ => none

/-- The fields of the block of a plugin, in order. -/
def Extension.fieldNames : List String :=
  ["name", "rootCommandDescription", "definitions", "profiles", "pluginHealthCheck",
    "pluginAliases", "pluginSummary"]

/-- The block of a plugin in JSON. -/
def Extension.shape : Json.Shape Extension
  | 0, _ => none
  | n + 1, value => do
    match ← Json.fields? fieldNames value with
    | [name, description, definitions, profiles, healthCheck, aliases, summary] =>
      return {
        name := ← Json.optional Json.text n name
        description := ← Json.optional Json.text n description
        definitions := ← Json.optional Definition.shapes n definitions
        profiles := ← Json.defaulted [] (Json.list ProfileType.shape) n profiles
        healthCheck := ← Json.optional Json.text n healthCheck
        aliases := ← Json.defaulted [] (Json.list Json.text) n aliases
        summary := ← Json.optional Json.text n summary }
    | _ => none

/-- The name of the block of a plugin in its package. -/
def Extension.key : String := "plugdeck"

/-- A package in JSON. -/
def Package.shape : Json.Shape Package
  | 0, _ => none
  | n + 1, value => do
    match ← Json.fields? ["name", "version", "peerDependencies", Extension.key] value with
    | [name, version, peers, extension] =>
      return {
        name := ← Json.optional Json.text n name
        version := ← Json.optional Json.text n version
        peers := ← Json.defaulted [] (Json.table Json.text) n peers
        extension := ← Json.optional Extension.shape n extension }
    | _ => none

/-- The range that a package declares for another. -/
def Package.rangeFor? (p : Package) (package : String) : Option String :=
  (p.peers.find? fun peer => peer.1 == package).map (·.2)

/-! ### Reading -/

/-- The reasons for which a plugin has no manifest. -/
inductive ManifestError where
  | noDirectory (root : Path)
  | noPackage (path : Path) (reason : FileError)
  | badPackage (path : Path)
  | noExtension
  | noName
  deriving DecidableEq, Repr

/-- The wording of a reason. -/
def ManifestError.message : ManifestError → String
  | noDirectory root => "The plugin's install location does not exist: " ++ root.text
  | noPackage path reason =>
    "Cannot read the plugin's package manifest " ++ path.text ++ ": " ++ reason.message
  | badPackage path =>
    "The plugin's package manifest " ++ path.text ++ " is not valid: " ++ Json.refusal
  | noExtension =>
    "The plugin's package.json has no '" ++ Extension.key
      ++ "' property, so it is not a plugdeck plugin"
  | noName =>
    "The plugin defines no 'name' in its '" ++ Extension.key
      ++ "' block and its package.json has no 'name' property"

/-- Where plugins are installed, and the packages whose ranges matter. -/
structure Library where
  modules : Path
  hostPackage : String
  framework : String
  deriving DecidableEq, Repr

namespace Library

/-- The directory of a plugin. -/
def rootOf (l : Library) (plugin : String) : Path := l.modules.below plugin

/-- The manifest of a plugin that its package gives. -/
def manifestOf (l : Library) (plugin : String) (root : Path) (package : Package) :
    Except ManifestError Manifest :=
  match package.extension with
  | none => .error .noExtension
  | some extension =>
    match extension.name.or package.name with
    | none => .error .noName
    | some name => .ok {
        name
        plugin
        packageName := package.name
        packageVersion := package.version
        root
        description := extension.description
        definitions := extension.definitions
        profiles := extension.profiles
        healthCheck := extension.healthCheck
        aliases := extension.aliases
        summary := extension.summary
        hostRange := package.rangeFor? l.hostPackage
        frameworkRange := package.rangeFor? l.framework }

/-- The manifest of an installed plugin. -/
def manifestFor (l : Library) (files : Files) (plugin : String) :
    Except ManifestError Manifest :=
  let root := l.rootOf plugin
  let path := root.below "package.json"
  if !files.isDirectory root then .error (.noDirectory root)
  else match files.read path with
    | .error reason => .error (.noPackage path reason)
    | .ok text =>
      match Json.decode? Package.shape text with
      | none => .error (.badPackage path)
      | some package => l.manifestOf plugin root package

end Library

end PluginHost

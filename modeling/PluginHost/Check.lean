import PluginHost.Finding
import PluginHost.Host
import PluginHost.Redirect

/-!
# Checks

What is wrong with a plugin, as lists of findings in the order in which they are reported.
`Manifest.findings` looks at the properties of the manifest itself, `Definition.listFindings`
at all definitions in the order of a walk from each to its children, `ProfileType.findings` at
the profile types among themselves and beside the known ones, and `rangeFindings` at a declared
range of versions.
-/

namespace PluginHost

/-! ### The manifest -/

namespace Manifest

/-- A description that is missing or blank. -/
def descriptionFindings (m : Manifest) : List Finding :=
  if m.description.all Text.isBlankText then [.noDescription] else []

/-- A health check that is not declared or has no file. -/
def healthFindings (locate : String → Option Path) (m : Manifest) : List Finding :=
  match m.healthCheck with
  | none => [.noHealthCheck]
  | some request =>
    if (locate request).isNone then [.missingHealthCheck request m.root] else []

/-- Definitions that are missing or none. -/
def definitionFindings (m : Manifest) : List Finding :=
  match m.definitions with
  | none => [.noDefinitions]
  | some [] => [.emptyDefinitions]
  | some _ => []

/-- What is wrong with the properties of the manifest itself. -/
def findings (locate : String → Option Path) (m : Manifest) : List Finding :=
  m.descriptionFindings ++ m.healthFindings locate ++ m.definitionFindings

end Manifest

/-! ### Definitions -/

namespace Definition

/-- Defects that any definition may have: no name, and no description. -/
def labelDefects (name description : Option String) : List Defect :=
  (if name.isNone then [.unnamed] else []) ++ (if description.isNone then [.undescribed] else [])

/-- Defects of the handler of a command. -/
def handlerDefects (locate : String → Option Path) (root : Path) (handler : Option String) :
    List Defect :=
  match handler with
  | none => [.noHandler]
  | some request => if (locate request).isNone then [.missingHandler request root] else []

mutual

/-- What is wrong with a definition, which stands at a depth and an index, and with those
inside it. -/
def findings (locate : String → Option Path) (root : Path) (depth index : Nat) :
    Definition → List Finding
  | ⟨name, kind, description, _, _, handler, children⟩ =>
    let place : Place := ⟨depth, index, name⟩
    (labelDefects name description).map (.defect place) ++
      match kind with
      | none => [.defect place .untyped]
      | some "command" => (handlerDefects locate root handler).map (.defect place)
      | some "group" => childFindings locate root place children
      | some other => [.defect place (.unknownType other)]

/-- What is wrong with the children of the group at a place. -/
def childFindings (locate : String → Option Path) (root : Path) (place : Place) :
    Option (List Definition) → List Finding
  | none => [.defect place .noChildren]
  | some [] => [.defect place .noChildren]
  | some (d :: ds) => listFindings locate root (place.depth + 1) 0 (d :: ds)

/-- What is wrong with the definitions of a list from an index on, and with those inside
them. -/
def listFindings (locate : String → Option Path) (root : Path) (depth index : Nat) :
    List Definition → List Finding
  | [] => []
  | d :: ds => findings locate root depth index d ++ listFindings locate root depth (index + 1) ds

end

end Definition

/-! ### Profile types -/

namespace ProfileType

/-- The types of profiles that have one, with their indices from a given one on. -/
def typesFrom (index : Nat) (profiles : List ProfileType) : List (String × Nat) :=
  (profiles.zipIdx index).filterMap fun (p, i) => p.type.map (·, i)

/-- Profiles without a type. -/
def untypedFindings (profiles : List ProfileType) : List Finding :=
  profiles.zipIdx.filterMap fun (p, i) =>
    if p.type.isNone then some (.untypedProfile i) else none

/-- Every pair of entries of the same type, where the first is before the second. -/
def repeatedFindings : List (String × Nat) → List Finding
  | [] => []
  | (type, i) :: rest =>
    (rest.filterMap fun (other, j) =>
      if other = type then some (.repeatedProfile type i j) else none) ++ repeatedFindings rest

/-- Types of profiles that are known already. -/
def knownFindings (known : List String) (profiles : List ProfileType) : List Finding :=
  (profiles.filterMap (·.type)).filterMap fun type =>
    if known.contains type then some (.knownProfile type) else none

/-- What is wrong with the profile types of a plugin, among themselves and beside the known
ones. -/
def findings (known : List String) (profiles : List ProfileType) : List Finding :=
  untypedFindings profiles ++ repeatedFindings (typesFrom 0 profiles)
    ++ knownFindings known profiles

end ProfileType

/-! ### Versions -/

/-- What is wrong with the range that a plugin declares for a package, of which a version is
installed. -/
def rangeFindings (package : String) (declared : Option String) (actual : String) :
    List Finding :=
  match declared with
  | none => []
  | some range =>
    match Version.satisfies range actual with
    | .ok true => []
    | .ok false => [.incompatible package range actual]
    | .error reason => [.uncomparable package range actual reason]

end PluginHost

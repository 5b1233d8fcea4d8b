import PluginHost.Composition
import PluginHost.Issue
import PluginHost.Version.Range

/-!
# Findings

A finding is something that is wrong with a plugin, seen before it becomes an issue: it says
what was found and where, `Finding.severity` whether the plugin can be loaded all the same, and
`Finding.message` how it is worded.
-/

namespace PluginHost

/-- Where a definition stands: the depth of its list in the tree of definitions, its index in
that list, and its name if it has one. -/
structure Place where
  depth : Nat
  index : Nat
  name : Option String
  deriving DecidableEq, Repr

/-- The text that names the definition at a place: its name, or else its number in its list. -/
def Place.label (p : Place) : String :=
  match p.name with
  | some name => "'" ++ name ++ "'"
  | none => "#" ++ Text.decimal (p.index + 1)

/-- The text that tells where a definition stands, by its name or number and its depth. -/
def Place.text (p : Place) : String := p.label ++ " at depth " ++ Text.decimal p.depth

/-- What a definition lacks. -/
inductive Defect where
  | unnamed
  | undescribed
  | untyped
  | unknownType (type : String)
  | noHandler
  | missingHandler (handler : String) (root : Path)
  | noChildren
  deriving DecidableEq, Repr

/-- The wording of a defect of the definition at a place. -/
def Defect.message (p : Place) : Defect → String
  | unnamed =>
    "Command definition #" ++ Text.decimal (p.index + 1) ++ " at depth " ++ Text.decimal p.depth
      ++ " has no 'name' property"
  | undescribed => "Command " ++ p.text ++ " has no 'description' property"
  | untyped => "Command " ++ p.text ++ " has no 'type' property"
  | unknownType type =>
    "Command " ++ p.text ++ " has unknown type '" ++ type ++ "' (expected 'command' or 'group')"
  | noHandler => "Command " ++ p.text ++ " has no 'handler' property"
  | missingHandler handler root =>
    "The handler '" ++ handler ++ "' for command " ++ p.label ++ " does not exist in "
      ++ root.text
  | noChildren =>
    "Group " ++ p.text ++ " has no children. A group needs a 'children' property with at least "
      ++ "one command or group"

/-- Something that is wrong with a plugin. -/
inductive Finding where
  | noManifest (reason : ManifestError)
  | noDescription
  | noHealthCheck
  | missingHealthCheck (request : String) (root : Path)
  | noDefinitions
  | emptyDefinitions
  | defect (place : Place) (what : Defect)
  | clash (what : Clash)
  | notAdopted (reason : AdoptionError)
  | incompatible (package range actual : String)
  | uncomparable (package range actual : String) (reason : Version.RangeError)
  | untypedProfile (index : Nat)
  | repeatedProfile (type : String) (first second : Nat)
  | knownProfile (type : String)
  deriving DecidableEq, Repr

namespace Finding

/-- A plugin can be loaded although it has no health check, and although a version is not in
the range that it declares; any other finding keeps it out. -/
def severity : Finding → Severity
  | noHealthCheck => .warning
  | incompatible .. => .warning
  | uncomparable .. => .warning
  | _ => .error

/-- The wording of a finding. -/
def message : Finding → String
  | noManifest reason => reason.message
  | noDescription => "The plugin does not define a 'rootCommandDescription' property"
  | noHealthCheck =>
    "The plugin does not define a 'pluginHealthCheck' property, so its health cannot be checked"
  | missingHealthCheck request root =>
    "The pluginHealthCheck file '" ++ request ++ "' does not exist in " ++ root.text
  | noDefinitions =>
    "The plugin does not define a 'definitions' property, so it contributes no commands"
  | emptyDefinitions =>
    "The plugin's 'definitions' property is empty, so it contributes no commands"
  | .defect place d => d.message place
  | .clash c => c.message
  | notAdopted reason => reason.message
  | incompatible package range actual =>
    "The plugin's peer dependency '" ++ package ++ "' requires version '" ++ range
      ++ "', but the installed version is '" ++ actual
      ++ "'. The plugin may not be compatible"
  | uncomparable package range actual reason =>
    "The plugin's peer dependency '" ++ package ++ "' declares '" ++ range
      ++ "', which cannot be checked against the installed version '" ++ actual ++ "': "
      ++ reason.message
  | untypedProfile index =>
    "The profile definition at index " ++ Text.decimal index ++ " has no 'type' property"
  | repeatedProfile type first second =>
    "The profile type '" ++ type ++ "' is defined at index " ++ Text.decimal first
      ++ " and again at index " ++ Text.decimal second ++ ". Profile types must be unique"
  | knownProfile type =>
    "The profile type '" ++ type
      ++ "' conflicts with a profile type already defined by the host or another plugin"

/-- The issue of a plugin that a finding becomes. -/
def issue (plugin : String) (f : Finding) : Issue := ⟨plugin, f.severity, f.message⟩

end Finding

/-- Whether some finding keeps a plugin out. -/
def Finding.anyError (found : List Finding) : Bool := found.any fun f => f.severity == .error

theorem Finding.anyError_of_mem {f : Finding} {found : List Finding} (h : f ∈ found)
    (hf : f.severity = .error) :
  anyError found = true
  := by
  apply List.any_eq_true.2 ⟨f, h, _⟩
  rw [hf]
  rfl

theorem Finding.anyError_append (found more : List Finding) :
  anyError (found ++ more) = (anyError found || anyError more)
  := List.any_append

namespace IssueLog

/-- The log with the issues that some findings about a plugin become, in order. -/
def recordFindings (log : IssueLog) (plugin : String) (found : List Finding) : IssueLog :=
  log.recordAll plugin (found.map fun f => (f.severity, f.message))

section

variable (log : IssueLog) {plugin other : String} (found more : List Finding)

theorem issuesOf_recordFindings_self :
  (log.recordFindings plugin found).issuesOf plugin
    = log.issuesOf plugin ++ found.map (Finding.issue plugin)
  := by
  rw [recordFindings, issuesOf_recordAll_self, List.map_map]
  rfl

theorem issuesOf_recordFindings_of_ne (h : plugin ≠ other) :
  (log.recordFindings plugin found).issuesOf other = log.issuesOf other
  := issuesOf_recordAll_of_ne log _ h

theorem recordFindings_append :
  (log.recordFindings plugin found).recordFindings plugin more
    = log.recordFindings plugin (found ++ more)
  := by
  rw [recordFindings, recordFindings, recordFindings, recordAll_append, List.map_append]

/-- A plugin whose issues come from findings has an error exactly when one of them is an
error. -/
theorem has_error_of_issuesOf {log : IssueLog} {found : List Finding}
    (h : log.issuesOf plugin = found.map (Finding.issue plugin)) :
  log.has plugin .error = Finding.anyError found
  := by
  rw [Bool.eq_iff_iff]
  simp [has, count, Issue.countOf, h, List.countP_map, List.countP_pos_iff, Finding.anyError,
    Finding.issue]

end

end IssueLog

end PluginHost

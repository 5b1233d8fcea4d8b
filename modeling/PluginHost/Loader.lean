import PluginHost.Check
import PluginHost.Inspection
import PluginHost.Report

/-!
# Loading

A loading pass takes the installed plugins one after another and decides about each.  An
`Assembly` is what the decisions so far have made: the command tree, the known profile types,
and the issues.  The group of a plugin is adopted by the tree as soon as nothing speaks
against it, the remaining checks come after that, and if they reject the plugin the group is
taken out again.  An accepted plugin leaves its group and its profile types, a rejected one
nothing but its issues.
-/

namespace PluginHost

/-- What the decisions about some plugins have made. -/
structure Assembly where
  tree : CommandTree
  known : List String
  log : IssueLog

/-- What a loading pass looks at and leaves as it is. -/
structure Loader where
  host : Host
  modules : Path
  files : Files
  redirect : Redirect

namespace Loader

/-- Where the manifests of plugins are found. -/
def library (l : Loader) : Library := ⟨l.modules, l.host.package, l.host.framework⟩

/-- The file for a request of the plugin with a root. -/
def locate (l : Loader) (root : Path) (request : String) : Option Path :=
  l.redirect.locate? l.files root request

/-- The group that a plugin adds to the command tree. -/
def candidate (l : Loader) (m : Manifest) : CommandTree := m.candidate (l.locate m.root)

/-- What is wrong with the manifest and the definitions of a plugin. -/
def structuralFindings (l : Loader) (m : Manifest) : List Finding :=
  m.findings (l.locate m.root)
    ++ Definition.listFindings (l.locate m.root) m.root 1 0 (m.definitions.getD [])

/-- What is wrong with the words of the group of a plugin beside those in the tree. -/
def clashFindings (l : Loader) (tree : CommandTree) (m : Manifest) : List Finding :=
  (tree.clash? (l.candidate m)).toList.map .clash

/-- Adds a candidate to the tree, if the plugin has no error so far. -/
def adopt (i : Inspection) (tree candidate : CommandTree) : Inspection × Option CommandTree :=
  if i.hasErrors then (i, none)
  else match tree.adopt candidate with
    | .ok grown => (i, some grown)
    | .error reason => (i.note [.notAdopted reason], none)

/-- The tree with an adopted group taken out again. -/
def restore (grown : CommandTree) (name : String) : CommandTree :=
  ((grown.dropChild? name).map (·.2)).getD grown

/-- The inspection of a plugin up to the adoption. -/
def inspectStructure (l : Loader) (a : Assembly) (m : Manifest) : Inspection :=
  ((Inspection.start m.plugin a.log).enter .structural).note
    (l.structuralFindings m ++ l.clashFindings a.tree m)

/-- The inspection of a plugin after the adoption. -/
def inspectRest (l : Loader) (a : Assembly) (m : Manifest) (i : Inspection) : Inspection :=
  let i := (i.enter .version).note (rangeFindings l.host.package m.hostRange l.host.version)
  let i := (i.enter .profile).note (ProfileType.findings a.known m.profiles)
  let i := (i.enter .framework).note
    (rangeFindings l.host.framework m.frameworkRange l.host.frameworkVersion)
  i.enter .done

/-- The decision about a plugin with a manifest. -/
def decide (l : Loader) (a : Assembly) (m : Manifest) : Status × Assembly :=
  let (i, grown) := adopt (l.inspectStructure a m) a.tree (l.candidate m)
  let i := l.inspectRest a m i
  match i.status with
  | .accepted =>
    (.accepted, ⟨grown.getD a.tree, a.known ++ m.profiles.filterMap (·.type), i.log⟩)
  | .rejected =>
    (.rejected, ⟨(grown.map fun t => restore t m.name).getD a.tree, a.known, i.log⟩)

/-- The decision about a plugin.  Issues that it had before are forgotten. -/
def load (l : Loader) (a : Assembly) (plugin : String) : Status × Assembly :=
  let a := { a with log := a.log.clear plugin }
  match l.library.manifestFor l.files plugin with
  | .ok m => l.decide a m
  | .error reason =>
    (.rejected, { a with log := a.log.recordFindings plugin [.noManifest reason] })

/-- The decisions about some plugins in order, each with the issues of the plugin. -/
def loadEach (l : Loader) (a : Assembly) : List String → List Verdict × Assembly
  | [] => ([], a)
  | plugin :: rest =>
    let (status, next) := l.load a plugin
    let (verdicts, last) := l.loadEach next rest
    (⟨plugin, status, next.log.issuesOf plugin⟩ :: verdicts, last)

end Loader

end PluginHost

import Mathlib.Tactic.Use
import PluginHost.Loader
import PluginHost.Proofs.Adoption

/-!
# The decision about one plugin

`Loader.findings` lists everything that is found wrong with a plugin beside a tree and some known
profile types.  Loading a plugin comes down to this list: the plugin is rejected exactly when
some finding is an error (`status_load`), and its issues afterwards are the findings
(`issuesOf_load_self`).  Apart from the log, an assembly changes only if the plugin is accepted:
then the tree is grown by the candidate of the plugin and the known types by its types
(`load_of_error`, `load_of_no_error`).

The group of a plugin stands in the tree while the versions, the profile types and the framework
are checked.  `restore_of_adopt` takes it out again.
-/

namespace PluginHost

namespace Loader

variable (l : Loader)

/-! ### What is found -/

/-- What is found when a candidate is adopted. -/
def adoptionFindings (tree candidate : CommandTree) : List Finding :=
  match tree.adopt candidate with
  | .ok _ => []
  | .error reason => [.notAdopted reason]

/-- What is found before the adoption. -/
def earlyFindings (tree : CommandTree) (m : Manifest) : List Finding :=
  l.structuralFindings m ++ l.clashFindings tree m

/-- What is found after the adoption. -/
def lateFindings (known : List String) (m : Manifest) : List Finding :=
  rangeFindings l.host.package m.hostRange l.host.version
    ++ ProfileType.findings known m.profiles
    ++ rangeFindings l.host.framework m.frameworkRange l.host.frameworkVersion

/-- What is found up to the adoption, which is not tried after an error. -/
def openingFindings (tree : CommandTree) (m : Manifest) : List Finding :=
  l.earlyFindings tree m
    ++ if Finding.anyError (l.earlyFindings tree m) then []
      else adoptionFindings tree (l.candidate m)

/-- Everything that is found about a plugin with a manifest. -/
def manifestFindings (tree : CommandTree) (known : List String) (m : Manifest) : List Finding :=
  l.openingFindings tree m ++ l.lateFindings known m

/-- Everything that is found about a plugin. -/
def findings (tree : CommandTree) (known : List String) (plugin : String) : List Finding :=
  match l.library.manifestFor l.files plugin with
  | .ok m => l.manifestFindings tree known m
  | .error reason => [.noManifest reason]

/-- What is decided about a plugin with some findings. -/
def statusOf (found : List Finding) : Status :=
  if Finding.anyError found then .rejected else .accepted

/-! ### Steps of an inspection -/

/-- Taking an adopted candidate out again gives the tree before. -/
theorem restore_of_adopt {tree candidate grown : CommandTree}
    (h : tree.adopt candidate = .ok grown) :
  restore grown candidate.name = tree
  := by
  rw [restore, CommandTree.dropChild?_of_adopt h]
  rfl

/-- The adoption notes what it finds, and grows the tree if there is no error before and
nothing is found. -/
theorem adopt_eq (i : Inspection) (tree candidate : CommandTree) :
  adopt i tree candidate
    = (i.note (if i.hasErrors then [] else adoptionFindings tree candidate),
        if i.hasErrors then none else (tree.adopt candidate).toOption)
  := by
  by_cases h : i.hasErrors
  · simp only [adopt, h, if_true]
    rfl
  · simp only [adopt, h, adoptionFindings]
    cases tree.adopt candidate <;> rfl

theorem log_inspectStructure (a : Assembly) (m : Manifest) :
  (l.inspectStructure a m).log = a.log.recordFindings m.plugin (l.earlyFindings a.tree m)
  := rfl

theorem plugin_inspectStructure (a : Assembly) (m : Manifest) :
  (l.inspectStructure a m).plugin = m.plugin
  := rfl

theorem log_inspectRest (a : Assembly) (m : Manifest) (i : Inspection) :
  (l.inspectRest a m i).log = i.log.recordFindings i.plugin (l.lateFindings a.known m)
  := by
  rw [lateFindings, ← IssueLog.recordFindings_append, ← IssueLog.recordFindings_append]
  rfl

theorem plugin_inspectRest (a : Assembly) (m : Manifest) (i : Inspection) :
  (l.inspectRest a m i).plugin = i.plugin
  := rfl

/-- A plugin without issues before the inspection of its structure has an error after it exactly
when an error is found. -/
theorem hasErrors_inspectStructure {a : Assembly} {m : Manifest}
    (h : a.log.issuesOf m.plugin = []) :
  (l.inspectStructure a m).hasErrors = Finding.anyError (l.earlyFindings a.tree m)
  := by
  apply IssueLog.has_error_of_issuesOf
  rw [log_inspectStructure, plugin_inspectStructure, IssueLog.issuesOf_recordFindings_self, h,
    List.nil_append]

/-- The inspection after the adoption, and the tree that an adopted candidate stands in. -/
theorem adopt_inspectStructure {a : Assembly} {m : Manifest}
    (h : a.log.issuesOf m.plugin = []) :
  adopt (l.inspectStructure a m) a.tree (l.candidate m)
    = ((Inspection.start m.plugin a.log |>.enter .structural).note
          (l.openingFindings a.tree m),
        if Finding.anyError (l.earlyFindings a.tree m) then none
        else (a.tree.adopt (l.candidate m)).toOption)
  := by
  rw [adopt_eq, l.hasErrors_inspectStructure h, openingFindings, ← Inspection.note_append]
  rfl

/-- The issues of all plugins after the decision about one with a manifest. -/
theorem log_inspectRest_adopt {a : Assembly} {m : Manifest} (h : a.log.issuesOf m.plugin = []) :
  (l.inspectRest a m (adopt (l.inspectStructure a m) a.tree (l.candidate m)).1).log
    = a.log.recordFindings m.plugin (l.manifestFindings a.tree a.known m)
  := by
  rw [log_inspectRest, l.adopt_inspectStructure h, manifestFindings,
    ← IssueLog.recordFindings_append]
  rfl

/-- The status of a plugin with a manifest is decided by what is found about it. -/
theorem status_inspectRest_adopt {a : Assembly} {m : Manifest}
    (h : a.log.issuesOf m.plugin = []) :
  (l.inspectRest a m (adopt (l.inspectStructure a m) a.tree (l.candidate m)).1).status
    = statusOf (l.manifestFindings a.tree a.known m)
  := by
  have hplugin : (l.inspectRest a m
      (adopt (l.inspectStructure a m) a.tree (l.candidate m)).1).plugin = m.plugin := by
    rw [plugin_inspectRest, l.adopt_inspectStructure h]
    rfl
  rw [Inspection.status, Inspection.hasErrors, hplugin, statusOf,
    IssueLog.has_error_of_issuesOf]
  rw [l.log_inspectRest_adopt h, IssueLog.issuesOf_recordFindings_self, h, List.nil_append]

/-! ### The decision -/

/-- A plugin about which an error is found leaves the tree and the known types as they were. -/
theorem decide_of_error {a : Assembly} {m : Manifest} (h : a.log.issuesOf m.plugin = [])
    (herror : Finding.anyError (l.manifestFindings a.tree a.known m) = true) :
  l.decide a m = (.rejected,
    { a with log := a.log.recordFindings m.plugin (l.manifestFindings a.tree a.known m) })
  := by
  have hstatus := l.status_inspectRest_adopt h
  simp only [statusOf, herror, if_true] at hstatus
  simp only [decide, hstatus, l.log_inspectRest_adopt h]
  rw [l.adopt_inspectStructure h]
  congr 2
  -- without an adoption there is nothing to undo, and an adopted candidate is taken out again
  split
  · rfl
  · cases hadopt : a.tree.adopt (l.candidate m) with
    | error reason => rfl
    | ok grown =>
      apply restore_of_adopt hadopt

/-- A candidate may join a tree: the tree is a group, no child of it has the very name of the
candidate, and the candidate has no word in common with a child. -/
structure Joins (tree candidate : CommandTree) : Prop where
  isGroup : tree.isGroup = true
  adopted : tree.adopt candidate = .ok (tree.grow [candidate])
  noClash : tree.clash? candidate = none

/-- If no error is found about a plugin, its candidate may join the tree. -/
theorem joins_of_no_error {tree : CommandTree} {known : List String} {m : Manifest}
    (h : Finding.anyError (l.manifestFindings tree known m) = false) :
  Finding.anyError (l.earlyFindings tree m) = false ∧ Joins tree (l.candidate m)
  := by
  simp only [manifestFindings, openingFindings, Finding.anyError_append,
    Bool.or_eq_false_iff] at h
  obtain ⟨⟨hearly, hadoption⟩, -⟩ := h
  simp only [hearly, Bool.false_eq_true, if_false, adoptionFindings] at hadoption
  use hearly
  cases hadopt : tree.adopt (l.candidate m) with
  | error reason =>
    rw [hadopt] at hadoption
    cases hadoption
  | ok grown =>
    obtain ⟨hgroup, -, rfl⟩ := CommandTree.adopt_eq_ok_iff.1 hadopt
    refine ⟨hgroup, hadopt, ?_⟩
    cases hclash : tree.clash? (l.candidate m) with
    | none => rfl
    | some clash =>
      have hmem : Finding.clash clash ∈ l.earlyFindings tree m := by
        simp [earlyFindings, clashFindings, hclash]
      rw [Finding.anyError_of_mem hmem rfl] at hearly
      cases hearly

/-- A plugin about which no error is found adds its group to the tree and its types to the known
ones. -/
theorem decide_of_no_error {a : Assembly} {m : Manifest} (h : a.log.issuesOf m.plugin = [])
    (herror : Finding.anyError (l.manifestFindings a.tree a.known m) = false) :
  l.decide a m = (.accepted,
    ⟨a.tree.grow [l.candidate m], a.known ++ m.profiles.filterMap (·.type),
      a.log.recordFindings m.plugin (l.manifestFindings a.tree a.known m)⟩)
  := by
  obtain ⟨hearly, hjoins⟩ := l.joins_of_no_error herror
  have hstatus := l.status_inspectRest_adopt h
  simp only [statusOf, herror] at hstatus
  simp only [decide, hstatus, l.log_inspectRest_adopt h]
  rw [l.adopt_inspectStructure h, hearly, hjoins.adopted]
  rfl

/-! ### Loading one plugin -/

/-- A manifest belongs to the plugin that it was read for, and is rooted in its directory. -/
theorem of_manifestFor {library : Library} {files : Files} {plugin : String} {m : Manifest}
    (h : library.manifestFor files plugin = .ok m) :
  m.plugin = plugin ∧ m.root = library.rootOf plugin
  := by
  simp only [Library.manifestFor] at h
  split at h
  · cases h
  · split at h
    · cases h
    · split at h
      · cases h
      · simp only [Library.manifestOf] at h
        split at h
        · cases h
        · split at h
          · cases h
          · obtain rfl := Except.ok.inj h
            use rfl

theorem plugin_of_manifestFor {library : Library} {files : Files} {plugin : String} {m : Manifest}
    (h : library.manifestFor files plugin = .ok m) :
  m.plugin = plugin
  := (of_manifestFor h).1

theorem findings_of_manifest {plugin : String} {m : Manifest}
    (hm : l.library.manifestFor l.files plugin = .ok m) (tree : CommandTree)
    (known : List String) :
  l.findings tree known plugin = l.manifestFindings tree known m
  := by
  unfold findings
  rw [hm]

theorem findings_of_no_manifest {plugin : String} {reason : ManifestError}
    (hm : l.library.manifestFor l.files plugin = .error reason) (tree : CommandTree)
    (known : List String) :
  l.findings tree known plugin = [.noManifest reason]
  := by
  unfold findings
  rw [hm]

/-- A plugin about which an error is found leaves nothing but its issues. -/
theorem load_of_error {a : Assembly} {plugin : String}
    (h : Finding.anyError (l.findings a.tree a.known plugin) = true) :
  l.load a plugin = (.rejected, { a with
    log := (a.log.clear plugin).recordFindings plugin (l.findings a.tree a.known plugin) })
  := by
  unfold load
  cases hm : l.library.manifestFor l.files plugin with
  | error reason => rw [l.findings_of_no_manifest hm]
  | ok m =>
    obtain rfl := plugin_of_manifestFor hm
    rw [l.findings_of_manifest hm] at h ⊢
    apply l.decide_of_error
    · apply IssueLog.issuesOf_clear_self
    · apply h

/-- A plugin about which no error is found has a manifest, its candidate may join the tree, and
it leaves its group, its types and its issues. -/
theorem load_of_no_error {a : Assembly} {plugin : String}
    (h : Finding.anyError (l.findings a.tree a.known plugin) = false) :
  ∃ m, l.library.manifestFor l.files plugin = .ok m ∧ Joins a.tree (l.candidate m)
    ∧ l.load a plugin = (.accepted,
        ⟨a.tree.grow [l.candidate m], a.known ++ m.profiles.filterMap (·.type),
          (a.log.clear plugin).recordFindings plugin (l.findings a.tree a.known plugin)⟩)
  := by
  cases hm : l.library.manifestFor l.files plugin with
  | error reason =>
    rw [l.findings_of_no_manifest hm, Finding.anyError_of_mem List.mem_cons_self rfl] at h
    cases h
  | ok m =>
    obtain rfl := plugin_of_manifestFor hm
    rw [l.findings_of_manifest hm] at h ⊢
    use m, rfl, (l.joins_of_no_error h).2
    unfold load
    rw [hm]
    apply l.decide_of_no_error
    · apply IssueLog.issuesOf_clear_self
    · apply h

/-- The status of a plugin is decided by what is found about it. -/
theorem status_load (a : Assembly) (plugin : String) :
  (l.load a plugin).1 = statusOf (l.findings a.tree a.known plugin)
  := by
  cases h : Finding.anyError (l.findings a.tree a.known plugin) with
  | true => rw [l.load_of_error h, statusOf, h, if_pos rfl]
  | false =>
    obtain ⟨m, -, -, hload⟩ := l.load_of_no_error h
    simp [hload, statusOf, h]

/-- Loading a plugin forgets its issues and records what is found about it. -/
theorem log_load (a : Assembly) (plugin : String) :
  (l.load a plugin).2.log
    = (a.log.clear plugin).recordFindings plugin (l.findings a.tree a.known plugin)
  := by
  cases h : Finding.anyError (l.findings a.tree a.known plugin) with
  | true => rw [l.load_of_error h]
  | false =>
    obtain ⟨m, -, -, hload⟩ := l.load_of_no_error h
    rw [hload]

/-- The issues of a plugin that has been loaded are what was found about it. -/
theorem issuesOf_load_self (a : Assembly) (plugin : String) :
  (l.load a plugin).2.log.issuesOf plugin
    = (l.findings a.tree a.known plugin).map (Finding.issue plugin)
  := by
  rw [log_load, IssueLog.issuesOf_recordFindings_self, IssueLog.issuesOf_clear_self,
    List.nil_append]

/-- Loading a plugin leaves the issues of every other plugin. -/
theorem issuesOf_load_of_ne (a : Assembly) {plugin other : String} (h : plugin ≠ other) :
  (l.load a plugin).2.log.issuesOf other = a.log.issuesOf other
  := by
  rw [log_load, IssueLog.issuesOf_recordFindings_of_ne _ _ h, IssueLog.issuesOf_clear_of_ne _ h]

/-- Loading a plugin is a transaction on the tree and the known types.  A rejected plugin leaves
both exactly as they were, whatever the tree looked like and at whatever stage the plugin
failed.  An accepted plugin has a manifest, its candidate is put behind the children of the tree,
which has to be a group, and its types are put behind the known ones. -/
theorem load_changes_only_on_acceptance (l : Loader) (a : Assembly) (plugin : String) :
  match l.load a plugin with
  | (.rejected, b) => b.tree = a.tree ∧ b.known = a.known
  | (.accepted, b) => ∃ m label children,
      l.library.manifestFor l.files plugin = .ok m
        ∧ a.tree = .group label children
        ∧ b.tree = .group label (children ++ [l.candidate m])
        ∧ b.known = a.known ++ m.profiles.filterMap (·.type)
  := by
  cases herror : Finding.anyError (l.findings a.tree a.known plugin) with
  | true =>
    rw [l.load_of_error herror]
    constructor
    · rfl
    · rfl
  | false =>
    obtain ⟨m, hm, hjoins, hload⟩ := l.load_of_no_error herror
    rw [hload]
    cases htree : a.tree with
    | command label handler =>
      have hgroup := hjoins.isGroup
      rw [htree] at hgroup
      cases hgroup
    | group label children => use m, label, children, hm, rfl, rfl

end Loader

end PluginHost

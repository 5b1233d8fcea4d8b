import PluginHost.Proofs.Acceptance
import PluginHost.Proofs.Agreement

/-!
# What plugins add to the tree

A node is whole if it is a group that is not empty, or a command that runs an existing file at an
absolute path (`CommandTree.IsWhole`).  A node is built for a definition only if it is whole and so
is everything below it.  The group of a plugin is built without such a check, but a plugin without
definitions is not accepted.  So every node of the group of an accepted plugin is whole
(`Manager.contributions_whole`).
-/

namespace PluginHost

namespace CommandTree

/-- Whether a node is a tree or somewhere below its root. -/
inductive IsSubtree (node : CommandTree) : CommandTree → Prop
  | root : IsSubtree node node
  | inner {label : Label} {children : List CommandTree} {child : CommandTree}
      (hmem : child ∈ children) (h : IsSubtree node child) : IsSubtree node (.group label children)

/-- Whether a node is a group that is not empty, or a command that runs an existing file at an
absolute path. -/
def IsWhole (files : Files) : CommandTree → Prop
  | .command _ handler =>
    ∃ path, handler = .file path ∧ path.isAbsolute = true ∧ files.isFile path = true
  | .group _ children => children ≠ []

end CommandTree

namespace Definition

variable {locate : String → Option Path}

/-- Every node below one that is built for a definition is built for a definition too. -/
theorem exists_node?_of_isSubtree {node t : CommandTree} (h : node.IsSubtree t) {d : Definition}
    (ht : node? locate d = some t) :
  ∃ e, node? locate e = some node
  := by
  induction h generalizing d with
  | root => use d
  | inner hmem _ ih =>
    obtain ⟨_, _, _, -, ht⟩ | ⟨label, -, ht⟩ := cases_of_node? ht
    · cases ht
    · cases ht
      obtain ⟨e, -, he⟩ := List.mem_filterMap.1 hmem
      apply ih he

end Definition

namespace Loader

variable (l : Loader)

/-- Where the modules and the host are at absolute paths, every node that is built for a definition
of a plugin is whole. -/
theorem isWhole_of_node? (hmodules : l.modules.isAbsolute = true)
    (hhost : l.redirect.hostRoot.isAbsolute = true) {plugin : String} {d : Definition}
    {node : CommandTree} (h : d.node? (l.locate (l.library.rootOf plugin)) = some node) :
  node.IsWhole l.files
  := by
  have hroot : (l.library.rootOf plugin).isAbsolute = true := Path.isAbsolute_below hmodules plugin
  obtain ⟨label, request, path, hpath, rfl⟩ | ⟨label, hne, rfl⟩ := Definition.cases_of_node? h
  · use path, rfl, Redirect.isAbsolute_of_locate? hhost hroot hpath
    apply Redirect.isFile_of_locate? hpath
  · apply hne

/-- Every node of the group of an accepted plugin is whole. -/
theorem isWhole_of_fits (hmodules : l.modules.isAbsolute = true)
    (hhost : l.redirect.hostRoot.isAbsolute = true) {tree : CommandTree} {plugin : String}
    {m : Manifest} {ds : List Definition} (h : l.Fits tree plugin m ds) {node : CommandTree}
    (hnode : node.IsSubtree (l.candidate m)) :
  node.IsWhole l.files
  := by
  have hchildren : (l.candidate m).children
      = (m.definitions.getD []).filterMap (Definition.node? (l.locate m.root)) :=
    Definition.childNodes_eq_filterMap m.definitions
  cases hnode with
  | root =>
    -- the group itself is not checked, but there is a definition for each of its children
    intro hempty
    have hdescribed := h.described
    rw [show (l.candidate m).children = [] from hempty] at hdescribed
    apply h.nonempty (List.forall₂_nil_right_iff.1 hdescribed)
  | inner hmem hbelow =>
    rw [candidate, Manifest.candidate, CommandTree.children] at hchildren
    rw [hchildren] at hmem
    obtain ⟨d, -, hd⟩ := List.mem_filterMap.1 hmem
    obtain ⟨e, he⟩ := Definition.exists_node?_of_isSubtree hbelow hd
    rw [(of_manifestFor h.manifest).2] at he
    apply l.isWhole_of_node? hmodules hhost he

/-- Every node of the groups that a pass adds to the tree is whole. -/
theorem isWhole_of_mem_groupsOf (hmodules : l.modules.isAbsolute = true)
    (hhost : l.redirect.hostRoot.isAbsolute = true) {a : Assembly} {names : List String}
    {group node : CommandTree}
    (hgroup : group ∈ l.groupsOf (Verdict.acceptedNames (l.loadEach a names).1))
    (hnode : node.IsSubtree group) :
  node.IsWhole l.files
  := by
  obtain ⟨plugin, hplugin, hgroup⟩ := List.mem_filterMap.1 hgroup
  obtain ⟨v, hv, rfl⟩ := List.mem_map.1 hplugin
  obtain ⟨hv, haccepted⟩ := List.mem_filter.1 hv
  obtain ⟨tree, m, ds, hfits, -⟩ := l.fits_of_mem hv (beq_iff_eq.1 haccepted)
  rw [hfits.manifest] at hgroup
  obtain rfl := Option.some.inj hgroup
  apply l.isWhole_of_fits hmodules hhost hfits hnode

end Loader

namespace Manager

variable {σ : Type}

/-- Extending a tree with the plugins of an inventory puts the groups of the accepted plugins behind
its children.  Where the modules and the host are at absolute paths, every node of these groups is
whole: no group is empty, and every command runs a file at an absolute path that exists at the time
of the pass. -/
theorem contributions_whole [DomainNames] (m : Manager σ) {s : Session σ} (hs : m.Reachable s)
    (hmodules : m.packages.modules.isAbsolute = true) (hhost : m.host.root.isAbsolute = true)
    {plugins : Inventory} {files : Files}
    (hload : m.store.load.outcome (m.files s) = (.ok plugins, files)) (tree : CommandTree) :
  ∃ extended t groups, (m.extend tree).outcome s = (.ok extended, t)
    ∧ extended.children = tree.children ++ groups
    ∧ List.Forall₂ (m.loader files).IsGroupOf
        (((m.loader files).passOver tree s.log plugins).1.filter fun v => v.status == .accepted)
        groups
    ∧ ∀ group ∈ groups, ∀ node : CommandTree, node.IsSubtree group → node.IsWhole files
  := by
  obtain ⟨t, hextend, -⟩ := extend_of_load (idle_of_reachable hs) hload tree
  refine ⟨_, t, _, hextend, Loader.children_loadEach _ _ _, Loader.groups_loadEach _ _ _, ?_⟩
  intro group hgroup node hnode
  apply (m.loader files).isWhole_of_mem_groupsOf hmodules hhost hgroup hnode

attribute [local instance] Url.codedNames

/-- The sample plugins add two groups, of which every node is whole. -/
theorem contributions_whole_of_sample :
  ∃ extended t groups, (sample.extend sample.host.commandTree).outcome sampleStart
      = (.ok extended, t)
    ∧ extended.children = sample.host.commandTree.children ++ groups ∧ groups.length = 2
    ∧ ∀ group ∈ groups, ∀ node : CommandTree, node.IsSubtree group → node.IsWhole Files.sample
  := by
  have hstart : sample.Reachable sampleStart := Reachable.start _
  obtain ⟨extended, t, groups, hextend, hchildren, hgroups, hwhole⟩ := contributions_whole sample
    hstart (by decide) (by decide) (Store.load_of_read read_sample) sample.host.commandTree
  use extended, t, groups, hextend, hchildren
  constructor
  · have haccepted := congrArg (List.count .accepted) (statuses_passOver_sample sampleStart.log)
    rw [List.count, List.countP_map, List.countP_eq_length_filter] at haccepted
    rw [← hgroups.length_eq]
    apply haccepted
  · apply hwhole

end Manager

end PluginHost

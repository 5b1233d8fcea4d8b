import PluginHost.Proofs.Description
import PluginHost.Proofs.Pass

/-!
# Accepted plugins

`Loader.Fits` lists what is known of a plugin that is accepted beside a tree: it has a manifest with
at least one definition, its definitions describe the children of its candidate, and the candidate
may join the tree.  A plugin without errors fits (`Loader.fits_of_no_error`).  In a pass every
accepted plugin fits beside some tree, and at the end its candidate stands behind the children of
that tree (`Loader.fits_of_mem`).
-/

namespace PluginHost

namespace Definition

variable {locate : String → Option Path} {root : Path}

/-- What is found about some definitions is found about one of them, where that one stands. -/
theorem exists_of_mem_listFindings {ds : List Definition} {depth index : Nat} {f : Finding}
    (h : f ∈ listFindings locate root depth index ds) :
  ∃ d ∈ ds, ∃ i, f ∈ findings locate root depth i d
  := by
  induction ds generalizing index with
  | nil => cases h
  | cons d rest ih =>
    rcases List.mem_append.1 h with h | h
    · use d, List.mem_cons_self, index
    · obtain ⟨e, he, i, hi⟩ := ih h
      use e, List.mem_cons_of_mem _ he, i

/-- Whatever is found about a definition is a defect of it or of one inside it. -/
theorem exists_defect_of_mem_findings (d : Definition) {depth index : Nat} {f : Finding}
    (h : f ∈ findings locate root depth index d) :
  ∃ place what, f = .defect place what
  := by
  induction d using inside_induction generalizing depth index with
  | h d ih =>
    obtain ⟨name, kind, description, aliases, summary, handler, children⟩ := d
    rcases List.mem_append.1 h with h | h
    · obtain ⟨what, -, rfl⟩ := List.mem_map.1 h
      exact ⟨_, _, rfl⟩
    · split at h
      · obtain rfl := List.mem_singleton.1 h
        exact ⟨_, _, rfl⟩
      · obtain ⟨what, -, rfl⟩ := List.mem_map.1 h
        exact ⟨_, _, rfl⟩
      · -- inside a group, either nothing stands there or a definition that is covered already
        unfold childFindings at h
        split at h
        · obtain rfl := List.mem_singleton.1 h
          exact ⟨_, _, rfl⟩
        · obtain rfl := List.mem_singleton.1 h
          exact ⟨_, _, rfl⟩
        · obtain ⟨e, he, i, hi⟩ := exists_of_mem_listFindings h
          apply ih e he hi
      · obtain rfl := List.mem_singleton.1 h
        exact ⟨_, _, rfl⟩

/-- Whatever is wrong with a definition keeps the plugin out. -/
theorem severity_of_mem_findings (d : Definition) {depth index : Nat} {f : Finding}
    (h : f ∈ findings locate root depth index d) :
  f.severity = .error
  := by
  obtain ⟨place, what, rfl⟩ := exists_defect_of_mem_findings d h
  rfl

/-- A list of definitions without an error is one about which nothing is found. -/
theorem listFindings_of_no_error {ds : List Definition} {depth index : Nat}
    (h : Finding.anyError (listFindings locate root depth index ds) = false) :
  listFindings locate root depth index ds = []
  := by
  apply List.eq_nil_iff_forall_not_mem.2
  intro f hf
  obtain ⟨d, -, i, hi⟩ := exists_of_mem_listFindings hf
  rw [Finding.anyError_of_mem hf (severity_of_mem_findings d hi)] at h
  cases h

end Definition

/-- A manifest without an error has definitions. -/
theorem Manifest.exists_definitions {locate : String → Option Path} {m : Manifest}
    (h : Finding.anyError (m.findings locate) = false) :
  ∃ ds, m.definitions = some ds ∧ ds ≠ []
  := by
  rw [findings, Finding.anyError_append, Bool.or_eq_false_iff, definitionFindings] at h
  obtain ⟨-, hdefinitions⟩ := h
  split at hdefinitions
  · cases hdefinitions
  · cases hdefinitions
  · next ds hne hds =>
    use ds, hds

namespace Loader

variable (l : Loader)

/-- What is known of a plugin that is accepted beside a tree, with the definitions of its
manifest. -/
structure Fits (tree : CommandTree) (plugin : String) (m : Manifest) (ds : List Definition) :
    Prop where
  manifest : l.library.manifestFor l.files plugin = .ok m
  joins : Joins tree (l.candidate m)
  definitions : m.definitions = some ds
  nonempty : ds ≠ []
  described : List.Forall₂ (Definition.Describes (l.locate m.root)) ds (l.candidate m).children

/-- A plugin about which no error is found fits beside the tree. -/
theorem fits_of_no_error {tree : CommandTree} {known : List String} {plugin : String}
    (h : Finding.anyError (l.findings tree known plugin) = false) :
  ∃ m ds, l.Fits tree plugin m ds
  := by
  obtain ⟨m, hm, hjoins, -⟩ := l.load_of_no_error (a := ⟨tree, known, ByName.empty⟩) h
  rw [l.findings_of_manifest hm] at h
  obtain ⟨hearly, -⟩ := l.joins_of_no_error h
  simp only [earlyFindings, structuralFindings, Finding.anyError_append,
    Bool.or_eq_false_iff] at hearly
  obtain ⟨⟨hmanifest, hlist⟩, -⟩ := hearly
  obtain ⟨ds, hds, hne⟩ := Manifest.exists_definitions hmanifest
  use m, ds
  constructor
  · apply hm
  · apply hjoins
  · apply hds
  · apply hne
  · have hdescribed := (Definition.listFindings_eq_nil_iff m.definitions 1 0).1
      (Definition.listFindings_of_no_error hlist)
    rw [hds] at hdescribed
    rw [candidate, Manifest.candidate, hds]
    apply hdescribed

/-- A verdict accepts a plugin only if no error is found about it. -/
theorem no_error_of_accepted {tree : CommandTree} {known : List String} {plugin : String}
    (h : (l.verdict tree known plugin).status = .accepted) :
  Finding.anyError (l.findings tree known plugin) = false
  := by
  simpa [verdict, statusOf] using h

/-- An accepted plugin leaves its candidate behind the children of the tree. -/
theorem children_load_of_accepted {a : Assembly} {plugin : String} {m : Manifest}
    (hm : l.library.manifestFor l.files plugin = .ok m)
    (h : (l.verdict a.tree a.known plugin).status = .accepted) :
  (l.load a plugin).2.tree.children = a.tree.children ++ [l.candidate m]
  := by
  obtain ⟨hrejected, -⟩ | ⟨-, m', hm', hjoins, htree, -⟩ := l.load_cases a plugin
  · rw [h] at hrejected
    cases hrejected
  · rw [hm] at hm'
    obtain rfl := Except.ok.inj hm'
    rw [htree, CommandTree.children_grow hjoins.isGroup]

/-- Every plugin that a pass accepts fits beside some tree.  Its candidate stands behind the
children of that tree at the end of the pass. -/
theorem fits_of_mem {a : Assembly} {names : List String} {v : Verdict}
    (hv : v ∈ (l.loadEach a names).1) (h : v.status = .accepted) :
  ∃ tree m ds, l.Fits tree v.name m ds
    ∧ ∃ after, (l.loadEach a names).2.tree.children = tree.children ++ l.candidate m :: after
  := by
  induction names generalizing a with
  | nil => cases hv
  | cons plugin rest ih =>
    rw [verdicts_cons] at hv
    rw [assembly_cons]
    rcases List.mem_cons.1 hv with rfl | hv
    · obtain ⟨m, ds, hfits⟩ := l.fits_of_no_error (l.no_error_of_accepted h)
      use a.tree, m, ds, hfits
      -- the groups of later plugins come behind the candidate
      rw [children_loadEach, l.children_load_of_accepted hfits.manifest h, List.append_assoc]
      exact ⟨_, rfl⟩
    · apply ih hv

end Loader

end PluginHost

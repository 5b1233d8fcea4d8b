import PluginHost.Proofs.Acceptance
import PluginHost.Proofs.Agreement
import PluginHost.Proofs.Words

/-!
# Commands are found

A list of words leads from the definitions of a plugin to one of them if each word is one of the
definition it stands for, in letters of any case, and every definition but the last is a group
(`Definition.LeadsTo`).  Where the definitions of each level have no word in common, the same words
lead from the group of the plugin to the node that the definition describes
(`Definition.find?_of_leadsTo`).  In the tree that a pass leaves, the words of the plugin lead to
that group, and whatever was found in the tree before is found there still
(`Manager.commands_found_after_extending`).
-/

namespace PluginHost

namespace CommandTree

theorem find?_cons (t : CommandTree) (word : String) (path : List String) :
  t.find? (word :: path) = (t.child? word).bind fun c => c.find? path
  := rfl

/-- What is found by way of the children of a tree is found where more children come behind. -/
theorem find?_of_children {t grown : CommandTree} {more : List CommandTree}
    (hchildren : grown.children = t.children ++ more) {path : List String} {node : CommandTree}
    (hpath : path ≠ []) (h : t.find? path = some node) :
  grown.find? path = some node
  := by
  cases path with
  | nil => cases hpath rfl
  | cons word rest =>
    rw [find?_cons] at h ⊢
    obtain ⟨c, hc, hnode⟩ := Option.bind_eq_some_iff.1 h
    have hchild : grown.child? word = some c := by
      rw [child?] at hc ⊢
      rw [hchildren, List.find?_append, hc]
      rfl
    rw [hchild]
    apply hnode

end CommandTree

namespace Definition

variable {locate : String → Option Path}

/-! ### Words of definitions -/

/-- The words of a definition, its name first if it has one. -/
def words (d : Definition) : List String := d.name.toList ++ d.aliases

/-- Whether a definition answers to a word. -/
def hasWord (d : Definition) (word : String) : Bool := d.words.any (Text.sameWord · word)

/-- Whether two definitions have a word in common, in letters of any case. -/
def SharesWord (d e : Definition) : Prop :=
  ∃ w ∈ d.words, ∃ v ∈ e.words, Text.sameWord w v = true

instance (d e : Definition) : Decidable (d.SharesWord e) :=
  inferInstanceAs (Decidable (∃ w ∈ d.words, ∃ v ∈ e.words, Text.sameWord w v = true))

/-- No two definitions of a list have a word in common, and neither do any two that stand side by
side inside a group. -/
inductive Unambiguous : List Definition → Prop
  | level {ds : List Definition} (hapart : ds.Pairwise fun d e => ¬ d.SharesWord e)
      (hinside : ∀ d ∈ ds, d.kind = some "group" → Unambiguous d.inside) : Unambiguous ds

/-- Whether a list of words leads from some definitions to a given one: each word is one of the
definition that it stands for, and every definition on the way is a group. -/
inductive LeadsTo (target : Definition) : List Definition → List String → Prop
  | here {ds : List Definition} {word : String} (hmem : target ∈ ds)
      (hword : target.hasWord word = true) : LeadsTo target ds [word]
  | through {ds : List Definition} {group : Definition} {word : String} {path : List String}
      (hmem : group ∈ ds) (hkind : group.kind = some "group")
      (hword : group.hasWord word = true) (hrest : LeadsTo target group.inside path) :
      LeadsTo target ds (word :: path)

/-- A node has the words of the definition that describes it. -/
theorem Describes.words_eq {d : Definition} {t : CommandTree} (h : Describes locate d t) :
  d.words = t.words
  := by
  have hwords : ∀ {label : Label}, d.Labelled label → d.words = label.words := by
    intro label hlabel
    rw [words, hlabel.name, hlabel.aliases]
    rfl
  cases h with
  | command hlabel => apply hwords hlabel
  | group hlabel => apply hwords hlabel

/-- Nodes share a word if the definitions that describe them do. -/
theorem Describes.sharesWord_iff {d e : Definition} {t u : CommandTree} (ht : Describes locate d t)
    (hu : Describes locate e u) :
  t.SharesWord u ↔ d.SharesWord e
  := by
  rw [CommandTree.SharesWord, SharesWord, ht.words_eq, hu.words_eq]

theorem Describes.hasWord_eq {d : Definition} {t : CommandTree} (h : Describes locate d t)
    (word : String) :
  t.hasWord word = d.hasWord word
  := by
  rw [CommandTree.hasWord, hasWord, h.words_eq]

/-- Among nodes that are described by definitions without common words, a word leads to the node of
the definition that answers to it. -/
theorem exists_child?_of_described {ds : List Definition} {nodes : List CommandTree}
    (hnodes : List.Forall₂ (Describes locate) ds nodes)
    (hapart : ds.Pairwise fun d e => ¬ d.SharesWord e) {d : Definition} (hd : d ∈ ds)
    {word : String} (hword : d.hasWord word = true) (label : Label) :
  ∃ t, (CommandTree.group label nodes).child? word = some t ∧ Describes locate d t
  := by
  induction hnodes with
  | nil => cases hd
  | @cons first t rest nodes hfirst hrest ih =>
    obtain ⟨hcross, hapart⟩ := List.pairwise_cons.1 hapart
    rcases List.mem_cons.1 hd with rfl | hd
    · use t
      rw [← hfirst.hasWord_eq] at hword
      use List.find?_cons_of_pos hword
    · obtain ⟨u, hu, hdescribed⟩ := ih hapart hd
      use u
      -- the first node does not answer, as it shares no word with the one that does
      have hneg : ¬ t.hasWord word = true := by
        intro ht
        rw [← hdescribed.hasWord_eq] at hword
        apply hcross d hd
        apply (hfirst.sharesWord_iff hdescribed).1
        apply CommandTree.sharesWord_of_hasWord ht hword
      constructor
      · apply Eq.trans (List.find?_cons_of_neg (p := (CommandTree.hasWord · word)) hneg) hu
      · apply hdescribed

/-- Among nodes that are described by definitions without common words, a list of words finds the
node of the definition that it leads to. -/
theorem find?_of_leadsTo {ds : List Definition} {nodes : List CommandTree} {d : Definition}
    {path : List String} (hpath : LeadsTo d ds path)
    (hnodes : List.Forall₂ (Describes locate) ds nodes) (hwords : Unambiguous ds)
    (label : Label) :
  ∃ t, (CommandTree.group label nodes).find? path = some t ∧ Describes locate d t
  := by
  induction hpath generalizing nodes label with
  | here hmem hword =>
    obtain ⟨hapart, -⟩ := hwords
    obtain ⟨t, ht, hdescribed⟩ := exists_child?_of_described hnodes hapart hmem hword label
    use t
    rw [CommandTree.find?_cons, ht]
    use rfl
  | @through ds group word path hmem hkind hword hrest ih =>
    obtain ⟨hapart, hinside⟩ := hwords
    obtain ⟨t, ht, hdescribed⟩ := exists_child?_of_described hnodes hapart hmem hword label
    obtain ⟨inner, nodes, -, hchildren, rfl⟩ := hdescribed.of_group hkind
    rw [CommandTree.find?_cons, ht]
    apply ih hchildren (hinside group hmem hkind) inner

end Definition

namespace Loader

variable (l : Loader)

/-! ### Words of plugins -/

/-- After a pass, the words of an accepted plugin lead to its candidate. -/
theorem child?_of_fits {tree final : CommandTree} {plugin : String} {m : Manifest}
    {ds : List Definition} (h : l.Fits tree plugin m ds) {after : List CommandTree}
    (hchildren : final.children = tree.children ++ l.candidate m :: after) {word : String}
    (hword : ∃ w ∈ m.name :: m.aliases, Text.sameWord w word = true) :
  final.child? word = some (l.candidate m)
  := by
  apply CommandTree.child?_eq_of_split hchildren
  · apply CommandTree.clash?_eq_none_iff.1 h.joins.noClash
  · rw [CommandTree.hasWord_iff]
    apply hword

/-- After a pass, a word of an accepted plugin and then the words that lead to one of its
definitions find the node that the definition describes. -/
theorem exists_find?_of_fits {tree final : CommandTree} {plugin : String} {m : Manifest}
    {ds : List Definition} (h : l.Fits tree plugin m ds) {after : List CommandTree}
    (hchildren : final.children = tree.children ++ l.candidate m :: after)
    (hwords : Definition.Unambiguous ds) {word : String} {path : List String} {d : Definition}
    (hword : ∃ w ∈ m.name :: m.aliases, Text.sameWord w word = true)
    (hpath : Definition.LeadsTo d ds path) :
  ∃ t, final.find? (word :: path) = some t ∧ Definition.Describes (l.locate m.root) d t
  := by
  rw [CommandTree.find?_cons, l.child?_of_fits h hchildren hword]
  apply Definition.find?_of_leadsTo hpath h.described hwords

end Loader

namespace Manager

variable {σ : Type}

/-- Extending a tree with the plugins of an inventory keeps every command of the tree and makes
every command of an accepted plugin available.  What a list of words finds in the tree it finds in
the extended tree too.  A word of an accepted plugin, and then the words that lead to one of its
commands, find that command there, with the name and the description of its definition and the
file that is located for its handler, as long as no definitions side by side share a word. -/
theorem commands_found_after_extending [DomainNames] (m : Manager σ) {s : Session σ}
    (hs : m.Reachable s) {plugins : Inventory} {files : Files}
    (hload : m.store.load.outcome (m.files s) = (.ok plugins, files)) (tree : CommandTree) :
  ∃ extended t, (m.extend tree).outcome s = (.ok extended, t)
    ∧ extended = ((m.loader files).passOver tree s.log plugins).2.tree
    ∧ (∀ path node, path ≠ [] → tree.find? path = some node → extended.find? path = some node)
    ∧ ∀ v ∈ ((m.loader files).passOver tree s.log plugins).1, v.status = .accepted →
      ∃ manifest ds, (m.loader files).library.manifestFor files v.name = .ok manifest
        ∧ manifest.definitions = some ds
        ∧ (Definition.Unambiguous ds → ∀ word path d,
          (∃ w ∈ manifest.name :: manifest.aliases, Text.sameWord w word = true) →
          Definition.LeadsTo d ds path → d.kind = some "command" →
          ∃ label request file, d.Labelled label ∧ d.handler = some request
            ∧ (m.loader files).locate manifest.root request = some file
            ∧ extended.find? (word :: path) = some (.command label (.file file)))
  := by
  obtain ⟨t, hextend, -⟩ := extend_of_load (idle_of_reachable hs) hload tree
  refine ⟨_, t, hextend, rfl, ?_, ?_⟩
  · intro path node hpath hfind
    apply CommandTree.find?_of_children ((m.loader files).children_loadEach _ _) hpath hfind
  · intro v hv haccepted
    obtain ⟨b, manifest, ds, hfits, after, hchildren⟩ := (m.loader files).fits_of_mem hv haccepted
    use manifest, ds, hfits.manifest, hfits.definitions
    intro hwords word path d hword hpath hkind
    obtain ⟨node, hfind, hdescribed⟩ :=
      (m.loader files).exists_find?_of_fits hfits hchildren hwords hword hpath
    obtain ⟨label, request, file, hlabel, hhandler, hfile, rfl⟩ := hdescribed.of_command hkind
    exact ⟨label, request, file, hlabel, hhandler, hfile, hfind⟩

end Manager

/-! ### A nested sample -/

namespace Definition

/-- A command with an alias. -/
def dropSample : Definition :=
  ⟨some "drop", some "command", some "-", ["rm"], none, some "f", none⟩

/-- A group of one command, with an alias. -/
def nestedSample : List Definition :=
  [⟨some "table", some "group", some "-", ["t"], none, none, some [dropSample]⟩]

theorem unambiguous_nestedSample :
  Unambiguous nestedSample
  := by
  constructor
  · apply List.pairwise_singleton
  · intro d hd hkind
    obtain rfl := List.mem_singleton.1 hd
    constructor
    · apply List.pairwise_singleton
    · intro e he hgroup
      obtain rfl := List.mem_singleton.1 he
      simp [dropSample] at hgroup

theorem leadsTo_dropSample :
  LeadsTo dropSample nestedSample ["T", "RM"]
  := by
  apply LeadsTo.through List.mem_cons_self rfl (by decide)
  apply LeadsTo.here List.mem_cons_self (by decide)

/-- Whether definitions are those of the nested sample. -/
def areNestedSample : Option (List Definition) → Bool
  | some [⟨some "table", some "group", some "-", ["t"], none, none,
      some [⟨some "drop", some "command", some "-", ["rm"], none, some "f", none⟩]⟩] => true
  | _ => false

theorem eq_nestedSample {ds : Option (List Definition)} (h : areNestedSample ds = true) :
  ds = some nestedSample
  := by
  unfold areNestedSample at h
  split at h
  · rfl
  · cases h

end Definition

/-- Files with a plugin that has the nested sample as its definitions, and a file that lists the
plugin. -/
def Files.nestedSample : Files where
  here := ⟨"/"⟩
  denied := false
  entries := [
    (["plugins"], .file (.text
      "\x7b\"db\":\x7b\"package\":\"db\",\"registry\":\"-\",\"version\":\"1\"\x7d\x7d")),
    (["m"], .directory),
    (["m", "db"], .directory),
    (["m", "db", "package.json"], .file (.text ("[null,null,\x7b\x7d,[\"db\",\"-\","
      ++ "[[\"table\",\"group\",\"-\",[\"t\"],null,null,"
      ++ "[[\"drop\",\"command\",\"-\",[\"rm\"],null,\"f\",null]]]],"
      ++ "[],null,[\"d\"],null]]"))),
    (["m", "db", "f.js"], .file (.text ""))]

/-- The inventory of that plugin. -/
def Inventory.nestedSample : Inventory := ByName.ofList [("db", ⟨"db", "-", "1"⟩)]

namespace Manager

/-- A session with the nested sample, before the first operation. -/
def nestedStart : Session Shelf := sample.start ⟨Files.nestedSample, [], [], none, []⟩

theorem read_nestedSample :
  sample.store.read Files.nestedSample = .ok Inventory.nestedSample
  := by decide +kernel

/-- The plugin of the nested sample is accepted. -/
theorem accepted_nestedSample :
  ⟨"db", .accepted, [⟨"db", .warning, Finding.noHealthCheck.message⟩]⟩
    ∈ ((sample.loader Files.nestedSample).passOver sample.host.commandTree ByName.empty
      Inventory.nestedSample).1
  := by decide +kernel

theorem manifest_nestedSample :
  ((sample.loader Files.nestedSample).library.manifestFor Files.nestedSample "db").toOption.any
      (fun manifest => manifest.aliases.contains "d"
        && Definition.areNestedSample manifest.definitions)
    = true
  := by decide +kernel

attribute [local instance] Url.codedNames

/-- A command of the host and the command in the nested sample are found by aliases in letters of
another case. -/
theorem commands_found_after_extending_of_sample :
  ∃ extended t, (sample.extend sample.host.commandTree).outcome nestedStart = (.ok extended, t)
    ∧ (extended.find? ["Plugin", "LS"]).isSome = true
    ∧ ∃ file, extended.find? ["D", "T", "RM"]
      = some (.command ⟨"drop", "-", ["rm"], none⟩ (.file file))
  := by
  have hstart : sample.Reachable nestedStart := Reachable.start _
  have hload : sample.store.load.outcome (sample.files nestedStart)
      = (.ok Inventory.nestedSample, Files.nestedSample) := Store.load_of_read read_nestedSample
  obtain ⟨extended, t, hextend, -, hkept, hfound⟩ :=
    commands_found_after_extending sample hstart hload sample.host.commandTree
  use extended, t, hextend
  constructor
  · have hhost : (sample.host.commandTree.find? ["Plugin", "LS"]).isSome = true := by
      decide +kernel
    obtain ⟨node, hnode⟩ := Option.isSome_iff_exists.1 hhost
    rw [hkept _ node (by decide) hnode]
    rfl
  · obtain ⟨manifest, ds, hm, hds, hcommands⟩ := hfound _ accepted_nestedSample rfl
    have hmanifest := manifest_nestedSample
    rw [hm] at hmanifest
    simp only [Except.toOption, Option.any_some, Bool.and_eq_true] at hmanifest
    obtain ⟨halias, hnested⟩ := hmanifest
    rw [Definition.eq_nestedSample hnested] at hds
    obtain rfl := Option.some.inj hds
    obtain ⟨⟨name, description, aliases, summary⟩, request, file, hlabel, -, -, hfind⟩ :=
      hcommands Definition.unambiguous_nestedSample "D" ["T", "RM"] Definition.dropSample
        ⟨"d", List.mem_cons_of_mem _ (List.contains_iff_mem.1 halias), by decide⟩
        Definition.leadsTo_dropSample rfl
    obtain ⟨⟨⟩, ⟨⟩, rfl, rfl⟩ := hlabel
    use file, hfind

end Manager

end PluginHost

import Mathlib.Data.List.Sort
import PluginHost.Proofs.ByteOrder
import PluginHost.Proofs.Pass

/-!
# What the verdict on a plugin depends on

In a pass over the plugins of an inventory, the verdict on a plugin is determined by the plugins
that are accepted before it (`get?_loadEach`): their groups stand in the tree, and their types
are known.  Plugins that are rejected leave nothing, so taking one of them out of the inventory
changes neither which others are accepted (`acceptedNames_filter`) nor what becomes of them.
-/

namespace PluginHost

namespace Verdict

/-- Whether a verdict is on a plugin that comes before another in the order of the bytes of
names. -/
def isBefore (plugin : String) (v : Verdict) : Bool :=
  decide (Text.Utf8.bytesOf v.name < Text.Utf8.bytesOf plugin)

/-- The names of the plugins that some verdicts accept and that come before a plugin. -/
def acceptedBefore (plugin : String) (vs : List Verdict) : List String :=
  acceptedNames (vs.filter (isBefore plugin))

theorem isBefore_iff {plugin : String} {v : Verdict} :
  v.isBefore plugin = true ↔ v.name < plugin
  := by
  rw [isBefore, decide_eq_true_iff, Text.Utf8.bytesOf_lt_iff]

end Verdict

namespace Loader

variable (l : Loader)

/-! ### The place of a plugin in a pass -/

/-- A sorted list is cut at each of its names into the names before and those after. -/
theorem exists_cut {names : List String} {plugin : String} (hsorted : names.Pairwise (· < ·))
    (hmem : plugin ∈ names) :
  ∃ before after, names = before ++ plugin :: after
    ∧ (∀ n ∈ before, n < plugin) ∧ ∀ n ∈ after, plugin < n
  := by
  obtain ⟨before, after, rfl⟩ := List.append_of_mem hmem
  obtain ⟨-, hcons, hcross⟩ := List.pairwise_append.1 hsorted
  use before, after, rfl
  constructor
  · intro n hn
    apply hcross n hn plugin List.mem_cons_self
  · apply (List.pairwise_cons.1 hcons).1

/-- Every verdict of a pass is on one of its plugins. -/
theorem name_mem_of_mem_verdicts {a : Assembly} {names : List String} {v : Verdict}
    (h : v ∈ (l.loadEach a names).1) :
  v.name ∈ names
  := by
  have hmem := List.mem_map_of_mem (f := Verdict.name) h
  rw [names_verdicts] at hmem
  apply hmem

/-- The plugins that are accepted before one of the plugins of a pass are those accepted in the
part of the pass before it. -/
theorem acceptedBefore_cut (a : Assembly) {before after : List String} {plugin : String}
    (hbefore : ∀ n ∈ before, n < plugin) (hafter : ∀ n ∈ after, plugin < n) :
  Verdict.acceptedBefore plugin (l.loadEach a (before ++ plugin :: after)).1
    = Verdict.acceptedNames (l.loadEach a before).1
  := by
  rw [Verdict.acceptedBefore, verdicts_append, List.filter_append]
  have hkept : (l.loadEach a before).1.filter (·.isBefore plugin) = (l.loadEach a before).1 := by
    apply List.filter_eq_self.2
    intro v hv
    apply Verdict.isBefore_iff.2 (hbefore _ (l.name_mem_of_mem_verdicts hv))
  have hdropped : (l.loadEach (l.loadEach a before).2 (plugin :: after)).1.filter
      (·.isBefore plugin) = [] := by
    apply List.filter_eq_nil_iff.2
    intro v hv hbytes
    have hlt := Verdict.isBefore_iff.1 hbytes
    rcases List.mem_cons.1 (l.name_mem_of_mem_verdicts hv) with hname | hmem
    · rw [hname] at hlt
      apply String.lt_irrefl _ hlt
    · apply String.lt_asymm hlt (hafter _ hmem)
  rw [hkept, hdropped, List.append_nil]

/-- The verdict on a plugin whose group would join the tree behind those of some accepted
plugins. -/
def verdictAfter (a : Assembly) (accepted : List String) (plugin : String) : Verdict :=
  l.verdict (a.tree.grow (l.groupsOf accepted)) (a.known ++ l.typesOf accepted) plugin

/-- In a pass over sorted names, the verdict on a plugin is determined by the plugins accepted
before it. -/
theorem get?_loadEach (a : Assembly) {names : List String} {plugin : String}
    (hsorted : names.Pairwise (· < ·)) (hmem : plugin ∈ names) :
  (Report.mk (l.loadEach a names).1).get? plugin
    = some (l.verdictAfter a (Verdict.acceptedBefore plugin (l.loadEach a names).1) plugin)
  := by
  obtain ⟨before, after, rfl, hbefore, hafter⟩ := exists_cut hsorted hmem
  rw [l.acceptedBefore_cut a hbefore hafter, verdictAfter, ← tree_loadEach, ← known_loadEach,
    Report.get?, verdicts_append, verdicts_cons, List.find?_append]
  have hnone : (l.loadEach a before).1.find? (·.name == plugin) = none := by
    apply List.find?_eq_none.2
    intro v hv hname
    have hlt := hbefore _ (l.name_mem_of_mem_verdicts hv)
    rw [eq_of_beq hname] at hlt
    apply String.lt_irrefl _ hlt
  rw [hnone]
  simp [verdict]

/-- In a pass over sorted names, the group of a plugin stands behind the children of the tree and
the groups of the plugins accepted before it. -/
theorem exists_children_loadEach (a : Assembly) {names : List String} {plugin : String}
    (hsorted : names.Pairwise (· < ·)) (hmem : plugin ∈ names) :
  ∃ back, (l.loadEach a names).2.tree.children
    = a.tree.children ++ l.groupsOf (Verdict.acceptedBefore plugin (l.loadEach a names).1)
      ++ l.groupsOf (Verdict.acceptedNames
          [l.verdictAfter a (Verdict.acceptedBefore plugin (l.loadEach a names).1) plugin])
      ++ back
  := by
  obtain ⟨before, after, rfl, hbefore, hafter⟩ := exists_cut hsorted hmem
  rw [l.acceptedBefore_cut a hbefore hafter, verdictAfter, ← tree_loadEach, ← known_loadEach,
    children_loadEach, verdicts_append, verdicts_cons, Verdict.acceptedNames_append,
    Verdict.acceptedNames_cons _ (l.loadEach _ after).1, groupsOf_append, groupsOf_append,
    ← List.append_assoc, ← List.append_assoc]
  use l.groupsOf (Verdict.acceptedNames (l.loadEach (l.load (l.loadEach a before).2 plugin).2
    after).1)

/-! ### Leaving a plugin out -/

/-- A pass without a plugin that would be rejected accepts the same plugins. -/
theorem acceptedNames_filter (a : Assembly) (names : List String) {left : String}
    (h : ∀ v ∈ (l.loadEach a names).1, v.name = left → v.status = .rejected) :
  Verdict.acceptedNames (l.loadEach a (names.filter (· != left))).1
    = Verdict.acceptedNames (l.loadEach a names).1
  := by
  induction names generalizing a with
  | nil => rfl
  | cons plugin rest ih =>
    rw [verdicts_cons] at h ⊢
    have hrest := ih (l.load a plugin).2 fun v hv => h v (List.mem_cons_of_mem _ hv)
    rw [Verdict.acceptedNames_cons _ (l.loadEach _ rest).1, ← hrest]
    by_cases hleft : plugin = left
    -- the rest of the pass starts from the same tree and types with and without the plugin
    · obtain ⟨hv, htree, hknown⟩ | ⟨hv, -⟩ := l.load_cases a plugin
      · rw [Verdict.acceptedNames_of_rejected hv, l.verdicts_congr htree hknown,
          List.filter_cons_of_neg]
        · rfl
        · simpa using hleft
      · rw [h _ List.mem_cons_self hleft] at hv
        cases hv
    · rw [List.filter_cons_of_pos, verdicts_cons, Verdict.acceptedNames_cons]
      simpa using hleft

/-- A plugin that is rejected, or that comes later, can be left out without a change of which
plugins are accepted before a given one. -/
theorem acceptedBefore_filter (a : Assembly) {names : List String} {plugin left : String}
    (hsorted : names.Pairwise (· < ·)) (hmem : plugin ∈ names) (hne : plugin ≠ left)
    (h : plugin < left ∨ ∀ v ∈ (l.loadEach a names).1, v.name = left → v.status = .rejected) :
  Verdict.acceptedBefore plugin (l.loadEach a (names.filter (· != left))).1
    = Verdict.acceptedBefore plugin (l.loadEach a names).1
  := by
  obtain ⟨before, after, rfl, hbefore, hafter⟩ := exists_cut hsorted hmem
  have hfilter : (before ++ plugin :: after).filter (· != left)
      = before.filter (· != left) ++ plugin :: after.filter (· != left) := by
    rw [List.filter_append, List.filter_cons_of_pos]
    simpa using hne
  have hbefore' : ∀ n ∈ before.filter (· != left), n < plugin := by
    intro n hn
    apply hbefore n (List.mem_of_mem_filter hn)
  have hafter' : ∀ n ∈ after.filter (· != left), plugin < n := by
    intro n hn
    apply hafter n (List.mem_of_mem_filter hn)
  rw [hfilter, l.acceptedBefore_cut a hbefore' hafter', l.acceptedBefore_cut a hbefore hafter]
  apply l.acceptedNames_filter
  intro v hv hname
  rcases h with hlt | hrejected
  · cases String.lt_asymm hlt (hname ▸ hbefore _ (l.name_mem_of_mem_verdicts hv))
  · apply hrejected v _ hname
    rw [verdicts_append]
    apply List.mem_append_left _ hv

/-- Two inventories that list the same plugins apart from one have the same names without it. -/
theorem filter_names_congr {r s : Inventory} {other : String}
    (h : ∀ n, n ≠ other → (n ∈ r.names ↔ n ∈ s.names)) :
  r.names.filter (· != other) = s.names.filter (· != other)
  := by
  apply (r.pairwise_names.filter _).eq_of_mem_iff (s.pairwise_names.filter _)
  intro n
  rw [List.mem_filter, List.mem_filter]
  by_cases hn : n = other
  · simp [hn]
  · rw [h n hn]

/-! ### Passes over inventories -/

/-- Whether two passes onto one tree treat a plugin alike: both come to the same verdict on it,
and what the verdict adds to the tree stands, in both, behind the children of the tree and the
same groups of plugins accepted before. -/
def TreatAlike (tree : CommandTree) (plugin : String) (first second : List Verdict × Assembly) :
    Prop :=
  ∃ v accepted back back',
    (Report.mk first.1).get? plugin = some v
      ∧ (Report.mk second.1).get? plugin = some v
      ∧ first.2.tree.children
        = tree.children ++ l.groupsOf accepted ++ l.groupsOf (Verdict.acceptedNames [v]) ++ back
      ∧ second.2.tree.children
        = tree.children ++ l.groupsOf accepted ++ l.groupsOf (Verdict.acceptedNames [v]) ++ back'

/-- Passes over two inventories, with any issues before, treat a plugin alike if the same plugins
are accepted before it. -/
theorem treatAlike_of_acceptedBefore {tree : CommandTree} {log log' : IssueLog}
    {r r' : Inventory} {plugin : String} (hmem : plugin ∈ r.names) (hmem' : plugin ∈ r'.names)
    (h : Verdict.acceptedBefore plugin (l.passOver tree log r).1
      = Verdict.acceptedBefore plugin (l.passOver tree log' r').1) :
  l.TreatAlike tree plugin (l.passOver tree log r) (l.passOver tree log' r')
  := by
  have hget := l.get?_loadEach ⟨tree, l.host.profileTypes, log⟩ r.pairwise_names hmem
  have hget' := l.get?_loadEach ⟨tree, l.host.profileTypes, log'⟩ r'.pairwise_names hmem'
  obtain ⟨back, hback⟩ :=
    l.exists_children_loadEach ⟨tree, l.host.profileTypes, log⟩ r.pairwise_names hmem
  obtain ⟨back', hback'⟩ :=
    l.exists_children_loadEach ⟨tree, l.host.profileTypes, log'⟩ r'.pairwise_names hmem'
  rw [← passOver] at hget hget' hback hback'
  rw [← h] at hget' hback'
  exact ⟨_, _, back, back', hget, hget', hback, hback'⟩

/-- A plugin's outcome depends only on the accepted plugins before it.  Two passes onto one tree
over inventories in which the same plugins are accepted before a plugin, in the order of the
bytes of names, treat it alike: its status, its issues and its part of the tree are the same.
So they do if the inventories differ at most in one other plugin that is rejected wherever it is
listed, or that comes later. -/
theorem outcome_depends_on_accepted_before (l : Loader) (tree : CommandTree)
    (log log' : IssueLog) (r r' : Inventory) (plugin : String) (hmem : plugin ∈ r.names)
    (hmem' : plugin ∈ r'.names) :
  (Verdict.acceptedBefore plugin (l.passOver tree log r).1
        = Verdict.acceptedBefore plugin (l.passOver tree log' r').1
      → l.TreatAlike tree plugin (l.passOver tree log r) (l.passOver tree log' r'))
    ∧ ∀ other ≠ plugin, (∀ n, n ≠ other → (n ∈ r.names ↔ n ∈ r'.names))
      → (Text.Utf8.bytesOf plugin < Text.Utf8.bytesOf other
        ∨ ∀ v ∈ (l.passOver tree log r).1 ++ (l.passOver tree log' r').1,
          v.name = other → v.status = .rejected)
      → l.TreatAlike tree plugin (l.passOver tree log r) (l.passOver tree log' r')
  := by
  use l.treatAlike_of_acceptedBefore hmem hmem'
  intro other hother hnames hleft
  rw [Text.Utf8.bytesOf_lt_iff] at hleft
  apply l.treatAlike_of_acceptedBefore hmem hmem'
  have hfirst := l.acceptedBefore_filter ⟨tree, l.host.profileTypes, log⟩ r.pairwise_names hmem
    (Ne.symm hother) (hleft.imp_right fun h v hv => h v (List.mem_append_left _ hv))
  have hsecond := l.acceptedBefore_filter ⟨tree, l.host.profileTypes, log'⟩ r'.pairwise_names
    hmem' (Ne.symm hother) (hleft.imp_right fun h v hv => h v (List.mem_append_right _ hv))
  have hsame := l.verdicts_congr (a := ⟨tree, l.host.profileTypes, log⟩)
    (b := ⟨tree, l.host.profileTypes, log'⟩) rfl rfl (r.names.filter (· != other))
  rw [hsame, filter_names_congr hnames] at hfirst
  apply hfirst.symm.trans hsecond

/-- The third sample plugin is treated alike with and without the second one, which is
rejected. -/
theorem outcome_depends_on_accepted_before_of_sample :
  "log" ∈ Inventory.sample.names ∧ "log" ∈ (Inventory.sample.erase "extra").names
    ∧ (∀ v ∈ (sample.passOver Host.sample.commandTree ByName.empty Inventory.sample).1
        ++ (sample.passOver Host.sample.commandTree ByName.empty
          (Inventory.sample.erase "extra")).1, v.name = "extra" → v.status = .rejected)
    ∧ sample.TreatAlike Host.sample.commandTree "log"
        (sample.passOver Host.sample.commandTree ByName.empty Inventory.sample)
        (sample.passOver Host.sample.commandTree ByName.empty (Inventory.sample.erase "extra"))
  := by
  have hmem : "log" ∈ Inventory.sample.names := by decide +kernel
  have hmem' : "log" ∈ (Inventory.sample.erase "extra").names := by decide +kernel
  have hrejected : ∀ v ∈ (sample.passOver Host.sample.commandTree ByName.empty
      Inventory.sample).1 ++ (sample.passOver Host.sample.commandTree ByName.empty
        (Inventory.sample.erase "extra")).1, v.name = "extra" → v.status = .rejected := by
    decide +kernel
  use hmem, hmem', hrejected
  apply (outcome_depends_on_accepted_before sample Host.sample.commandTree ByName.empty
    ByName.empty Inventory.sample (Inventory.sample.erase "extra") "log" hmem hmem').2 "extra"
  · decide
  · intro n hn
    rw [ByName.names_erase, List.mem_filter]
    simp [hn]
  · right
    apply hrejected

end Loader

end PluginHost

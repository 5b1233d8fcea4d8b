import PluginHost.Proofs.Decision

/-!
# The loading pass

A pass decides about one plugin after another.  The verdict on a plugin depends on the assembly
only through its tree and its known types (`Loader.verdict`), and these grow only by what the
accepted plugins add.  So the tree after a pass is the tree before it with the groups of the
accepted plugins behind its children (`tree_loadEach`), the known types are those before with
the types of the accepted plugins behind them (`known_loadEach`), and the verdicts of a pass over
more plugins go on from there (`verdicts_append`).
-/

namespace PluginHost

/-- The names of the plugins that some verdicts accept, in order. -/
def Verdict.acceptedNames (vs : List Verdict) : List String :=
  (vs.filter fun v => v.status == .accepted).map (·.name)

theorem Verdict.acceptedNames_append (vs ws : List Verdict) :
  acceptedNames (vs ++ ws) = acceptedNames vs ++ acceptedNames ws
  := by
  rw [acceptedNames, List.filter_append, List.map_append]
  rfl

theorem Verdict.acceptedNames_cons (v : Verdict) (vs : List Verdict) :
  acceptedNames (v :: vs) = acceptedNames [v] ++ acceptedNames vs
  := acceptedNames_append [v] vs

theorem Verdict.acceptedNames_of_accepted {v : Verdict} (h : v.status = .accepted) :
  acceptedNames [v] = [v.name]
  := by
  simp [acceptedNames, h]

theorem Verdict.acceptedNames_of_rejected {v : Verdict} (h : v.status = .rejected) :
  acceptedNames [v] = []
  := by
  simp [acceptedNames, h]

namespace Loader

variable (l : Loader)

/-! ### One step -/

/-- The verdict on a plugin beside a tree and some known types. -/
def verdict (tree : CommandTree) (known : List String) (plugin : String) : Verdict :=
  ⟨plugin, statusOf (l.findings tree known plugin),
    (l.findings tree known plugin).map (Finding.issue plugin)⟩

/-- The groups that some plugins add to the tree when they are accepted, in order. -/
def groupsOf (accepted : List String) : List CommandTree :=
  accepted.filterMap fun plugin =>
    (l.library.manifestFor l.files plugin).toOption.map l.candidate

/-- The types that some plugins add to the known ones when they are accepted, in order. -/
def typesOf (accepted : List String) : List String :=
  accepted.flatMap fun plugin =>
    match l.library.manifestFor l.files plugin with
    | .ok m => m.profiles.filterMap (·.type)
    | .error _ => []

theorem groupsOf_append (accepted more : List String) :
  l.groupsOf (accepted ++ more) = l.groupsOf accepted ++ l.groupsOf more
  := by
  rw [groupsOf, List.filterMap_append]
  rfl

theorem typesOf_append (accepted more : List String) :
  l.typesOf (accepted ++ more) = l.typesOf accepted ++ l.typesOf more
  := by
  rw [typesOf, List.flatMap_append]
  rfl

theorem groupsOf_singleton {plugin : String} {m : Manifest}
    (hm : l.library.manifestFor l.files plugin = .ok m) :
  l.groupsOf [plugin] = [l.candidate m]
  := by
  simp [groupsOf, hm, Except.toOption]

theorem typesOf_singleton {plugin : String} {m : Manifest}
    (hm : l.library.manifestFor l.files plugin = .ok m) :
  l.typesOf [plugin] = m.profiles.filterMap (·.type)
  := by
  simp [typesOf, hm]

/-- A verdict of rejection comes with the assembly as it was, and one of acceptance with a
manifest whose candidate may join the tree. -/
theorem load_cases (a : Assembly) (plugin : String) :
  (l.verdict a.tree a.known plugin).status = .rejected
      ∧ (l.load a plugin).2.tree = a.tree ∧ (l.load a plugin).2.known = a.known
    ∨ (l.verdict a.tree a.known plugin).status = .accepted
      ∧ ∃ m, l.library.manifestFor l.files plugin = .ok m ∧ Joins a.tree (l.candidate m)
        ∧ (l.load a plugin).2.tree = a.tree.grow [l.candidate m]
        ∧ (l.load a plugin).2.known = a.known ++ m.profiles.filterMap (·.type)
  := by
  cases h : Finding.anyError (l.findings a.tree a.known plugin) with
  | true =>
    left
    rw [l.load_of_error h, verdict, statusOf, h]
    use rfl, rfl
  | false =>
    right
    obtain ⟨m, hm, hjoins, hload⟩ := l.load_of_no_error h
    rw [hload, verdict, statusOf, h]
    use rfl, m, hm, hjoins, rfl

/-- Loading a plugin grows the tree by its group, if the plugin is accepted. -/
theorem tree_load (a : Assembly) (plugin : String) :
  (l.load a plugin).2.tree
    = a.tree.grow (l.groupsOf (Verdict.acceptedNames [l.verdict a.tree a.known plugin]))
  := by
  obtain ⟨hv, htree, -⟩ | ⟨hv, m, hm, -, htree, -⟩ := l.load_cases a plugin
  · rw [htree, Verdict.acceptedNames_of_rejected hv]
    symm
    apply CommandTree.grow_nil
  · rw [htree, Verdict.acceptedNames_of_accepted hv]
    symm
    rw [verdict, l.groupsOf_singleton hm]

/-- Loading a plugin adds its types to the known ones, if the plugin is accepted. -/
theorem known_load (a : Assembly) (plugin : String) :
  (l.load a plugin).2.known
    = a.known ++ l.typesOf (Verdict.acceptedNames [l.verdict a.tree a.known plugin])
  := by
  obtain ⟨hv, -, hknown⟩ | ⟨hv, m, hm, -, -, hknown⟩ := l.load_cases a plugin
  · rw [hknown, Verdict.acceptedNames_of_rejected hv]
    symm
    apply List.append_nil
  · rw [hknown, Verdict.acceptedNames_of_accepted hv]
    symm
    rw [verdict, l.typesOf_singleton hm]

/-! ### The whole pass -/

theorem verdicts_cons (a : Assembly) (plugin : String) (rest : List String) :
  (l.loadEach a (plugin :: rest)).1
    = l.verdict a.tree a.known plugin :: (l.loadEach (l.load a plugin).2 rest).1
  := by
  rw [loadEach, verdict, ← l.issuesOf_load_self a plugin, ← l.status_load a plugin]

theorem assembly_cons (a : Assembly) (plugin : String) (rest : List String) :
  (l.loadEach a (plugin :: rest)).2 = (l.loadEach (l.load a plugin).2 rest).2
  := by
  rw [loadEach]

/-- The verdicts of a pass over more plugins go on from where a pass over the first ones has
ended. -/
theorem verdicts_append (a : Assembly) (names more : List String) :
  (l.loadEach a (names ++ more)).1
    = (l.loadEach a names).1 ++ (l.loadEach (l.loadEach a names).2 more).1
  := by
  induction names generalizing a with
  | nil => rfl
  | cons plugin rest ih =>
    rw [List.cons_append, verdicts_cons, verdicts_cons, ih]
    rfl

/-- There is one verdict on each plugin, in order. -/
theorem names_verdicts (a : Assembly) (names : List String) :
  (l.loadEach a names).1.map (·.name) = names
  := by
  induction names generalizing a with
  | nil => rfl
  | cons plugin rest ih =>
    rw [verdicts_cons, List.map_cons, ih]
    rfl

/-- A pass grows the tree by the groups of the accepted plugins, in order. -/
theorem tree_loadEach (a : Assembly) (names : List String) :
  (l.loadEach a names).2.tree
    = a.tree.grow (l.groupsOf (Verdict.acceptedNames (l.loadEach a names).1))
  := by
  induction names generalizing a with
  | nil =>
    symm
    apply CommandTree.grow_nil
  | cons plugin rest ih =>
    rw [assembly_cons, ih, tree_load, verdicts_cons,
      Verdict.acceptedNames_cons _ (l.loadEach _ rest).1, groupsOf_append,
      CommandTree.grow_append]

/-- A pass adds the types of the accepted plugins to the known ones, in order. -/
theorem known_loadEach (a : Assembly) (names : List String) :
  (l.loadEach a names).2.known
    = a.known ++ l.typesOf (Verdict.acceptedNames (l.loadEach a names).1)
  := by
  induction names generalizing a with
  | nil =>
    symm
    apply List.append_nil
  | cons plugin rest ih =>
    rw [assembly_cons, ih, known_load, verdicts_cons,
      Verdict.acceptedNames_cons _ (l.loadEach _ rest).1, typesOf_append, List.append_assoc]

/-- A pass puts the groups of the accepted plugins behind the children of the tree. -/
theorem children_loadEach (a : Assembly) (names : List String) :
  (l.loadEach a names).2.tree.children
    = a.tree.children ++ l.groupsOf (Verdict.acceptedNames (l.loadEach a names).1)
  := by
  induction names generalizing a with
  | nil =>
    symm
    apply List.append_nil
  | cons plugin rest ih =>
    rw [assembly_cons, ih, verdicts_cons, Verdict.acceptedNames_cons _ (l.loadEach _ rest).1,
      groupsOf_append, ← List.append_assoc]
    congr 1
    obtain ⟨hv, htree, -⟩ | ⟨hv, m, hm, hjoins, htree, -⟩ := l.load_cases a plugin
    · rw [htree, Verdict.acceptedNames_of_rejected hv]
      symm
      apply List.append_nil
    · rw [htree, Verdict.acceptedNames_of_accepted hv, verdict, l.groupsOf_singleton hm]
      apply CommandTree.children_grow hjoins.isGroup

/-- The verdicts of a pass depend on the tree and the known types that it starts from, and not
on the log. -/
theorem verdicts_congr {a b : Assembly} (htree : a.tree = b.tree) (hknown : a.known = b.known)
    (names : List String) :
  (l.loadEach a names).1 = (l.loadEach b names).1
  := by
  induction names generalizing a b with
  | nil => rfl
  | cons plugin rest ih =>
    have htree' : (l.load a plugin).2.tree = (l.load b plugin).2.tree := by
      rw [tree_load, tree_load, htree, hknown]
    have hknown' : (l.load a plugin).2.known = (l.load b plugin).2.known := by
      rw [known_load, known_load, htree, hknown]
    rw [verdicts_cons, verdicts_cons, htree, hknown, ih htree' hknown']

/-- A pass leaves the issues of every plugin that it does not load. -/
theorem issuesOf_loadEach_of_not_mem (a : Assembly) {names : List String} {plugin : String}
    (h : plugin ∉ names) :
  (l.loadEach a names).2.log.issuesOf plugin = a.log.issuesOf plugin
  := by
  induction names generalizing a with
  | nil => rfl
  | cons first rest ih =>
    obtain ⟨hfirst, hrest⟩ := not_or.1 (mt List.mem_cons.2 h)
    rw [assembly_cons, ih _ hrest, l.issuesOf_load_of_ne a (Ne.symm hfirst)]

/-- After a pass over distinct plugins the issues of each are those in its verdict. -/
theorem issuesOf_loadEach (a : Assembly) {names : List String} (h : names.Nodup) :
  ∀ v ∈ (l.loadEach a names).1, (l.loadEach a names).2.log.issuesOf v.name = v.issues
  := by
  induction names generalizing a with
  | nil =>
    intro v hv
    cases hv
  | cons plugin rest ih =>
    obtain ⟨hplugin, hrest⟩ := List.nodup_cons.1 h
    intro v hv
    rw [verdicts_cons] at hv
    rw [assembly_cons]
    -- the first plugin does not come again, so its issues stay until the end
    rcases List.mem_cons.1 hv with rfl | hv
    · rw [verdict, l.issuesOf_loadEach_of_not_mem _ hplugin, issuesOf_load_self]
    · apply ih _ hrest v hv

/-- The pass over the plugins of an inventory onto a tree. -/
def passOver (tree : CommandTree) (log : IssueLog) (r : Inventory) : List Verdict × Assembly :=
  l.loadEach ⟨tree, l.host.profileTypes, log⟩ r.names

/-! ### The stages of a pass -/

/-- The assemblies of a pass, one after each decision. -/
def stages (a : Assembly) : List String → List Assembly
  | [] => []
  | plugin :: rest => (l.load a plugin).2 :: stages (l.load a plugin).2 rest

/-- What every decision preserves holds at every stage. -/
theorem stages_induction {P : Assembly → Prop} (hstep : ∀ a plugin, P a → P (l.load a plugin).2)
    {a : Assembly} (h : P a) (names : List String) :
  ∀ b ∈ l.stages a names, P b
  := by
  induction names generalizing a with
  | nil =>
    intro b hb
    cases hb
  | cons plugin rest ih =>
    intro b hb
    rcases List.mem_cons.1 hb with rfl | hb
    · apply hstep a plugin h
    · apply ih (hstep a plugin h) b hb

end Loader

/-! ### A sample -/

/-- A package that adds one command in a group with an alias, and a profile type. -/
def samplePackage (group aliasWord type : String) : Content :=
  .text ("[null,null,\x7b\x7d,[\"" ++ group
    ++ "\",\"-\",[[\"run\",\"command\",\"-\",[],null,\"f\",null]],[[\"" ++ type
    ++ "\"]],null,[\"" ++ aliasWord ++ "\"],null]]")

/-- The inventory of the sample plugins. -/
def Inventory.sample : Inventory :=
  ByName.ofList (["data", "extra", "log"].map fun plugin => (plugin, ⟨plugin, "-", "1"⟩))

/-- A text that spells the inventory of the sample plugins. -/
def Inventory.sampleText : String :=
  "\x7b" ++ ",".intercalate (["data", "extra", "log"].map fun plugin =>
    "\"" ++ plugin ++ "\":\x7b\"package\":\"" ++ plugin
      ++ "\",\"registry\":\"-\",\"version\":\"1\"\x7d") ++ "\x7d"

/-- Files with three installed plugins, of which the second has the alias of the first in other
letters, and a file that lists them. -/
def Files.sample : Files where
  here := ⟨"/"⟩
  denied := false
  entries := [
    (["plugins"], .file (.text Inventory.sampleText)),
    (["m"], .directory),
    (["m", "data"], .directory),
    (["m", "data", "package.json"], .file (samplePackage "data" "d" "table")),
    (["m", "data", "f"], .file (.text "")),
    (["m", "extra"], .directory),
    (["m", "extra", "package.json"], .file (samplePackage "extra" "D" "note")),
    (["m", "extra", "f"], .file (.text "")),
    (["m", "log"], .directory),
    (["m", "log", "package.json"], .file (samplePackage "log" "l" "note")),
    (["m", "log", "f"], .file (.text ""))]

/-- The program as a host. -/
def Host.sample : Host := .builtin ⟨"/host"⟩

/-- A loader for the sample plugins. -/
def Loader.sample : Loader where
  host := Host.sample
  modules := ⟨"/m"⟩
  files := Files.sample
  redirect := ⟨Host.sample.package, Host.sample.root, some Host.sample.sharedPackages⟩

/-- The host before any plugin has been loaded. -/
def Assembly.sample : Assembly where
  tree := Host.sample.commandTree
  known := Host.sample.profileTypes
  log := ByName.empty

/-- The second plugin is rejected, although the third, which defines the same type, is
accepted. -/
theorem Loader.statuses_sample :
  (Loader.sample.loadEach Assembly.sample ["data", "extra", "log"]).1.map (·.status)
    = [.accepted, .rejected, .accepted]
  := by decide +kernel

end PluginHost

import Mathlib.Data.List.Forall2
import PluginHost.PackageManager.Shelf
import PluginHost.Proofs.ByteOrder
import PluginHost.Proofs.Pass
import PluginHost.Proofs.Session
import PluginHost.Proofs.Storing
import PluginHost.Url.CodedNames

/-!
# Extending and validating agree

Extending the command tree of the host and validating all plugins make the same pass over the
same inventory.  So the tree is that of the host with the groups of exactly those plugins behind
its children that the report accepts, and the issues are those in the report
(`Manager.extend_agrees_with_validate`).  The second of two operations loads what the first one
has loaded or created (`Manager.inventory_again`).
-/

namespace PluginHost

namespace Loader

variable (l : Loader)

/-- Whether a node is the group of the plugin that a verdict is on. -/
def IsGroupOf (v : Verdict) (group : CommandTree) : Prop :=
  ∃ m, l.library.manifestFor l.files v.name = .ok m ∧ group = l.candidate m

/-- Every plugin that a pass accepts has a manifest and adds its group, once, in order. -/
theorem groups_loadEach (a : Assembly) (names : List String) :
  List.Forall₂ l.IsGroupOf ((l.loadEach a names).1.filter fun v => v.status == .accepted)
    (l.groupsOf (Verdict.acceptedNames (l.loadEach a names).1))
  := by
  induction names generalizing a with
  | nil => apply List.Forall₂.nil
  | cons plugin rest ih =>
    rw [verdicts_cons, Verdict.acceptedNames_cons _ (l.loadEach _ rest).1, groupsOf_append]
    obtain ⟨hv, -⟩ | ⟨hv, m, hm, -⟩ := l.load_cases a plugin
    · rw [Verdict.acceptedNames_of_rejected hv, List.filter_cons_of_neg (by simp [hv])]
      apply ih
    · rw [Verdict.acceptedNames_of_accepted hv, List.filter_cons_of_pos (by simp [hv]),
        verdict, l.groupsOf_singleton hm]
      apply List.Forall₂.cons _ (ih _)
      use m, hm

end Loader

namespace Manager

variable {σ α β : Type} {m : Manager σ}

/-! ### Operations with a pass -/

/-- An operation that makes a pass over the inventory onto a tree, and answers with a part of
what the pass gives. -/
def withPass (m : Manager σ) (tree : CommandTree) (answer : List Verdict × CommandTree → α) :
    Attempt (Session σ) α := do
  let plugins ← m.inventory
  return answer (← m.loadNames tree plugins.names)

theorem extend_eq_withPass (m : Manager σ) (tree : CommandTree) :
  m.extend tree = m.withPass tree (·.2)
  := rfl

theorem validate_eq_withPass (m : Manager σ) :
  m.validate none = m.withPass m.host.commandTree fun result => ⟨result.1⟩
  := rfl

/-- The pass over an inventory onto a tree in a session. -/
def passOver (m : Manager σ) (s : Session σ) (tree : CommandTree) (plugins : Inventory) :
    List Verdict × Assembly :=
  (m.loader (m.files s)).passOver tree s.log plugins

/-- An operation with a pass loads the inventory, and if that succeeds it makes its pass and
leaves the issues. -/
theorem outcome_withPass {s : Session σ} (h : m.Idle s) (tree : CommandTree)
    (answer : List Verdict × CommandTree → α) :
  (m.withPass tree answer).outcome s
    = match m.inventory.outcome s with
      | (.ok plugins, t) =>
        (.ok (answer ((m.passOver t tree plugins).1, (m.passOver t tree plugins).2.tree)),
          { t with log := (m.passOver t tree plugins).2.log })
      | (.error e, t) => (.error e, t)
  := by
  rw [withPass, Attempt.outcome_bind]
  have hnext := m.keeps_inventory s h
  cases hload : m.inventory.outcome s with
  | mk result t =>
    rw [hload] at hnext
    cases result with
    | error e => rfl
    | ok plugins =>
      dsimp only
      rw [Attempt.outcome_bind, m.outcome_loadNames hnext]
      rfl

/-- An operation with a pass succeeds exactly if the inventory can be loaded. -/
theorem withPass_eq_ok_iff {s t : Session σ} (h : m.Idle s) (tree : CommandTree)
    (answer : List Verdict × CommandTree → α) {a : α} :
  (m.withPass tree answer).outcome s = (.ok a, t)
    ↔ ∃ plugins start, m.inventory.outcome s = (.ok plugins, start)
      ∧ a = answer ((m.passOver start tree plugins).1, (m.passOver start tree plugins).2.tree)
      ∧ t = { start with log := (m.passOver start tree plugins).2.log }
  := by
  rw [outcome_withPass h]
  constructor
  · intro hpass
    split at hpass
    · next plugins start hload =>
      cases hpass
      use plugins, start, hload, rfl
    · cases hpass
  · rintro ⟨plugins, start, hload, rfl, rfl⟩
    rw [hload]

/-! ### The inventory of two operations -/

/-- An operation starts by loading the inventory from the store in the files. -/
theorem load_of_inventory {s t : Session σ} {answer : Except Failure Inventory}
    (h : m.inventory.outcome s = (answer, t)) :
  m.store.load.outcome (m.files s) = (answer, m.files t)
  := (of_onFiles h).1

/-- Loading the inventory as an operation does answers as the store does. -/
theorem inventory_of_load {s : Session σ} {answer : Except Failure Inventory} {fs : Files}
    (h : m.store.load.outcome (m.files s) = (answer, fs)) :
  ∃ t, m.inventory.outcome s = (answer, t) ∧ m.files t = fs
  := by
  cases hinventory : m.inventory.outcome s with
  | mk answer' t =>
    have hload := load_of_inventory hinventory
    rw [h] at hload
    obtain ⟨rfl, rfl⟩ := Prod.mk.inj hload
    use t

/-- Loading the inventory again gives the same, from the files before or after. -/
theorem inventory_again {s s' t : Session σ} {plugins : Inventory}
    (h : m.inventory.outcome s = (.ok plugins, t))
    (hfiles : m.files s' = m.files s ∨ m.files s' = m.files t) :
  ∃ t', m.inventory.outcome s' = (.ok plugins, t') ∧ m.files t' = m.files t
  := by
  apply inventory_of_load
  have hload := load_of_inventory h
  -- the first time may have created the file, which the second one then only reads
  rcases hfiles with hbefore | hafter
  · rw [hbefore, hload]
  · rw [hafter, Store.load_of_read (Store.read_of_load hload)]

/-- Loading the inventory leaves the issues as they are. -/
theorem log_inventory (m : Manager σ) (s : Session σ) :
  (m.inventory.outcome s).2.log = s.log
  := rfl

/-- Where the inventory can be loaded, an operation with a pass succeeds.  The pass is over that
inventory, with the files as loading has left them. -/
theorem withPass_of_load {s : Session σ} (h : m.Idle s) {plugins : Inventory} {files : Files}
    (hload : m.store.load.outcome (m.files s) = (.ok plugins, files)) (tree : CommandTree)
    (answer : List Verdict × CommandTree → α) :
  ∃ t, (m.withPass tree answer).outcome s
      = (.ok (answer (((m.loader files).passOver tree s.log plugins).1,
          ((m.loader files).passOver tree s.log plugins).2.tree)), t)
    ∧ m.files t = files
  := by
  obtain ⟨start, hinventory, rfl⟩ := inventory_of_load hload
  have hlog : start.log = s.log := by
    rw [← m.log_inventory s, hinventory]
  have hpass := (withPass_eq_ok_iff h tree answer).2 ⟨plugins, start, hinventory, rfl, rfl⟩
  rw [passOver, hlog] at hpass
  exact ⟨_, hpass, rfl⟩

/-- Where the inventory can be loaded, the tree is extended by a pass over it. -/
theorem extend_of_load {s : Session σ} (h : m.Idle s) {plugins : Inventory} {files : Files}
    (hload : m.store.load.outcome (m.files s) = (.ok plugins, files)) (tree : CommandTree) :
  ∃ t, (m.extend tree).outcome s
      = (.ok ((m.loader files).passOver tree s.log plugins).2.tree, t) ∧ m.files t = files
  := by
  rw [extend_eq_withPass]
  apply withPass_of_load h hload

/-- Where the inventory can be loaded, the report on all plugins is on a pass over it. -/
theorem validate_of_load {s : Session σ} (h : m.Idle s) {plugins : Inventory} {files : Files}
    (hload : m.store.load.outcome (m.files s) = (.ok plugins, files)) :
  ∃ t, (m.validate none).outcome s
      = (.ok ⟨((m.loader files).passOver m.host.commandTree s.log plugins).1⟩, t)
    ∧ m.files t = files
  := by
  rw [validate_eq_withPass]
  apply withPass_of_load h hload

/-- An operation with a pass fails for the reason for which the inventory cannot be loaded. -/
theorem withPass_eq_error_iff {s : Session σ} (h : m.Idle s) (tree : CommandTree)
    (answer : List Verdict × CommandTree → α) {reason : Failure} :
  ((m.withPass tree answer).outcome s).1 = .error reason
    ↔ (m.store.load.outcome (m.files s)).1 = .error reason
  := by
  rw [outcome_withPass h]
  cases hload : m.inventory.outcome s with
  | mk result t =>
    rw [load_of_inventory hload]
    cases result <;> simp

/-- After an operation with a pass, any other one onto the same tree makes a pass over the same
inventory, which is in the store, with the same files. -/
theorem withPass_again {s s' t : Session σ} (hs : m.Idle s) (hs' : m.Idle s')
    {tree : CommandTree} {answer : List Verdict × CommandTree → α} {a : α}
    (h : (m.withPass tree answer).outcome s = (.ok a, t))
    (hfiles : m.files s' = m.files s ∨ m.files s' = m.files t)
    (other : List Verdict × CommandTree → β) :
  ∃ plugins start start', m.store.read (m.files start') = .ok plugins
    ∧ m.files start = m.files start'
    ∧ a = answer ((m.passOver start tree plugins).1, (m.passOver start tree plugins).2.tree)
    ∧ t = { start with log := (m.passOver start tree plugins).2.log }
    ∧ (m.withPass tree other).outcome s'
      = (.ok (other ((m.passOver start' tree plugins).1,
            (m.passOver start' tree plugins).2.tree)),
        { start' with log := (m.passOver start' tree plugins).2.log })
  := by
  obtain ⟨plugins, start, hload, rfl, rfl⟩ := (withPass_eq_ok_iff hs tree answer).1 h
  obtain ⟨start', hload', hstart⟩ := inventory_again hload hfiles
  have hread := Store.read_of_load (load_of_inventory hload')
  use plugins, start, start', hread, hstart.symm, rfl, rfl
  rw [withPass_eq_ok_iff hs']
  use plugins, start', hload', rfl

/-! ### Agreement -/

/-- Whether a tree, and the session in which it has been made, agree with a report: the report is
on the plugins in the store, in the order of the bytes of their names; the tree is that of the
host with the groups of the accepted plugins behind its children, once each, in that order; and
the issues of every plugin are those in the report. -/
structure Agree (m : Manager σ) (report : Report) (tree : CommandTree) (s : Session σ) :
    Prop where
  plugins : ∃ plugins, m.store.read (m.files s) = .ok plugins
    ∧ report.verdicts.map (·.name) = plugins.names
  ordered : (report.verdicts.map (·.name)).Pairwise fun a b =>
    Text.Utf8.bytesOf a < Text.Utf8.bytesOf b
  tree : ∃ groups, tree
      = .group m.host.commandTree.label (m.host.commandTree.children ++ groups)
    ∧ List.Forall₂ (m.loader (m.files s)).IsGroupOf
        (report.verdicts.filter fun v => v.status == .accepted) groups
  issues : ∀ v ∈ report.verdicts, s.log.issuesOf v.name = v.issues

/-- Two passes over the inventory in the store, of which one gives the report and the other the
tree, agree. -/
theorem agree_of_passes {s t : Session σ} {plugins : Inventory}
    (hread : m.store.read (m.files t) = .ok plugins) (hfiles : m.files s = m.files t) :
  m.Agree ⟨(m.passOver s m.host.commandTree plugins).1⟩
    (m.passOver t m.host.commandTree plugins).2.tree
    { t with log := (m.passOver t m.host.commandTree plugins).2.log }
  := by
  have hverdicts : (m.passOver s m.host.commandTree plugins).1
      = (m.passOver t m.host.commandTree plugins).1 := by
    rw [passOver, passOver, hfiles]
    apply Loader.verdicts_congr
    · rfl
    · rfl
  have hnames : (m.passOver t m.host.commandTree plugins).1.map (·.name) = plugins.names := by
    apply Loader.names_verdicts
  rw [hverdicts]
  constructor
  · use plugins, hread, hnames
  · rw [hnames]
    apply plugins.pairwise_names.imp
    intro a b hab
    rw [Text.Utf8.bytesOf_lt_iff]
    apply hab
  · use (m.loader (m.files t)).groupsOf
      (Verdict.acceptedNames (m.passOver t m.host.commandTree plugins).1)
    constructor
    · apply Loader.tree_loadEach
    · apply Loader.groups_loadEach
  · apply Loader.issuesOf_loadEach
    apply plugins.pairwise_names.imp
    intro a b hab
    rintro rfl
    apply String.lt_irrefl _ hab

/-- Extending the command tree of the host agrees with validating all plugins.  If either succeeds
in a reachable session, then so does the other one in any reachable session with the files as
they were before or are after the first one, and the tree is that of the host with the groups
of exactly the accepted plugins.  Either fails only if the inventory cannot be loaded, and for
that reason. -/
theorem extend_agrees_with_validate [DomainNames] (m : Manager σ) {s s' : Session σ}
    (hs : m.Reachable s) (hs' : m.Reachable s') :
  (∀ report t, (m.validate none).outcome s = (.ok report, t)
      → m.files s' = m.files s ∨ m.files s' = m.files t
      → ∃ tree t', (m.extend m.host.commandTree).outcome s' = (.ok tree, t')
        ∧ m.Agree report tree t')
    ∧ (∀ tree t', (m.extend m.host.commandTree).outcome s' = (.ok tree, t')
      → m.files s = m.files s' ∨ m.files s = m.files t'
      → ∃ report t, (m.validate none).outcome s = (.ok report, t) ∧ m.Agree report tree t')
    ∧ ∀ reason,
      (((m.validate none).outcome s).1 = .error reason
        ↔ (m.store.load.outcome (m.files s)).1 = .error reason)
      ∧ (((m.extend m.host.commandTree).outcome s').1 = .error reason
        ↔ (m.store.load.outcome (m.files s')).1 = .error reason)
  := by
  have hidle := idle_of_reachable hs
  have hidle' := idle_of_reachable hs'
  rw [validate_eq_withPass, extend_eq_withPass]
  constructor
  · intro report t h hfiles
    obtain ⟨plugins, start, start', hread, hstart, rfl, -, hextend⟩ :=
      withPass_again hidle hidle' h hfiles (·.2)
    exact ⟨_, _, hextend, agree_of_passes hread hstart⟩
  constructor
  · intro tree t' h hfiles
    obtain ⟨plugins, start', start, hread, hstart, rfl, rfl, hvalidate⟩ :=
      withPass_again hidle' hidle h hfiles fun result => Report.mk result.1
    rw [← hstart] at hread
    exact ⟨_, _, hvalidate, agree_of_passes hread hstart.symm⟩
  · intro reason
    use withPass_eq_error_iff hidle _ _
    apply withPass_eq_error_iff hidle'

/-! ### A sample -/

/-- The program as a manager of the sample plugins. -/
def sample : Manager Shelf where
  host := Host.sample
  store := ⟨⟨"/plugins"⟩⟩
  packages := Shelf.manager ⟨"/m"⟩
  defaultRegistry := none

/-- A session with the sample plugins, before the first operation. -/
def sampleStart : Session Shelf := sample.start ⟨Files.sample, [], [], none, []⟩

/-- The sample plugins are in the store. -/
theorem read_sample :
  sample.store.read (sample.files sampleStart) = .ok Inventory.sample
  := by decide +kernel

/-- A pass over the sample plugins accepts the first and the last, whatever has been recorded
before. -/
theorem statuses_passOver_sample (log : IssueLog) :
  ((sample.loader Files.sample).passOver sample.host.commandTree log Inventory.sample).1.map
      (·.status)
    = [.accepted, .rejected, .accepted]
  := by
  have hnames : Inventory.sample.names = ["data", "extra", "log"] := by decide +kernel
  have hloader : sample.loader Files.sample = Loader.sample := rfl
  rw [Loader.passOver, hnames, hloader, Loader.verdicts_congr (b := Assembly.sample)]
  · apply Loader.statuses_sample
  · rfl
  · rfl

attribute [local instance] Url.codedNames

/-- The report on the sample plugins accepts the first and the last, and the tree that is made
after the validation agrees with it. -/
theorem extend_agrees_with_validate_of_sample :
  ∃ report t, (sample.validate none).outcome sampleStart = (.ok report, t)
    ∧ report.verdicts.map (·.status) = [.accepted, .rejected, .accepted]
    ∧ ∃ tree t', (sample.extend sample.host.commandTree).outcome t = (.ok tree, t')
      ∧ sample.Agree report tree t'
  := by
  have hstart : sample.Reachable sampleStart := Reachable.start _
  obtain ⟨loaded, hload, hfiles⟩ := inventory_of_load (Store.load_of_read read_sample)
  have hvalidate := (withPass_eq_ok_iff (idle_of_reachable hstart) sample.host.commandTree
    fun result => Report.mk result.1).2 ⟨_, loaded, hload, rfl, rfl⟩
  rw [← validate_eq_withPass] at hvalidate
  have hnext := hstart.after (.validate none)
  rw [after, hvalidate] at hnext
  have hloader : sample.loader (sample.files sampleStart) = Loader.sample := rfl
  have hpass : (sample.passOver loaded sample.host.commandTree Inventory.sample).1
      = (Loader.sample.loadEach Assembly.sample ["data", "extra", "log"]).1 := by
    have hnames : Inventory.sample.names = ["data", "extra", "log"] := by decide +kernel
    rw [passOver, hfiles, hloader, Loader.passOver, hnames]
    apply Loader.verdicts_congr
    · rfl
    · rfl
  have hstatuses := Loader.statuses_sample
  rw [← hpass] at hstatuses
  refine ⟨_, _, hvalidate, hstatuses, ?_⟩
  apply (extend_agrees_with_validate sample hstart hnext).1 _ _ hvalidate
  right
  rfl

end Manager

end PluginHost

import PluginHost.Proofs.Lookup
import PluginHost.Proofs.Pass

/-!
# What is recorded

A log is `Proper` if it lists only plugins that have an issue, and under every plugin only issues of
that plugin.  Recording and forgetting keep a log proper, and so does a pass, which lists no other
plugins than its own beside those listed before (`Loader.mem_names_loadEach`).  An `Event` is what
can happen to issues: a pass leaves each of its plugins with the issues in the verdict on it
(`Loader.issuesOf_pass`), and a plugin that is uninstalled is left with none.
-/

namespace PluginHost

namespace ByName

variable {α : Type} {m : ByName α} {name other : String}

/-- A name is listed exactly if it has a value. -/
theorem mem_names_iff :
  name ∈ m.names ↔ ∃ value, m.get? name = some value
  := by
  simp [names, get?_eq_some_iff]

theorem mem_names_insert (value : α) :
  other ∈ (m.insert name value).names ↔ name = other ∨ other ∈ m.names
  := by
  rw [mem_names_iff, mem_names_iff]
  by_cases h : name = other
  · subst h
    simp
  · simp [get?_insert_of_ne m value h, h]

theorem mem_names_erase :
  other ∈ (m.erase name).names ↔ name ≠ other ∧ other ∈ m.names
  := by
  rw [names_erase, List.mem_filter, bne_iff_ne, and_comm, ne_comm]

end ByName

namespace IssueLog

/-! ### Proper logs -/

/-- Whether every plugin that a log lists has an issue, and all its issues are its own. -/
def Proper (log : IssueLog) : Prop := ∀ e ∈ log.entries, e.2 ≠ [] ∧ ∀ i ∈ e.2, i.plugin = e.1

variable {log : IssueLog} {plugin other : String}

theorem plugin_of_mem_issuesOf (h : log.Proper) :
  ∀ i ∈ log.issuesOf plugin, i.plugin = plugin
  := by
  intro i hi
  rw [issuesOf] at hi
  cases hissues : log.get? plugin with
  | none =>
    rw [hissues] at hi
    cases hi
  | some issues =>
    rw [hissues] at hi
    apply (h _ (ByName.get?_eq_some_iff.1 hissues)).2 i hi

theorem issuesOf_ne_nil (h : log.Proper) (hplugin : plugin ∈ log.names) :
  log.issuesOf plugin ≠ []
  := by
  obtain ⟨issues, hissues⟩ := ByName.mem_names_iff.1 hplugin
  rw [issuesOf, hissues]
  apply (h _ (ByName.get?_eq_some_iff.1 hissues)).1

theorem proper_clear (h : log.Proper) (plugin : String) :
  (log.clear plugin).Proper
  := by
  intro e he
  apply h e (List.mem_of_mem_filter he)

theorem proper_record (h : log.Proper) (plugin : String) (severity : Severity)
    (message : String) :
  (log.record plugin severity message).Proper
  := by
  intro e he
  rcases ByName.mem_insertEntry he with rfl | he
  · constructor
    · simp
    · intro i hi
      rcases List.mem_append.1 hi with hi | hi
      · apply plugin_of_mem_issuesOf h i hi
      · rw [List.mem_singleton.1 hi]
  · apply h e he

theorem proper_recordFindings (h : log.Proper) (plugin : String) (found : List Finding) :
  (log.recordFindings plugin found).Proper
  := by
  rw [recordFindings, recordAll]
  generalize found.map (fun f => (f.severity, f.message)) = notes
  induction notes generalizing log with
  | nil => apply h
  | cons note rest ih => apply ih (proper_record h plugin _ _)

/-! ### Listed plugins -/

/-- A plugin without issues is not listed in a proper log, and one with issues is listed in any. -/
theorem mem_names_iff (h : log.Proper) :
  plugin ∈ log.names ↔ log.issuesOf plugin ≠ []
  := by
  constructor
  · apply issuesOf_ne_nil h
  · intro hissues
    rw [ByName.mem_names_iff]
    cases hplugin : log.get? plugin with
    | none =>
      rw [issuesOf, hplugin] at hissues
      cases hissues rfl
    | some issues => use issues

end IssueLog

namespace Loader

variable (l : Loader)

/-- A pass keeps a log proper. -/
theorem proper_loadEach {a : Assembly} (h : a.log.Proper) (names : List String) :
  (l.loadEach a names).2.log.Proper
  := by
  induction names generalizing a with
  | nil => apply h
  | cons plugin rest ih =>
    rw [assembly_cons]
    apply ih
    rw [log_load]
    apply IssueLog.proper_recordFindings (IssueLog.proper_clear h plugin)

/-- A pass lists no other plugins than its own, beside those that are listed before. -/
theorem mem_names_loadEach {a : Assembly} (h : a.log.Proper) {names : List String}
    {plugin : String} (hplugin : plugin ∈ (l.loadEach a names).2.log.names) :
  plugin ∈ names ∨ plugin ∈ a.log.names
  := by
  by_cases hmem : plugin ∈ names
  · left
    apply hmem
  · right
    rw [IssueLog.mem_names_iff (l.proper_loadEach h names),
      l.issuesOf_loadEach_of_not_mem a hmem] at hplugin
    apply (IssueLog.mem_names_iff h).2 hplugin

end Loader

/-! ### Events -/

/-- What can happen to the issues of plugins: a pass comes to some verdicts, or a plugin is
uninstalled. -/
inductive Event where
  | pass (verdicts : List Verdict)
  | uninstalled (plugin : String)

namespace Event

/-- The issues that an event leaves a plugin with, if it is about the plugin. -/
def issues? (plugin : String) : Event → Option (List Issue)
  | pass verdicts => ((Report.mk verdicts).get? plugin).map (·.issues)
  | uninstalled name => if name = plugin then some [] else none

/-- The issues that a plugin has after some events: those that the last event about it leaves it
with, and none if there is no such event. -/
def issuesAfter (events : List Event) (plugin : String) : List Issue :=
  (events.reverse.findSome? (·.issues? plugin)).getD []

/-- One more event changes the issues of the plugins that it is about. -/
theorem issuesAfter_concat (events : List Event) (e : Event) (plugin : String) :
  issuesAfter (events ++ [e]) plugin = (e.issues? plugin).getD (issuesAfter events plugin)
  := by
  rw [issuesAfter, List.reverse_concat, List.findSome?_cons, issuesAfter]
  cases e.issues? plugin <;> rfl

end Event

/-- A pass over distinct plugins leaves every plugin with the issues that the event of this pass
does. -/
theorem Loader.issuesOf_pass (l : Loader) (a : Assembly) {names : List String} (h : names.Nodup)
    (plugin : String) :
  (l.loadEach a names).2.log.issuesOf plugin
    = ((Event.pass (l.loadEach a names).1).issues? plugin).getD (a.log.issuesOf plugin)
  := by
  rw [Event.issues?, Report.get?]
  cases hget : (l.loadEach a names).1.find? (·.name == plugin) with
  | some v =>
    obtain rfl : v.name = plugin := by
      simpa using List.find?_some hget
    apply l.issuesOf_loadEach _ h v (List.mem_of_find?_eq_some hget)
  | none =>
    apply l.issuesOf_loadEach_of_not_mem
    intro hplugin
    rw [← l.names_verdicts a names] at hplugin
    obtain ⟨v, hv, rfl⟩ := List.mem_map.1 hplugin
    apply List.find?_eq_none.1 hget v hv
    simp

end PluginHost

import PluginHost.Finding

/-!
# Inspections

A plugin is inspected in stages.  Each stage notes its findings, and all of them are carried
out whatever the ones before have found, so that every problem is reported.  The decision comes
last: a plugin with an issue that is an error is rejected, any other is accepted.
-/

namespace PluginHost

/-- The stages that the inspection of a plugin goes through. -/
inductive Stage where
  | loading
  | structural
  | version
  | profile
  | framework
  | done
  deriving DecidableEq, Repr

/-- Whether a plugin is loaded. -/
inductive Status where
  | accepted
  | rejected
  deriving DecidableEq, Repr

/-- The text that shows whether a plugin is loaded. -/
def Status.label : Status → String
  | accepted => "accepted"
  | rejected => "rejected"

/-- The inspection of one plugin: the stage it is in, and the issues of all plugins so far. -/
structure Inspection where
  plugin : String
  stage : Stage
  log : IssueLog

namespace Inspection

/-- The inspection of a plugin before its first stage. -/
def start (plugin : String) (log : IssueLog) : Inspection := ⟨plugin, .loading, log⟩

/-- The inspection moved to a stage. -/
def enter (i : Inspection) (stage : Stage) : Inspection := { i with stage }

/-- The inspection with more findings about its plugin. -/
def note (i : Inspection) (found : List Finding) : Inspection :=
  { i with log := i.log.recordFindings i.plugin found }

theorem note_append (i : Inspection) (found more : List Finding) :
  (i.note found).note more = i.note (found ++ more)
  := by
  rw [note, note, note, IssueLog.recordFindings_append]

/-- An inspection stays as it is exactly if nothing is noted. -/
theorem note_eq_self_iff {i : Inspection} {found : List Finding} :
  i.note found = i ↔ found = []
  := by
  constructor
  · intro h
    have hissues := congrArg (fun j => j.log.issuesOf i.plugin) h
    simp only [note, IssueLog.issuesOf_recordFindings_self] at hissues
    apply List.map_eq_nil_iff.1 (List.append_right_eq_self.1 hissues)
  · rintro rfl
    rfl

/-- Whether the plugin has an issue that keeps it out. -/
def hasErrors (i : Inspection) : Bool := i.log.has i.plugin .error

/-- The decision about the plugin: it is rejected exactly when it has an error. -/
def status (i : Inspection) : Status := if i.hasErrors then .rejected else .accepted

end Inspection

end PluginHost

import PluginHost.ByName

/-!
# Issues

An issue is a diagnostic about one plugin.  An error keeps the plugin out of the command tree,
a warning does not.  An `IssueLog` keeps the issues of every plugin in the order in which they
were recorded, and forgets those of a plugin as a whole.
-/

namespace PluginHost

/-- The two kinds of diagnostics. -/
inductive Severity where
  | error
  | warning
  deriving DecidableEq, Repr

/-- The name of a kind in output. -/
def Severity.label : Severity → String
  | error => "ERROR"
  | warning => "WARNING"

/-- A diagnostic about a plugin. -/
structure Issue where
  plugin : String
  severity : Severity
  message : String
  deriving DecidableEq, Repr

/-- The line that shows an issue. -/
def Issue.line (i : Issue) : String := "*** " ++ i.severity.label ++ ": " ++ i.message

/-- The number of issues of a kind in a list. -/
def Issue.countOf (severity : Severity) (issues : List Issue) : Nat :=
  issues.countP fun i => i.severity == severity

/-- The issues of every plugin. -/
abbrev IssueLog := ByName (List Issue)

namespace IssueLog

/-- The issues of a plugin, in the order in which they were recorded. -/
def issuesOf (log : IssueLog) (plugin : String) : List Issue := (log.get? plugin).getD []

/-- The log with one more issue of a plugin. -/
def record (log : IssueLog) (plugin : String) (severity : Severity) (message : String) :
    IssueLog :=
  log.insert plugin (log.issuesOf plugin ++ [⟨plugin, severity, message⟩])

/-- The log with more issues of a plugin, in order. -/
def recordAll (log : IssueLog) (plugin : String) (found : List (Severity × String)) :
    IssueLog :=
  found.foldl (fun log f => log.record plugin f.1 f.2) log

/-- The log without the issues of a plugin. -/
def clear (log : IssueLog) (plugin : String) : IssueLog := log.erase plugin

/-- The number of issues of a kind that a plugin has. -/
def count (log : IssueLog) (plugin : String) (severity : Severity) : Nat :=
  Issue.countOf severity (log.issuesOf plugin)

/-- Whether a plugin has an issue of a kind. -/
def has (log : IssueLog) (plugin : String) (severity : Severity) : Bool :=
  0 < log.count plugin severity

/-- Whether no plugin has an issue. -/
def isClean (log : IssueLog) : Bool := log.values.all (·.isEmpty)

/-! ### The issues of a plugin -/

section

variable (log : IssueLog) {plugin other : String}

@[simp]
theorem issuesOf_clear_self :
  (log.clear plugin).issuesOf plugin = []
  := by
  simp [issuesOf, clear]

theorem issuesOf_clear_of_ne (h : plugin ≠ other) :
  (log.clear plugin).issuesOf other = log.issuesOf other
  := by
  rw [issuesOf, clear, ByName.get?_erase_of_ne log h, issuesOf]

theorem issuesOf_record_self (severity : Severity) (message : String) :
  (log.record plugin severity message).issuesOf plugin
    = log.issuesOf plugin ++ [⟨plugin, severity, message⟩]
  := by
  simp [issuesOf, record]

theorem issuesOf_record_of_ne (severity : Severity) (message : String) (h : plugin ≠ other) :
  (log.record plugin severity message).issuesOf other = log.issuesOf other
  := by
  rw [issuesOf, record, ByName.get?_insert_of_ne log _ h, issuesOf]

/-- Issues are recorded behind those that the plugin has. -/
theorem issuesOf_recordAll_self (found : List (Severity × String)) :
  (log.recordAll plugin found).issuesOf plugin
    = log.issuesOf plugin ++ found.map fun f => ⟨plugin, f.1, f.2⟩
  := by
  induction found generalizing log with
  | nil => simp [recordAll]
  | cons f rest ih =>
    rw [recordAll, List.foldl_cons, ← recordAll, ih, issuesOf_record_self]
    simp

/-- Issues of a plugin are none of another. -/
theorem issuesOf_recordAll_of_ne (found : List (Severity × String)) (h : plugin ≠ other) :
  (log.recordAll plugin found).issuesOf other = log.issuesOf other
  := by
  induction found generalizing log with
  | nil => rfl
  | cons f rest ih =>
    rw [recordAll, List.foldl_cons, ← recordAll, ih, issuesOf_record_of_ne log _ _ h]

theorem recordAll_append (found more : List (Severity × String)) :
  (log.recordAll plugin found).recordAll plugin more = log.recordAll plugin (found ++ more)
  := by
  rw [recordAll, recordAll, recordAll, List.foldl_append]

end

end IssueLog

end PluginHost

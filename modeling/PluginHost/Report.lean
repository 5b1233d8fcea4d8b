import PluginHost.Inspection
import PluginHost.Inventory

/-!
# Reports

A verdict is the decision about one plugin together with its issues, and a report is a list of
verdicts.  A report counts the issues of either kind and succeeds unless it has some of a kind
that it must not have.  `Report.print` and `Record.printList` are the texts that the program
shows for a report and for the installed plugins.
-/

namespace PluginHost

/-- The decision about a plugin, and its issues. -/
structure Verdict where
  name : String
  status : Status
  issues : List Issue
  deriving DecidableEq, Repr

/-- The number of issues of a kind in a verdict. -/
def Verdict.count (v : Verdict) (severity : Severity) : Nat := Issue.countOf severity v.issues

/-- The verdicts on some plugins. -/
structure Report where
  verdicts : List Verdict
  deriving DecidableEq, Repr

namespace Report

/-- The first verdict on a plugin. -/
def get? (r : Report) (name : String) : Option Verdict := r.verdicts.find? (·.name == name)

/-- The issues of all plugins. -/
def issues (r : Report) : List Issue := r.verdicts.flatMap (·.issues)

/-- The number of issues of a kind in a report. -/
def count (r : Report) (severity : Severity) : Nat := Issue.countOf severity r.issues

/-- Whether some plugin has an error. -/
def hasErrors (r : Report) : Bool := 0 < r.count .error

/-- Whether a report has no issues of the kinds that make it fail. -/
def passes (r : Report) (failOnError failOnWarning : Bool) : Bool :=
  !((failOnError && 0 < r.count .error) || (failOnWarning && 0 < r.count .warning))

end Report

/-- The text where no plugin is installed. -/
def nonePrinted : String := "No plugins have been installed.\n"

/-- The text of a verdict. -/
def Verdict.print (v : Verdict) : String :=
  if v.issues.isEmpty then "Successfully validated plugin '" ++ v.name ++ "'.\n"
  else
    let title := "\n_____ Validation results for plugin '" ++ v.name ++ "' _____\n"
    let lines := v.issues.map fun i => i.line ++ "\n"
    let last := match v.status with
      | .accepted =>
        "This plugin has warnings but no errors. The plugin '" ++ v.name ++ "' is loaded.\n"
      | .rejected => "This plugin has errors and will not be loaded: '" ++ v.name ++ "'.\n"
    title ++ String.join lines ++ last

/-- The text of a report. -/
def Report.print (r : Report) : String :=
  if r.verdicts.isEmpty then nonePrinted else String.join (r.verdicts.map Verdict.print)

namespace Record

/-- The text of an installed plugin on one line. -/
def printShort (r : Record) : String := r.name ++ "@" ++ r.version ++ "\n"

/-- The text of an installed plugin with everything that is recorded. -/
def printLong (r : Record) : String :=
  "\n  -- pluginName: " ++ r.name ++ "\n     package: " ++ r.locator ++ "\n     version: "
    ++ r.version ++ "\n     registry: " ++ r.registry ++ "\n"

/-- The text of the installed plugins. -/
def printList (records : List Record) (short : Bool) : String :=
  if records.isEmpty then nonePrinted
  else if short then String.join (records.map printShort)
  else "Installed plugins:\n" ++ String.join (records.map printLong)

end Record

end PluginHost

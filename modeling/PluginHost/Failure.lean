import PluginHost.Files
import PluginHost.Text.Digits

/-!
# Failures

The reasons for which an operation on plugins ends without a result, and their wording.  A
failure that comes from the file system, from a text that is no JSON of the expected shape, or
from a program that does not start has a cause, which is worded on its own too.
-/

namespace PluginHost

/-- How a program ends. -/
inductive ExitStatus where
  | code (n : Nat)
  | killed
  deriving DecidableEq, Repr

namespace ExitStatus

/-- The text that shows how a program has ended. -/
def text : ExitStatus → String
  | code n => "exit status: " ++ Text.decimal n
  | killed => "signal: 9 (SIGKILL)"

/-- Whether a program has ended well. -/
def isSuccess : ExitStatus → Bool
  | code n => n == 0
  | killed => false

end ExitStatus

/-- The wording of every refusal of a text as JSON. -/
def Json.refusal : String := "<json error>"

/-- The reasons for which an operation on plugins fails. -/
inductive Failure where
  | access (path : Path) (reason : FileError)
  | unreadable (path : Path)
  | commandFailed (command : String) (status : ExitStatus) (output : String)
  | notStarted (program : String) (reason : FileError)
  | alreadyRedirecting
  | notRedirecting
  | unknownPlugin (name : String)
  | badLocator (text : String)
  | versionNotReported (package output : String)
  | incompletePackage (path : Path)
  | unreadableReport (locator : String)
  | nothingReported (locator : String)
  deriving DecidableEq, Repr

namespace Failure

/-- The wording of the cause of a failure, if it has one. -/
def cause? : Failure → Option String
  | access _ reason => some reason.message
  | unreadable _ => some Json.refusal
  | notStarted _ reason => some reason.message
  | _ => none

/-- The wording of a failure. -/
def message : Failure → String
  | access path reason => "Failed to access " ++ path.text ++ ": " ++ reason.message
  | unreadable path => "Failed to parse " ++ path.text ++ ": " ++ Json.refusal
  | commandFailed command status output =>
    "Command `" ++ command ++ "` failed (" ++ status.text ++ "):\n" ++ output
  | notStarted program reason =>
    "Failed to start package manager '" ++ program ++ "': " ++ reason.message
  | alreadyRedirecting => "Module resolution redirect is already installed"
  | notRedirecting => "Module resolution redirect is not installed"
  | unknownPlugin name => "Plugin not found: " ++ name
  | badLocator text => "Invalid package locator: " ++ text
  | versionNotReported package output =>
    "Package manager did not report an installed version for '" ++ package ++ "':\n" ++ output
  | incompletePackage path =>
    "Invalid package metadata: " ++ path.text ++ " is missing 'name' or 'version'"
  | unreadableReport locator =>
    "Invalid package metadata: " ++ locator ++ ": " ++ Json.refusal
  | nothingReported locator =>
    "Invalid package metadata: no package reported for " ++ locator

/-- The wordings of a failure and its cause, the failure first. -/
def chain (f : Failure) : List String := f.message :: f.cause?.toList

end Failure

end PluginHost

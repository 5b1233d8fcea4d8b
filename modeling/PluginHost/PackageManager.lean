import PluginHost.Attempt
import PluginHost.Json.Record
import PluginHost.Text.Blank

/-!
# Package managers

A package manager puts packages into a directory of modules and takes them out again.  It works
on a state of its own, of which the files are a part.  `Identity` is what a package calls itself,
`Identity.ofPackage` reads it from an installed package, and `reportedVersion?` finds the
version of a package in what a package manager has written.
-/

namespace PluginHost

/-- What a package calls itself. -/
structure Identity where
  name : String
  version : String
  deriving DecidableEq, Repr

namespace Identity

/-- The part of `package.json` in which a package may say what it calls itself. -/
def shape : Json.Shape (Option Identity)
  | 0, _ => none
  | n + 1, value => do
    match ← Json.fields? ["name", "version"] value with
    | [name, version] =>
      let name ← Json.optional Json.text n name
      let version ← Json.optional Json.text n version
      return do return ⟨← name, ← version⟩
    | _ => none

/-- The part of a report about a package in which it has to say what it calls itself. -/
def reportShape : Json.Shape Identity
  | 0, _ => none
  | n + 1, value => do
    match ← Json.fields? ["name", "version"] value with
    | [name, version] =>
      return {
        name := ← Json.required Json.text n name
        version := ← Json.required Json.text n version }
    | _ => none

/-- The identity of the package in a directory. -/
def ofPackage (files : Files) (directory : Path) : Except Failure Identity :=
  let path := directory.below "package.json"
  match files.read path with
  | .error reason => .error (.access path reason)
  | .ok text =>
    match Json.decode? shape text with
    | none => .error (.unreadable path)
    | some none => .error (.incompletePackage path)
    | some (some identity) => .ok identity

end Identity

/-- The version that a line of output reports for a package, if it reports one. -/
def versionInLine? (package line : List Char) : Option (List Char) :=
  ((Text.dropStart (['+', ' '] ++ package ++ ['@']) (Text.trimChars line)).map
    Text.trimChars).filter (· != [])

/-- The version that the first line to do so reports for a package. -/
def reportedVersion? (output package : String) : Option String :=
  ((Text.lines output.toList).findSome? (versionInLine? package.toList)).map String.ofList

/-- What installs packages, working on a state that has files in it.  The files that are put into
a state are those found in it. -/
structure PackageManager (σ : Type) where
  files : σ → Files
  withFiles : Files → σ → σ
  files_withFiles : ∀ fs s, files (withFiles fs s) = fs := by intros; rfl
  modules : Path
  identify : (locator : String) → Attempt σ Identity
  install : (locator registry : String) → Attempt σ String
  uninstall : (package : String) → Attempt σ Unit
  update : (package registry : String) → Attempt σ String
  defaultRegistry : Attempt σ String

end PluginHost

import PluginHost.PackageManager

/-!
# A shelf as a package manager

A shelf holds packages under their locators.  Installing one copies its files into the directory
of modules, over what was there under its name.  A shelf remembers what it was asked to do, and
can be told to keep some packages from being removed.
-/

namespace PluginHost

/-- A package on a shelf. -/
structure ShelfPackage where
  identity : Identity
  files : List (Path × Entry)
  output : Option String

/-- Packages under their locators, beside the files that they are installed into. -/
structure Shelf where
  files : Files
  packages : List (String × ShelfPackage)
  kept : List String
  registry : Option String
  calls : List (List String)

namespace Shelf

/-- The shelf with a call remembered. -/
def noteCall (s : Shelf) (call : List String) : Shelf := { s with calls := s.calls ++ [call] }

/-- The package under a locator. -/
def package? (s : Shelf) (locator : String) : Option ShelfPackage :=
  (s.packages.find? fun p => p.1 == locator).map (·.2)

/-- The shelf with a package under a locator, in the place of the one there. -/
def publish (s : Shelf) (locator : String) (package : ShelfPackage) : Shelf :=
  { s with packages := (locator, package) :: s.packages.filter fun p => p.1 != locator }

/-- The failure of a command of the package manager. -/
def refusal (arguments : List String) (output : String) : Failure :=
  .commandFailed (" ".intercalate ("npm" :: arguments)) (.code 1) output

/-- The files with those of a package in a directory of modules.  The directory of the package is
created with the first of its files. -/
def copy (modules : Path) (package : ShelfPackage) (files : Files) : Files :=
  let root := modules.below package.identity.name
  package.files.foldl (fun fs f => fs.provide (root.join f.1) f.2) (files.remove root)

/-- Puts the package of a locator into a directory of modules, and gives its output. -/
def place (modules : Path) (locator : String) : Attempt Shelf String := do
  match (← get).package? locator with
  | none => throw (refusal ["install", locator] ("404 Not Found - " ++ locator))
  | some package =>
    modify fun s => { s with files := copy modules package s.files }
    let default := "+ " ++ package.identity.name ++ "@" ++ package.identity.version
    return package.output.getD default

/-- A shelf as a package manager for a directory of modules. -/
def manager (modules : Path) : PackageManager Shelf where
  files := (·.files)
  withFiles := fun files s => { s with files }
  modules := modules
  identify := fun locator => do
    modify (·.noteCall ["resolve", locator])
    match (← get).package? locator with
    | some package => return package.identity
    | none => throw (.nothingReported locator)
  install := fun locator registry => do
    modify (·.noteCall ["install", locator, registry])
    place modules locator
  uninstall := fun name => do
    modify (·.noteCall ["uninstall", name])
    if (← get).kept.contains name then throw (refusal ["uninstall", name] "EPERM")
    modify fun s => { s with files := s.files.remove (modules.below name) }
  update := fun name registry => do
    modify (·.noteCall ["update", name, registry])
    let output ← place modules name
    match reportedVersion? output name with
    | some version => return version
    | none => throw (.versionNotReported name output)
  defaultRegistry := do
    modify (·.noteCall ["default_registry"])
    match (← get).registry with
    | some registry => return registry
    | none => throw (refusal ["config", "get", "registry"] "")

end Shelf

end PluginHost

import PluginHost.PackageManager
import PluginHost.Locator
import PluginHost.Machine

/-!
# The package manager of the machine

Packages are installed by runs of a package manager that understands the arguments of `npm`,
into a directory that belongs to the program alone.  Each run starts in that directory, which is
created first, and a run that does not end well is a failure.
-/

namespace PluginHost

/-- The package manager and the directory that it installs into. -/
structure Npm where
  program : String
  root : Path
  deriving DecidableEq, Repr

namespace Npm

/-- The directory of the installed packages. -/
def modules (n : Npm) : Path := (n.root.below "lib").below "node_modules"

/-- The arguments that install a package. -/
def installArguments (n : Npm) (locator registry : String) : List String :=
  ["install", locator, "--prefix", n.root.text, "-g", "--registry", registry,
    "--legacy-peer-deps"]

/-- The arguments that remove a package. -/
def uninstallArguments (n : Npm) (package : String) : List String :=
  ["uninstall", package, "--prefix", n.root.text, "-g"]

/-- The arguments that describe a package without installing it. -/
def packArguments (locator : String) : List String := ["pack", "--dry-run", "--json", locator]

/-- The arguments that ask for the registry in use. -/
def registryArguments : List String := ["config", "get", "registry"]

/-- The output of a run that has ended well, or the failure of one that has not.  What a
program says about its failure is its complaints, or its output if there are none. -/
def outputOf (command : String) (reply : Reply) : Except Failure String :=
  let output := Text.Utf8.ofBytesLossy reply.output
  if reply.status.isSuccess then .ok output
  else
    let complaints := Text.trim (Text.Utf8.ofBytesLossy reply.complaints)
    .error (.commandFailed command reply.status
      (if complaints = "" then Text.trim output else complaints))

/-- A run of the package manager in its directory. -/
def run (n : Npm) (arguments : List String) : Attempt Machine String := do
  (Attempt.onFiles n.root fun files => files.makeDirectories n.root).within
    (·.files) (fun files m => { m with files })
  match (← get).run n.root n.program arguments with
  | .error reason => throw (.notStarted n.program reason)
  | .ok (reply, machine) =>
    set machine
    Attempt.look fun _ => outputOf (" ".intercalate (n.program :: arguments)) reply

/-- The identity that the package manager reports for a package. -/
def queryIdentity (n : Npm) (locator : String) : Attempt Machine Identity := do
  let output ← n.run (packArguments locator)
  match Json.decode? (Json.list Identity.reportShape) (Text.trim output) with
  | none => throw (.unreadableReport locator)
  | some [] => throw (.nothingReported locator)
  | some (identity :: _) => return identity

/-- The identity of the package of a locator: that of the installed package for a name in a
registry, and what the package manager reports otherwise. -/
def identify [DomainNames] (n : Npm) (locator : String) : Attempt Machine Identity :=
  match Locator.read locator with
  | .error text => throw (.badLocator text)
  | .ok parsed =>
    match parsed.registryName? with
    | some name => Attempt.look fun m => Identity.ofPackage m.files (n.modules.below name)
    | none => n.queryIdentity locator

/-- Installs the newest version of a package and gives the version that is reported. -/
def update (n : Npm) (package registry : String) : Attempt Machine String := do
  let output ← n.run (n.installArguments package registry)
  match reportedVersion? output package with
  | some version => return version
  | none => throw (.versionNotReported package output)

/-- The program as a package manager. -/
def manager [DomainNames] (n : Npm) : PackageManager Machine where
  files := (·.files)
  withFiles := fun files m => { m with files }
  modules := n.modules
  identify := n.identify
  install := fun locator registry => n.run (n.installArguments locator registry)
  uninstall := fun package => do let _ ← n.run (n.uninstallArguments package)
  update := n.update
  defaultRegistry := return Text.trim (← n.run registryArguments)

end Npm

end PluginHost

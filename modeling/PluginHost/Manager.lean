import PluginHost.Loader
import PluginHost.Locator
import PluginHost.PackageManager
import PluginHost.Store

/-!
# The management of plugins

A `Manager` knows the host, the store of the inventory and a package manager, and a `Session`
is the state of its operations: that of the package manager, the redirect of modules, and the
issues.  Plugins are loaded into a command tree or validated against that of the host; they are
installed from locators, from a file in the form of the inventory, or again as recorded; they
are uninstalled, updated and listed.  Each operation may fail, and what it has done before it
fails stays done.
-/

namespace PluginHost

/-- What the operations on plugins work with. -/
structure Manager (σ : Type) where
  host : Host
  store : Store
  packages : PackageManager σ
  defaultRegistry : Option String

/-- The state of the operations on plugins. -/
structure Session (σ : Type) where
  world : σ
  redirect : Redirect
  log : IssueLog

/-- The result of an installation: its record, and the verdict on the plugin. -/
structure Outcome where
  record : Record
  report : Report
  deriving DecidableEq, Repr

namespace Manager

variable {σ α : Type} [DomainNames]

/-- A session before the first operation. -/
def start (m : Manager σ) (world : σ) : Session σ :=
  ⟨world, Redirect.inactive m.host.package m.host.root, ByName.empty⟩

/-- An attempt on the state of the package manager. -/
def onWorld (act : Attempt σ α) : Attempt (Session σ) α :=
  act.within (·.world) fun world s => { s with world }

/-- An attempt on the files. -/
def onFiles (m : Manager σ) (act : Attempt Files α) : Attempt (Session σ) α :=
  onWorld (act.within m.packages.files m.packages.withFiles)

/-- The files. -/
def files (m : Manager σ) (s : Session σ) : Files := m.packages.files s.world

/-- The inventory in the store. -/
def inventory (m : Manager σ) : Attempt (Session σ) Inventory := m.onFiles m.store.load

/-- Puts an inventory into the store. -/
def saveInventory (m : Manager σ) (plugins : Inventory) : Attempt (Session σ) Unit :=
  m.onFiles (m.store.save plugins)

/-! ### Loading -/

/-- A change of the redirect. -/
def onRedirect (f : Redirect → Except Failure Redirect) : Attempt (Session σ) Unit :=
  Attempt.step fun s => return { s with redirect := ← f s.redirect }

/-- Loads some plugins in order onto a tree, while modules are redirected. -/
def loadNames (m : Manager σ) (tree : CommandTree) (names : List String) :
    Attempt (Session σ) (List Verdict × CommandTree) := do
  onRedirect (·.activate m.host.sharedPackages)
  let s ← get
  let loader : Loader := ⟨m.host, m.packages.modules, m.files s, s.redirect⟩
  let (verdicts, assembly) := loader.loadEach ⟨tree, m.host.profileTypes, s.log⟩ names
  set { s with log := assembly.log }
  onRedirect (·.deactivate)
  return (verdicts, assembly.tree)

/-- The tree with the groups of all plugins that are accepted. -/
def extend (m : Manager σ) (tree : CommandTree) : Attempt (Session σ) CommandTree := do
  let plugins ← m.inventory
  return (← m.loadNames tree plugins.names).2

/-- The verdict on one plugin, or on all of them, beside the commands of the host. -/
def validate (m : Manager σ) (name : Option String) : Attempt (Session σ) Report := do
  let plugins ← m.inventory
  match name with
  | some name =>
    if plugins.contains name then return ⟨(← m.loadNames m.host.commandTree [name]).1⟩
    else throw (.unknownPlugin name)
  | none => return ⟨(← m.loadNames m.host.commandTree plugins.names).1⟩

/-! ### Installing -/

/-- The text before the path of a file URL. -/
def fileScheme : List Char := ['f', 'i', 'l', 'e', ':']

/-- Whether a path starts from the directory that the program is in. -/
def isLocal (p : Path) : Bool := !p.isAbsolute && !p.isHome

/-- A path that starts from a directory, as an absolute one. -/
def pinPath (here p : Path) : Except Failure Path :=
  if p.text = "" then .error (.access p .emptyPath) else .ok (Path.absolute here p)

/-- The locator as it is handed to the package manager, which works in a directory of its own:
paths that start from the directory of the program become absolute. -/
def pin (here : Path) (raw : String) (parsed : Locator) : Except Failure String :=
  let text := Text.trim raw
  match parsed with
  | .directory p | .archive p =>
    if isLocal p then return (← pinPath here p).text else .ok text
  | .url u =>
    if u.scheme = "file" then
      match (Text.dropStart fileScheme text.toList).map fun cs => (⟨String.ofList cs⟩ : Path) with
      | some p =>
        if isLocal p then return String.ofList fileScheme ++ (← pinPath here p).text
        else .ok text
      | none => .ok text
    else .ok text
  | .registry .. => .ok text

/-- Installs the package of a locator and records it.  A package of a registry is remembered by
its bare name, so that an update finds its newest version. -/
def installPackage (m : Manager σ) (raw registry : String) : Attempt (Session σ) Record := do
  match Locator.read raw with
  | .error text => throw (.badLocator text)
  | .ok parsed =>
    let locator ← Attempt.look fun s => pin (m.files s).here raw parsed
    let _ ← onWorld (m.packages.install locator registry)
    let identity ← onWorld (m.packages.identify locator)
    let record : Record :=
      ⟨identity.name, parsed.registryName?.getD locator, registry, identity.version⟩
    m.saveInventory ((← m.inventory).add record)
    return record

/-- Installs the package of a locator and validates the plugin. -/
def installChecked (m : Manager σ) (locator registry : String) :
    Attempt (Session σ) Outcome := do
  let record ← m.installPackage locator registry
  return ⟨record, ← m.validate (some record.name)⟩

/-- Installs packages in order, each from its registry. -/
def installEach (m : Manager σ) : List (String × String) → Attempt (Session σ) (List Outcome)
  | [] => return []
  | (locator, registry) :: rest => do
    let outcome ← m.installChecked locator registry
    return outcome :: (← m.installEach rest)

/-- The registry for an installation: the one given, or the default, or the one that the
package manager uses. -/
def chooseRegistry (m : Manager σ) (registry : Option String) : Attempt (Session σ) String :=
  match registry.or m.defaultRegistry with
  | some registry => return registry
  | none => onWorld m.packages.defaultRegistry

/-- Installs the packages of some locators. -/
def install (m : Manager σ) (locators : List String) (registry : Option String) :
    Attempt (Session σ) (List Outcome) := do
  let registry ← m.chooseRegistry registry
  m.installEach (locators.map fun locator => (locator, registry))

/-- Installs the packages that are recorded in an inventory, each from the registry given or else
from its own. -/
def installAgain (m : Manager σ) (plugins : Inventory) (registry : Option String) :
    Attempt (Session σ) (List Outcome) :=
  m.installEach (plugins.values.map fun i => (i.locator, registry.getD i.registry))

/-- Installs the packages that a file in the form of the inventory lists. -/
def installListed (m : Manager σ) (file : Path) (registry : Option String) :
    Attempt (Session σ) (List Outcome) := do
  m.installAgain (← Attempt.look fun s => (⟨file⟩ : Store).read (m.files s)) registry

/-- Installs all recorded packages again. -/
def reinstall (m : Manager σ) (registry : Option String) :
    Attempt (Session σ) (List Outcome) := do
  m.installAgain (← m.inventory) registry

/-! ### Changing and listing -/

/-- Removes a plugin and gives the record that it had. -/
def uninstall (m : Manager σ) (name : String) : Attempt (Session σ) Record := do
  let plugins ← m.inventory
  match plugins.record? name with
  | none => throw (.unknownPlugin name)
  | some record =>
    onWorld (m.packages.uninstall name)
    m.saveInventory (plugins.erase name)
    modify fun s => { s with log := s.log.clear name }
    return record

/-- Whether a locator names a package of a registry. -/
def isRegistryLocator (locator : String) : Bool :=
  (Locator.read locator).toOption.any fun l => l.registryName?.isSome

/-- Brings the package of a plugin up to date and gives its version.  A package of a registry
is updated by the name of the plugin, any other is installed again. -/
def refresh (m : Manager σ) (record : Record) (registry : String) : Attempt (Session σ) String :=
  if isRegistryLocator record.locator then onWorld (m.packages.update record.name registry)
  else do
    let _ ← onWorld (m.packages.install record.locator registry)
    return (← onWorld (m.packages.identify record.locator)).version

/-- Updates a plugin from a registry, by default the one that it came from, and gives its new
version. -/
def update (m : Manager σ) (name : String) (registry : Option String) :
    Attempt (Session σ) String := do
  let plugins ← m.inventory
  match plugins.record? name with
  | none => throw (.unknownPlugin name)
  | some record =>
    let registry := registry.getD record.registry
    let version ← m.refresh record registry
    m.saveInventory (plugins.adjust name fun i => { i with version, registry })
    return version

/-- The records of all plugins, in the order in which they are loaded. -/
def list (m : Manager σ) : Attempt (Session σ) (List Record) := do
  return (← m.inventory).records

end Manager

end PluginHost

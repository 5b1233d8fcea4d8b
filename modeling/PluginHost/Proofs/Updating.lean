import PluginHost.Proofs.Installing
import PluginHost.Proofs.LocatorText

/-!
# What is asked to update a plugin

To update a plugin whose locator is the name of a package of a registry, the package manager is asked
to update the package that has the name of the plugin; to install it again it is asked for the
package that the locator names.  So the two are about one package only if the plugin is named as the
package is (`Manager.updating_asks_for_the_plugin`), and `Manager.updating_misses_the_package` is a
plugin that is not.
-/

namespace PluginHost

namespace PackageManager.Request

/-- The package of a registry that is to be installed, if a request is to install or to update
one. -/
def package? [DomainNames] : Request → Option String
  | .install locator _ => (Locator.read locator).toOption.bind (·.registryName?)
  | .update package _ => some package
  | _ => none

end PackageManager.Request

namespace Manager

open PackageManager (Request)

variable {σ : Type} {m : Manager σ} {s u : Session σ} {plugins : Inventory} {record : Record}
  {package : String} {version : Option String}

/-- Of a plugin with the name of a package of a registry as its locator, nothing is asked but to
update the package with the name of the plugin. -/
theorem asked_update [DomainNames] (hload : m.inventory.outcome s = (.ok plugins, u))
    (hrecord : record ∈ plugins.records)
    (hread : Locator.read record.locator = .ok (.registry package version))
    (registry : Option String) :
  asked (m.noting.update record.name registry) s
    = [.update record.name (registry.getD record.registry)]
  := by
  have hname : plugins.record? record.name = some record :=
    Inventory.record?_eq_some_iff.2 ⟨hrecord, rfl⟩
  have hregistry : isRegistryLocator record.locator = true := by
    rw [isRegistryLocator, hread]
    rfl
  let chosen := registry.getD record.registry
  let change (version : String) : Inventory :=
    plugins.adjust record.name fun i => { i with version, registry := chosen }
  have hsave : ∀ version, Asks (fun _ => False)
      (m.saveInventory (change version) >>= fun _ => return version)
      (m.noting.saveInventory (change version) >>= fun _ => return version) := by
    intro version
    apply asks_bind (m.asks_onFiles _)
    intro saved
    apply asks_pure
  obtain ⟨more, hmore, hnone⟩ := notes_bind
    (asks_note (Q := fun _ => True) (q := .update record.name chosen) trivial
      (m.packages.update record.name chosen)) hsave u []
  have hrefresh : m.noting.refresh record chosen
      = onWorld (PackageManager.note (.update record.name chosen)
        (m.packages.update record.name chosen)) := by
    rw [refresh, if_pos hregistry]
    rfl
  rw [List.eq_nil_iff_forall_not_mem.2 hnone, List.append_nil] at hmore
  rw [update, asked_inventory_bind hload]
  simp only [hname]
  rw [asked, hrefresh]
  apply hmore

/-- When a record is installed again after those before it, the first thing that is asked for it is to
install the package that its locator names. -/
theorem asked_reinstall [DomainNames] {before after : List Record}
    (hload : m.inventory.outcome s = (.ok plugins, u))
    (hrecords : plugins.records = before ++ record :: after)
    (hread : Locator.read record.locator = .ok (.registry package version))
    (registry : Option String) {outcomes : List Outcome} {v : Session σ} {notes : List Request}
    (hbefore : (m.noting.installEach
      (before.map fun r => (r.locator, registry.getD r.registry))).outcome (u.withNotes [])
      = (.ok outcomes, v.withNotes notes)) :
  ∃ more, asked (m.noting.reinstall registry) s
    = notes ++ .install (Text.trim record.locator) (registry.getD record.registry) :: more
  := by
  have hpackages : (plugins.values.map fun i => (i.locator, registry.getD i.registry))
      = before.map (fun r => (r.locator, registry.getD r.registry))
        ++ (record.locator, registry.getD record.registry)
          :: after.map fun r => (r.locator, registry.getD r.registry) := by
    rw [← map_records, hrecords, List.map_append, List.map_cons]
  have hpin : pin (m.files v).here record.locator (.registry package version)
      = .ok (Text.trim record.locator) := rfl
  obtain ⟨more, hmore⟩ := notes_installEach_cons (m := m) hread hpin
    (after.map fun r => (r.locator, registry.getD r.registry)) notes
  use more
  rw [reinstall, asked_inventory_bind hload, asked, installAgain, hpackages,
    outcome_installEach_append hbefore]
  apply hmore

/-- For a plugin whose locator is the name of a package of a registry, an update and a new
installation ask for packages as follows.  To update it, the package manager is asked to update the
package with the name of the plugin and nothing else.  When all plugins are installed again, and
those before it have been, the first thing that is asked is to install the package that the locator
names.  So an update asks for the package that the locator names if and only if the plugin has the
name of the package. -/
theorem updating_asks_for_the_plugin [DomainNames] (m : Manager σ) {s u : Session σ}
    {plugins : Inventory}
    (hload : m.inventory.outcome s = (.ok plugins, u)) {before after : List Record}
    {record : Record} (hrecords : plugins.records = before ++ record :: after) {package : String}
    {version : Option String}
    (hread : Locator.read record.locator = .ok (.registry package version))
    (registry : Option String) :
  asked (m.noting.update record.name registry) s
      = [.update record.name (registry.getD record.registry)]
    ∧ (∀ outcomes (v : Session σ) notes, (m.noting.installEach
        (before.map fun r => (r.locator, registry.getD r.registry))).outcome (u.withNotes [])
          = (.ok outcomes, v.withNotes notes) →
      ∃ handed more, asked (m.noting.reinstall registry) s
          = notes ++ .install handed (registry.getD record.registry) :: more
        ∧ (Request.install handed (registry.getD record.registry)).package? = some package)
    ∧ ((asked (m.noting.update record.name registry) s).filterMap Request.package? = [package]
      ↔ record.name = package)
  := by
  have hrecord : record ∈ plugins.records := by
    rw [hrecords]
    apply List.mem_append_right _ List.mem_cons_self
  have hupdate := asked_update hload hrecord hread registry
  use hupdate
  constructor
  · intro outcomes v notes hbefore
    obtain ⟨more, hmore⟩ := asked_reinstall hload hrecords hread registry hbefore
    use Text.trim record.locator, more, hmore
    rw [Request.package?, Locator.read_trim hread]
    rfl
  · rw [hupdate]
    simp [Request.package?]

attribute [local instance] Url.codedNames

/-- The first sample plugin has the name of its package, and an update asks for that. -/
theorem updating_asks_for_the_plugin_of_sample :
  (asked (sample.noting.update "data" none) sampleStart).filterMap Request.package? = ["data"]
    ∧ ∃ handed more, asked (sample.noting.reinstall none) sampleStart
        = .install handed "-" :: more
      ∧ (Request.install handed "-").package? = some "data"
  := by
  obtain ⟨u, hload, -⟩ := inventory_of_load (Store.load_of_read read_sample)
  have hrecords : Inventory.sample.records = [] ++ ⟨"data", "data", "-", "1"⟩
      :: ["extra", "log"].map fun plugin => ⟨plugin, plugin, "-", "1"⟩ := by
    decide +kernel
  have hread : Locator.read "data" = .ok (.registry "data" none) := by decide +kernel
  obtain ⟨-, hreinstall, hupdate⟩ :=
    updating_asks_for_the_plugin sample hload hrecords hread none
  use hupdate.2 rfl
  apply hreinstall [] u [] rfl

/-- A shelf with an inventory in which a plugin does not have the name of its package. -/
def scopedShelf : Shelf where
  files := ⟨[(["plugins"], .file (.text
    "\x7b\"db\":\x7b\"package\":\"@acme/db\",\"registry\":\"r\",\"version\":\"1.0.0\"\x7d\x7d"))],
    ⟨"/"⟩, false⟩
  packages := []
  kept := []
  registry := none
  calls := []

/-- To update a plugin with another name than its package, another package is asked for than to
install it again. -/
theorem updating_misses_the_package :
  (sample.inventory.outcome (sample.start scopedShelf)).1
      = .ok (ByName.empty.insert "db" ⟨"@acme/db", "r", "1.0.0"⟩)
    ∧ Locator.read "@acme/db" = .ok (.registry "@acme/db" none)
    ∧ (asked (sample.noting.update "db" none) (sample.start scopedShelf)).filterMap
      Request.package? = ["db"]
    ∧ (asked (sample.noting.reinstall none) (sample.start scopedShelf)).filterMap
      Request.package? = ["@acme/db"]
  := by
  constructor
  · decide +kernel
  constructor
  · decide +kernel
  constructor
  · decide +kernel
  · decide +kernel

end Manager

end PluginHost

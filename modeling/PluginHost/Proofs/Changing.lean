import PluginHost.Proofs.Installing

/-!
# What changing a plugin leaves

To update or to uninstall a plugin, the package manager is asked first, and the inventory is saved
with the record of the plugin changed then.  `Manager.changing` is what both have in common:
whatever fails on the way, the saving itself included, leaves what the store holds, and if nothing
fails then no other record has changed (`Manager.changing_is_all_or_nothing`).  Of a plugin that is
not in the inventory the package manager is asked nothing.
-/

namespace PluginHost

/-- Whether an inventory changes in one record only: the plugin has a record before, and it has
another one after, or none. -/
structure Inventory.Changes (name : String) (old : Record) (new : Option Record)
    (before after : Inventory) : Prop where
  old : before.record? name = some old
  new : after.record? name = new
  others : ∀ other, other ≠ name → after.record? other = before.record? other

namespace Inventory

variable {plugins : Inventory} {name : String} {record : Record}

theorem changes_erase (h : plugins.record? name = some record) :
  Changes name record none plugins (plugins.erase name)
  := by
  constructor
  · apply h
  · rw [record?_erase, if_pos rfl]
  · intro other hother
    rw [record?_erase, if_neg hother.symm]

/-- Where the version and the registry of a plugin are changed, it keeps its locator. -/
theorem changes_adjust (h : plugins.record? name = some record) (version registry : String) :
  Changes name record (some { record with version, registry }) plugins
    (plugins.adjust name fun i => { i with version, registry })
  := by
  obtain ⟨i, hi, rfl⟩ := Option.map_eq_some_iff.1 h
  constructor
  · apply h
  · rw [record?_adjust, if_pos rfl, hi]
    rfl
  · intro other hother
    rw [record?_adjust, if_neg hother.symm]

end Inventory

namespace Manager

variable {σ α β : Type} {m : Manager σ} {w : σ} {x : Except Content Inventory}
  {s t u : Session σ} {name : String}

/-! ### Changing a record -/

/-- Does something about the record of a plugin, then puts the inventory into the store as it is
changed, and then does the rest. -/
def changing (m : Manager σ) (name : String) (act : Record → Attempt (Session σ) α)
    (change : Inventory → Record → α → Inventory)
    (rest : Record → α → Attempt (Session σ) β) : Attempt (Session σ) β := do
  let plugins ← m.inventory
  match plugins.record? name with
  | none => throw (.unknownPlugin name)
  | some record =>
    let a ← act record
    m.saveInventory (change plugins record a)
    rest record a

theorem uninstall_eq_changing (m : Manager σ) (name : String) :
  m.uninstall name
    = m.changing name (fun _ => onWorld (m.packages.uninstall name))
      (fun plugins _ _ => plugins.erase name)
      fun record _ => do
        modify fun s => { s with log := s.log.clear name }
        return record
  := rfl

theorem update_eq_changing [DomainNames] (m : Manager σ) (name : String)
    (registry : Option String) :
  m.update name registry
    = m.changing name (fun record => m.refresh record (registry.getD record.registry))
      (fun plugins record version =>
        plugins.adjust name fun i => { i with version, registry := registry.getD record.registry })
      fun _ version => return version
  := rfl

variable {act : Record → Attempt (Session σ) α} {change : Inventory → Record → α → Inventory}
  {rest : Record → α → Attempt (Session σ) β}

/-- A change that fails leaves what the store holds, if all that is asked on the way does and the
rest cannot fail.  A change that succeeds has the inventory saved as it is changed. -/
theorem cases_of_changing (result : Record → α → β)
    (hact : ∀ record, (act record).Keeps (m.Holding w x))
    (hrest : ∀ record a y v, m.Holding w y v →
      ∃ v', (rest record a).outcome v = (.ok (result record a), v') ∧ m.Holding w y v')
    (hs : m.Holding w x s) {answer : Except Failure β}
    (h : (m.changing name act change rest).outcome s = (answer, t)) :
  (∃ e, answer = .error e ∧ m.Holding w x t)
    ∨ ∃ plugins record a, x = .ok plugins ∧ plugins.record? name = some record
      ∧ answer = .ok (result record a) ∧ m.Holding w (.ok (change plugins record a)) t
  := by
  obtain ⟨e, rfl, hload⟩ | ⟨plugins, u, hload, h⟩ := Attempt.cases_of_bind h
  · left
    use e, rfl
    apply (holding_of_inventory hs hload).1
  obtain ⟨hu, hplugins⟩ := holding_of_inventory hs hload
  cases hrecord : plugins.record? name with
  | none =>
    simp only [hrecord] at h
    cases h
    left
    use .unknownPlugin name, rfl
  | some record =>
    simp only [hrecord] at h
    obtain ⟨e, rfl, hask⟩ | ⟨a, v, hask, h⟩ := Attempt.cases_of_bind h
    · left
      use e, rfl
      apply Attempt.holds_of_keeps (hact record) hu hask
    have hv := Attempt.holds_of_keeps (hact record) hu hask
    obtain ⟨e, rfl, hsave⟩ | ⟨⟨⟩, v', hsave, h⟩ := Attempt.cases_of_bind h
    · left
      use e, rfl
      apply holding_of_save_error hv hsave
    · right
      obtain ⟨t', hend, ht⟩ := hrest record a _ v' (holding_of_save_ok hv hsave).1
      rw [hend] at h
      cases h
      use plugins, record, a, hplugins plugins rfl, hrecord, rfl

/-- Whether an attempt fails, and the one with notes asks the package manager nothing. -/
def FailsUnasked (act : Attempt (Session σ) α)
    (noting : Attempt (Session (σ × List PackageManager.Request)) α) (s : Session σ)
    (e : Failure) : Prop :=
  (act.outcome s).1 = .error e ∧ asked noting s = []

/-- Without an inventory there is nothing to change. -/
theorem changing_of_no_inventory {e : Failure} (hload : m.inventory.outcome s = (.error e, u))
    (act' : Record → Attempt (Session (σ × List PackageManager.Request)) α)
    (rest' : Record → α → Attempt (Session (σ × List PackageManager.Request)) β) :
  FailsUnasked (m.changing name act change rest) (m.noting.changing name act' change rest') s e
  := by
  constructor
  · rw [changing, Attempt.outcome_bind, hload]
  · apply asked_inventory_bind_of_error hload

/-- What is not in the inventory cannot be changed. -/
theorem changing_of_unknown {plugins : Inventory}
    (hload : m.inventory.outcome s = (.ok plugins, u)) (hname : plugins.record? name = none)
    (act' : Record → Attempt (Session (σ × List PackageManager.Request)) α)
    (rest' : Record → α → Attempt (Session (σ × List PackageManager.Request)) β) :
  FailsUnasked (m.changing name act change rest) (m.noting.changing name act' change rest') s
    (.unknownPlugin name)
  := by
  constructor
  · rw [changing, Attempt.outcome_bind, hload]
    simp only [hname]
    rfl
  · rw [changing, asked_inventory_bind hload]
    simp only [hname]
    rfl

/-! ### Uninstalling and updating -/

theorem keeps_askUninstall (h : m.Spares w) (name : String) :
  (onWorld (m.packages.uninstall name)).Keeps (m.Holding w x)
  := by
  intro s hs
  apply holding_after h hs (.uninstall name)

theorem keeps_askUpdate (h : m.Spares w) (name registry : String) :
  (onWorld (m.packages.update name registry)).Keeps (m.Holding w x)
  := by
  intro s hs
  apply holding_after h hs (.update name registry)

/-- Bringing a package up to date leaves what the store holds, whichever way it is done. -/
theorem keeps_refresh [DomainNames] (h : m.Spares w) (record : Record) (registry : String) :
  (m.refresh record registry).Keeps (m.Holding w x)
  := by
  rw [refresh]
  split
  · apply keeps_askUpdate h
  · apply Attempt.keeps_bind (keeps_askInstall h _ _)
    intro output
    apply Attempt.keeps_bind (keeps_askIdentify h _)
    intro identity
    apply Attempt.keeps_pure

theorem cases_of_uninstall (hspares : m.Spares w) (hs : m.Holding w x s)
    {answer : Except Failure Record} (h : (m.uninstall name).outcome s = (answer, t)) :
  (∃ e, answer = .error e ∧ m.Holding w x t)
    ∨ ∃ plugins record, x = .ok plugins ∧ plugins.record? name = some record
      ∧ answer = .ok record ∧ m.Holding w (.ok (plugins.erase name)) t
  := by
  rw [uninstall_eq_changing] at h
  have hcases := cases_of_changing (fun record _ => record)
    (fun _ => keeps_askUninstall hspares name) ?_ hs h
  · obtain hfailed | ⟨plugins, record, ⟨⟩, hplugins, hrecord, hanswer, ht⟩ := hcases
    · left
      apply hfailed
    · right
      exact ⟨plugins, record, hplugins, hrecord, hanswer, ht⟩
  · intro record a y v hv
    exact ⟨{ v with log := v.log.clear name }, rfl, hv.idle, hv.becomes, hv.held⟩

theorem cases_of_update [DomainNames] (hspares : m.Spares w) (hs : m.Holding w x s)
    {registry : Option String}
    {answer : Except Failure String} (h : (m.update name registry).outcome s = (answer, t)) :
  (∃ e, answer = .error e ∧ m.Holding w x t)
    ∨ ∃ plugins record version, x = .ok plugins ∧ plugins.record? name = some record
      ∧ answer = .ok version
      ∧ m.Holding w (.ok (plugins.adjust name fun i =>
        { i with version, registry := registry.getD record.registry })) t
  := by
  rw [update_eq_changing] at h
  apply cases_of_changing (fun _ version => version) _ _ hs h
  · intro record
    apply keeps_refresh hspares
  · intro record version y v hv
    exact ⟨v, rfl, hv⟩

/-- Uninstalling and updating change the record of the plugin as they should, or they fail and what
the store holds is as before, whatever the package manager replies, if that leaves what the store
holds.  A plugin that is uninstalled had the record that is given, and has none; one that is
updated has the version that is given and the registry that it is updated from, and keeps the rest
of its record; the records of all other plugins stay.  Without an inventory, and for a plugin that
is not in it, both fail without asking the package manager anything; and the inventory is what the
file says, if there is one. -/
theorem changing_is_all_or_nothing [DomainNames] (m : Manager σ) {s : Session σ}
    (hs : m.Reachable s) (hspares : m.Spares s.world) (name : String) (registry : Option String) :
  (∀ e t, (m.uninstall name).outcome s = (.error e, t) → m.held t = m.held s)
    ∧ (∀ record t, (m.uninstall name).outcome s = (.ok record, t) →
      ∃ before after, m.held s = .ok before ∧ m.held t = .ok after
        ∧ Inventory.Changes name record none before after)
    ∧ (∀ e t, (m.update name registry).outcome s = (.error e, t) → m.held t = m.held s)
    ∧ (∀ version t, (m.update name registry).outcome s = (.ok version, t) →
      ∃ before after record, m.held s = .ok before ∧ m.held t = .ok after
        ∧ Inventory.Changes name record
          (some { record with version, registry := registry.getD record.registry }) before after)
    ∧ (∀ e u, m.inventory.outcome s = (.error e, u) →
      FailsUnasked (m.uninstall name) (m.noting.uninstall name) s e
        ∧ FailsUnasked (m.update name registry) (m.noting.update name registry) s e)
    ∧ (∀ plugins u, m.inventory.outcome s = (.ok plugins, u) → plugins.record? name = none →
      FailsUnasked (m.uninstall name) (m.noting.uninstall name) s (.unknownPlugin name)
        ∧ FailsUnasked (m.update name registry) (m.noting.update name registry) s
          (.unknownPlugin name))
    ∧ ∀ plugins, m.store.read (m.files s) = .ok plugins →
      ∃ u, m.inventory.outcome s = (.ok plugins, u)
  := by
  have hholding : m.Holding s.world (m.held s) s := ⟨idle_of_reachable hs, .start, rfl⟩
  constructor
  · intro e t h
    obtain ⟨e, -, ht⟩ | ⟨plugins, record, -, -, ⟨⟩, -⟩ := cases_of_uninstall hspares hholding h
    apply ht.held
  constructor
  · intro record t h
    obtain ⟨e, ⟨⟩, -⟩ | ⟨plugins, record, hplugins, hrecord, ⟨⟩, ht⟩ :=
      cases_of_uninstall hspares hholding h
    exact ⟨plugins, _, hplugins, ht.held, Inventory.changes_erase hrecord⟩
  constructor
  · intro e t h
    obtain ⟨e, -, ht⟩ | ⟨plugins, record, version, -, -, ⟨⟩, -⟩ :=
      cases_of_update hspares hholding h
    apply ht.held
  constructor
  · intro version t h
    obtain ⟨e, ⟨⟩, -⟩ | ⟨plugins, record, version, hplugins, hrecord, ⟨⟩, ht⟩ :=
      cases_of_update hspares hholding h
    exact ⟨plugins, _, record, hplugins, ht.held, Inventory.changes_adjust hrecord _ _⟩
  constructor
  · intro e u hload
    constructor
    · apply changing_of_no_inventory hload
    · apply changing_of_no_inventory hload
  constructor
  · intro plugins u hload hname
    constructor
    · apply changing_of_unknown hload hname
    · apply changing_of_unknown hload hname
  · intro plugins hread
    obtain ⟨u, hload, -⟩ := inventory_of_load (Store.load_of_read hread)
    use u, hload

attribute [local instance] Url.codedNames

/-- A plugin is updated from another registry, and one that is not there is not uninstalled.  A
program that is denied to change the files fails to save an inventory without the plugin, and the
store holds it still. -/
theorem changing_is_all_or_nothing_of_registered :
  (∃ t before after, (quietManager.update "data" (some "q")).outcome
        (quietManager.start (registeredMachine false)) = (.ok "2.0.0", t)
      ∧ quietManager.held (quietManager.start (registeredMachine false)) = .ok before
      ∧ quietManager.held t = .ok after
      ∧ Inventory.Changes "data" ⟨"data", "data", "r", "1.0.0"⟩
        (some ⟨"data", "data", "q", "2.0.0"⟩) before after)
    ∧ FailsUnasked (quietManager.uninstall "log") (quietManager.noting.uninstall "log")
      (quietManager.start (registeredMachine false)) (.unknownPlugin "log")
    ∧ ∃ t, (quietManager.uninstall "data").outcome (quietManager.start (registeredMachine true))
        = (.error (.access ⟨"/p/plugins.json"⟩ .accessDenied), t)
      ∧ asked (quietManager.noting.uninstall "data") (quietManager.start (registeredMachine true))
        = [.uninstall "data"]
      ∧ quietManager.held t = .ok (ByName.empty.insert "data" ⟨"data", "r", "1.0.0"⟩)
  := by
  have hstart : ∀ denied, quietManager.Reachable (quietManager.start (registeredMachine denied)) :=
    fun _ => .start _
  have hheld : ∀ denied, quietManager.held (quietManager.start (registeredMachine denied))
      = .ok (ByName.empty.insert "data" ⟨"data", "r", "1.0.0"⟩) := by
    decide +kernel
  constructor
  · have hanswer : ((quietManager.update "data" (some "q")).outcome
        (quietManager.start (registeredMachine false))).1.toOption.map id = some "2.0.0" := by
      decide +kernel
    obtain ⟨version, t, hrun, rfl⟩ := Attempt.exists_ok_of_map hanswer
    obtain ⟨-, -, -, hupdated, -⟩ := changing_is_all_or_nothing quietManager (hstart false)
      (spares_registeredMachine false) "data" (some "q")
    obtain ⟨before, after, record, hbefore, hafter, hchanges⟩ := hupdated _ _ hrun
    rw [hheld] at hbefore
    obtain rfl := Except.ok.inj hbefore
    obtain rfl : record = ⟨"data", "data", "r", "1.0.0"⟩ :=
      Option.some.inj (hchanges.old.symm.trans (by decide +kernel))
    exact ⟨t, _, after, hrun, hheld false, hafter, hchanges⟩
  constructor
  · have hread : quietManager.store.read (registeredMachine false).files
        = .ok (ByName.empty.insert "data" ⟨"data", "r", "1.0.0"⟩) := by
      decide +kernel
    obtain ⟨-, -, -, -, -, hunknown, hloads⟩ := changing_is_all_or_nothing quietManager
      (hstart false) (spares_registeredMachine false) "log" none
    obtain ⟨u, hload⟩ := hloads _ hread
    apply (hunknown _ u hload (by decide +kernel)).1
  · have hfailure : (quietManager.uninstall "data").failure?
        (quietManager.start (registeredMachine true))
        = some (.access ⟨"/p/plugins.json"⟩ .accessDenied) := by
      decide +kernel
    have hasked : asked (quietManager.noting.uninstall "data")
        (quietManager.start (registeredMachine true)) = [.uninstall "data"] := by
      decide +kernel
    obtain ⟨hfailed, -⟩ := changing_is_all_or_nothing quietManager (hstart true)
      (spares_registeredMachine true) "data" none
    have hrun := Attempt.outcome_of_failure? hfailure
    exact ⟨_, hrun, hasked, (hfailed _ _ hrun).trans (hheld true)⟩

end Manager

end PluginHost

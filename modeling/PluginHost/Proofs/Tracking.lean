import PluginHost.Proofs.Changing
import PluginHost.Proofs.Freshness
import PluginHost.Proofs.Recording

/-!
# Issues are never stale

A `Manager.History` is a sequence of operations together with the events that they come to: the
passes that they make, with the verdicts that the same operations give in a new session, and the
plugins that are uninstalled.  An operation `Manager.Tracks` the issues by these events, also where
it fails: loading and saving the inventory and asking the package manager leave the issues, a pass
is over plugins that are registered, and a plugin is forgotten once it has left the inventory.  So
the issues of a plugin are those of the last event about it (`Manager.issues_never_stale`).
-/

namespace PluginHost

namespace Store

variable {s : Store} {fs : Files} {plugins : Inventory}

/-- An inventory with a plugin in it is in the store if that is what the store holds. -/
theorem read_of_held (h : s.held fs = .ok plugins) {name : String} (hname : name ∈ plugins.names) :
  s.read fs = .ok plugins
  := by
  rw [held] at h
  cases hcontent : s.content? fs with
  | none =>
    rw [hcontent] at h
    cases h
    cases hname
  | some content =>
    rw [hcontent] at h
    cases content with
    | binary => cases h
    | text text =>
      have hentry := content?_eq_some_iff.1 hcontent
      cases hread : Inventory.read? text with
      | none =>
        simp only [hread] at h
        cases h
      | some plugins' =>
        simp only [hread] at h
        cases h
        rw [read, Files.read, hentry]
        change s.parse text = _
        rw [parse, hread]

end Store

namespace Manager

variable {σ α β : Type}

/-! ### The events of operations -/

/-- The pass that has come to some verdicts, if it has been made. -/
def reported : Except Failure (List Verdict) → List Event
  | .ok verdicts => [.pass verdicts]
  | .error _ => []

/-- That a plugin has been uninstalled, if it has been. -/
def forgotten (name : String) : Except Failure Record → List Event
  | .ok _ => [.uninstalled name]
  | .error _ => []

/-- The events of installing packages one after another, each in a new session: the plugin of a
package is validated once it has been installed. -/
def installations [DomainNames] (m : Manager σ) (w : σ) : List (String × String) → List Event
  | [] => []
  | (locator, registry) :: rest =>
    match (m.installChecked locator registry).outcome (m.start w) with
    | (.ok outcome, s) => .pass outcome.report.verdicts :: m.installations s.world rest
    | (.error _, _) => []

/-- The events of installing the packages that an attempt finds. -/
def installing [DomainNames] (m : Manager σ) (w : σ)
    (find : Attempt (Session σ) (List (String × String))) :
    List Event :=
  match find.outcome (m.start w) with
  | (.ok packages, s) => m.installations s.world packages
  | (.error _, _) => []

/-- The events of an operation in a world, in order: its passes, with the verdicts that it comes to
in a new session, and that it uninstalls a plugin. -/
def events [DomainNames] (m : Manager σ) (w : σ) : Operation → List Event
  | .extend tree => reported ((m.withPass tree (·.1)).outcome (m.start w)).1
  | .validate name => reported (((m.validate name).outcome (m.start w)).1.map (·.verdicts))
  | .install locators registry => m.installing w do
    let chosen ← m.chooseRegistry registry
    return locators.map fun locator => (locator, chosen)
  | .installListed file registry => m.installing w do
    let listed ← Attempt.look fun s => (⟨file⟩ : Store).read (m.files s)
    return listed.values.map fun i => (i.locator, registry.getD i.registry)
  | .reinstall registry => m.installing w do
    let plugins ← m.inventory
    return plugins.values.map fun i => (i.locator, registry.getD i.registry)
  | .uninstall name => forgotten name ((m.uninstall name).outcome (m.start w)).1
  | .update .. | .list => []

/-- The sessions that operations lead to from a new one, with the events on the way.  No one else
changes what the store holds: neither does the package manager, nor does the world outside. -/
inductive History [DomainNames] (m : Manager σ) : List Event → Session σ → Prop
  | start (world : σ) : History m [] (m.start world)
  | after {events : List Event} {s : Session σ} (h : History m events s)
    (hspares : m.Spares s.world) (o : Operation) :
    History m (events ++ m.events s.world o) (m.after s o)
  | outside {events : List Event} {s : Session σ} (h : History m events s) (world : σ)
    (hheld : m.held { s with world } = m.held s) : History m events { s with world }

/-! ### Following the events -/

/-- Whether a plugin is in what a store holds. -/
def Registered (x : Except Content Inventory) (plugin : String) : Prop :=
  ∃ plugins : Inventory, x = .ok plugins ∧ plugin ∈ plugins.names

/-- An inventory that loses no plugin keeps what is registered. -/
theorem registered_of_names {plugins others : Inventory}
    (h : ∀ plugin ∈ plugins.names, plugin ∈ others.names) (plugin : String) :
  Registered (.ok plugins) plugin → Registered (.ok others) plugin
  := by
  rintro ⟨plugins, ⟨⟩, hplugin⟩
  use others, rfl, h plugin hplugin

/-- Whether the store holds something in a session, and the issues are those that some events leave:
they are of plugins in the store. -/
structure Tracks (m : Manager σ) (w : σ) (x : Except Content Inventory) (events : List Event)
    (s : Session σ) : Prop extends m.Holding w x s where
  proper : s.log.Proper
  registered : ∀ plugin ∈ s.log.names, Registered x plugin
  issues : ∀ plugin, s.log.issuesOf plugin = Event.issuesAfter events plugin

variable {m : Manager σ} {w : σ} {x y : Except Content Inventory} {events : List Event}
  {s t : Session σ} {log : IssueLog}

/-- What leaves the issues and loses no plugin from the store goes on following the events. -/
theorem tracks_of_log (h : m.Tracks w x events s) (ht : m.Holding w y t) (hlog : t.log = s.log)
    (hxy : ∀ plugin, Registered x plugin → Registered y plugin) :
  m.Tracks w y events t
  := by
  constructor
  · apply ht
  · rw [hlog]
    apply h.proper
  · intro plugin hplugin
    rw [hlog] at hplugin
    apply hxy plugin (h.registered plugin hplugin)
  · rw [hlog]
    apply h.issues

/-- An attempt that leaves the issues and what the store holds has no events. -/
theorem keeps_tracks {act : Attempt (Session σ) α} (hact : act.Keeps (m.Holding w x))
    (hlog : ∀ log, act.Keeps fun s => s.log = log) :
  act.Keeps (m.Tracks w x events)
  := by
  intro s hs
  apply tracks_of_log hs (hact s hs.toHolding) (hlog _ s rfl)
  intro plugin hplugin
  apply hplugin

/-- A pass over registered plugins is an event. -/
theorem tracks_loadNames (h : m.Tracks w x events s) (tree : CommandTree) {names : List String}
    (hnodup : names.Nodup) (hnames : ∀ name ∈ names, Registered x name) :
  ∃ result t, (m.loadNames tree names).outcome s = (.ok result, t)
    ∧ m.Tracks w x (events ++ [.pass result.1]) t
  := by
  rw [m.outcome_loadNames h.idle]
  refine ⟨_, _, rfl, ⟨h.idle, h.becomes, h.held⟩, ?_, ?_, ?_⟩
  · apply Loader.proper_loadEach _ h.proper
  · intro plugin hplugin
    rcases Loader.mem_names_loadEach _ h.proper hplugin with hplugin | hplugin
    · apply hnames plugin hplugin
    · apply h.registered plugin hplugin
  · intro plugin
    rw [Event.issuesAfter_concat, ← h.issues]
    apply Loader.issuesOf_pass _ _ hnodup

/-! ### What leaves the issues -/

theorem keepsLog_onWorld (act : Attempt σ α) :
  (onWorld act).Keeps fun s => s.log = log
  := by
  intro s hs
  apply hs

theorem keepsLog_inventory (m : Manager σ) :
  m.inventory.Keeps fun s => s.log = log
  := keepsLog_onWorld _

theorem keepsLog_saveInventory (m : Manager σ) (plugins : Inventory) :
  (m.saveInventory plugins).Keeps fun s => s.log = log
  := keepsLog_onWorld _

theorem keepsLog_installPackage [DomainNames] (m : Manager σ) (raw registry : String) :
  (m.installPackage raw registry).Keeps fun s => s.log = log
  := by
  rw [installPackage]
  cases Locator.read raw with
  | error text => apply Attempt.keeps_throw
  | ok parsed =>
    apply Attempt.keeps_bind
    · apply Attempt.keeps_look
    intro locator
    apply Attempt.keeps_bind (keepsLog_onWorld _)
    intro output
    apply Attempt.keeps_bind (keepsLog_onWorld _)
    intro identity
    apply Attempt.keeps_bind m.keepsLog_inventory
    intro plugins
    apply Attempt.keeps_bind (m.keepsLog_saveInventory _)
    intro saved
    apply Attempt.keeps_pure

theorem keepsLog_chooseRegistry (m : Manager σ) (registry : Option String) :
  (m.chooseRegistry registry).Keeps fun s => s.log = log
  := by
  rw [chooseRegistry]
  cases registry.or m.defaultRegistry with
  | some registry => apply Attempt.keeps_pure
  | none => apply keepsLog_onWorld

theorem keepsLog_refresh [DomainNames] (m : Manager σ) (record : Record) (registry : String) :
  (m.refresh record registry).Keeps fun s => s.log = log
  := by
  rw [refresh]
  split
  · apply keepsLog_onWorld
  · apply Attempt.keeps_bind (keepsLog_onWorld _)
    intro output
    apply Attempt.keeps_bind (keepsLog_onWorld _)
    intro identity
    apply Attempt.keeps_pure

/-- A change of a record leaves the issues, up to what is done once it has been saved. -/
theorem log_changing {name : String} {act : Record → Attempt (Session σ) α}
    {change : Inventory → Record → α → Inventory} {rest : Record → α → Attempt (Session σ) β}
    (hact : ∀ record log, (act record).Keeps fun s => s.log = log) {answer : Except Failure β}
    (h : (m.changing name act change rest).outcome s = (answer, t)) :
  (∃ e, answer = .error e ∧ t.log = s.log)
    ∨ ∃ record a u, u.log = s.log ∧ (rest record a).outcome u = (answer, t)
  := by
  obtain ⟨e, rfl, hload⟩ | ⟨plugins, u, hload, h⟩ := Attempt.cases_of_bind h
  · left
    use e, rfl
    apply Attempt.holds_of_keeps m.keepsLog_inventory rfl hload
  have hu : u.log = s.log := Attempt.holds_of_keeps m.keepsLog_inventory rfl hload
  cases hrecord : plugins.record? name with
  | none =>
    simp only [hrecord] at h
    cases h
    left
    use .unknownPlugin name, rfl
  | some record =>
    simp only [hrecord] at h
    obtain ⟨e, rfl, hask⟩ | ⟨a, v, hask, h⟩ := Attempt.cases_of_bind h
    · left
      use e, rfl
      apply Attempt.holds_of_keeps (hact record _) hu hask
    have hv := Attempt.holds_of_keeps (hact record _) hu hask
    obtain ⟨e, rfl, hsave⟩ | ⟨⟨⟩, v', hsave, h⟩ := Attempt.cases_of_bind h
    · left
      use e, rfl
      apply Attempt.holds_of_keeps (m.keepsLog_saveInventory _) hv hsave
    · right
      use record, a, v'
      constructor
      · apply Attempt.holds_of_keeps (m.keepsLog_saveInventory _) hv hsave
      · apply h

/-! ### Operations with a pass -/

/-- Loading the inventory leaves the issues, and gives what the store holds if it succeeds. -/
theorem tracks_inventory (h : m.Tracks w x events s) {answer : Except Failure Inventory}
    (hload : m.inventory.outcome s = (answer, t)) :
  m.Tracks w x events t ∧ ∀ plugins, answer = .ok plugins → x = .ok plugins
  := by
  obtain ⟨ht, hplugins⟩ := holding_of_inventory h.toHolding hload
  constructor
  · apply tracks_of_log h ht (Attempt.holds_of_keeps m.keepsLog_inventory rfl hload)
    intro plugin hplugin
    apply hplugin
  · apply hplugins

theorem stepwise_withPass (m : Manager σ) (tree : CommandTree)
    (answer : List Verdict × CommandTree → α) :
  m.Stepwise (m.withPass tree answer)
  := by
  apply Stepwise.bind m.stepwise_inventory
  intro plugins
  apply Stepwise.bind (.pass tree plugins.names)
  intro result
  apply Stepwise.pure

/-- The event of an operation with a pass is that pass, if it is made. -/
theorem tracks_withPass (h : m.Tracks w x events s) (tree : CommandTree)
    (answer : List Verdict × CommandTree → α) :
  m.Tracks w x (events ++ reported ((m.withPass tree (·.1)).outcome s).1)
    ((m.withPass tree answer).outcome s).2
  := by
  rw [withPass, withPass, Attempt.outcome_bind, Attempt.outcome_bind]
  cases hload : m.inventory.outcome s with
  | mk result u =>
    obtain ⟨hu, hplugins⟩ := tracks_inventory h hload
    cases result with
    | error e => simpa [reported] using hu
    | ok plugins =>
      obtain ⟨made, t, hpass, ht⟩ := tracks_loadNames hu tree plugins.nodup_names
        fun name hname => ⟨plugins, hplugins plugins rfl, hname⟩
      dsimp only
      rw [Attempt.outcome_bind, Attempt.outcome_bind, hpass]
      apply ht

/-- The event of a validation is its pass, if it is made. -/
theorem tracks_validate (h : m.Tracks w x events s) {name : Option String}
    {answer : Except Failure Report} (hrun : (m.validate name).outcome s = (answer, t)) :
  m.Tracks w x (events ++ reported (answer.map (·.verdicts))) t
  := by
  obtain ⟨e, rfl, hload⟩ | ⟨plugins, u, hload, hrun⟩ := Attempt.cases_of_bind hrun
  · simpa [reported, Except.map] using (tracks_inventory h hload).1
  obtain ⟨hu, hplugins⟩ := tracks_inventory h hload
  cases name with
  | none =>
    obtain ⟨made, v, hpass, hv⟩ := tracks_loadNames hu m.host.commandTree plugins.nodup_names
      fun name hname => ⟨plugins, hplugins plugins rfl, hname⟩
    simp only [Attempt.outcome_bind, hpass] at hrun
    cases hrun
    apply hv
  | some name =>
    by_cases hname : plugins.contains name = true
    · have hmem : name ∈ plugins.names := by
        rw [ByName.mem_names_iff]
        apply Option.isSome_iff_exists.1 hname
      obtain ⟨made, v, hpass, hv⟩ := tracks_loadNames hu m.host.commandTree
        (List.nodup_singleton name) fun other hother => by
          rw [List.mem_singleton.1 hother]
          exact ⟨plugins, hplugins plugins rfl, hmem⟩
      simp only [hname, if_true, Attempt.outcome_bind, hpass] at hrun
      cases hrun
      apply hv
    · simp only [hname] at hrun
      cases hrun
      simpa [reported, Except.map] using hu

/-! ### Installing -/

/-- The event of installing a package is the pass that validates its plugin, if that is installed.
-/
theorem tracks_installChecked [DomainNames] (hspares : m.Spares w) (h : m.Tracks w x events s)
    {raw registry : String} {answer : Except Failure Outcome}
    (hrun : (m.installChecked raw registry).outcome s = (answer, t)) :
  ∃ y, m.Tracks w y (events ++ reported (answer.map (·.report.verdicts))) t
  := by
  obtain ⟨e, rfl, hinstall⟩ | ⟨record, u, hinstall, hrun⟩ := Attempt.cases_of_bind hrun
  · use x
    have ht := tracks_of_log h (installPackage_error hspares h.toHolding hinstall)
      (Attempt.holds_of_keeps (m.keepsLog_installPackage _ _) rfl hinstall) fun _ => id
    simpa [reported, Except.map] using ht
  · obtain ⟨plugins, rfl, hu, hread, -⟩ := installPackage_ok hspares h.toHolding hinstall
    have hlog := Attempt.holds_of_keeps (m.keepsLog_installPackage _ _) rfl hinstall
    have htracks := tracks_of_log h hu hlog <| registered_of_names fun plugin hplugin =>
      (ByName.mem_names_insert _).2 (.inr hplugin)
    -- the plugin is in the store now, so validating it does not fail
    obtain ⟨report, v, hvalidate, -⟩ := validate_of_read hu hread (contains_add plugins record)
    rw [Attempt.outcome_bind, hvalidate] at hrun
    cases hrun
    use .ok (plugins.add record)
    apply tracks_validate htracks hvalidate

theorem stepwise_installChecked [DomainNames] (m : Manager σ) (raw registry : String) :
  m.Stepwise (m.installChecked raw registry)
  := by
  apply Stepwise.bind (m.stepwise_installPackage raw registry)
  intro record
  apply Stepwise.bind (m.stepwise_validate _)
  intro report
  apply Stepwise.pure

/-- An idle session is alike to a new one. -/
theorem alike_of_idle (h : m.Idle s) :
  m.Alike s (m.start s.world)
  := ⟨h, rfl, rfl⟩

/-- The events of installing packages are the validations of those that are installed. -/
theorem tracks_installEach [DomainNames] (hspares : m.Spares w) (h : m.Tracks w x events s)
    (packages : List (String × String)) :
  ∃ y, m.Tracks w y (events ++ m.installations s.world packages)
    ((m.installEach packages).outcome s).2
  := by
  induction packages generalizing x events s with
  | nil =>
    use x
    rw [installations, List.append_nil]
    apply h
  | cons package rest ih =>
    obtain ⟨raw, registry⟩ := package
    obtain ⟨hanswer, halike⟩ :=
      answer_congr (m.stepwise_installChecked raw registry) (alike_of_idle h.idle)
    rw [installEach, installations, Attempt.outcome_bind]
    cases hrun : (m.installChecked raw registry).outcome s with
    | mk answer u =>
      cases hfresh : (m.installChecked raw registry).outcome (m.start s.world) with
      | mk answer' u' =>
        rw [hrun, hfresh] at hanswer halike
        obtain rfl : answer = answer' := hanswer
        obtain ⟨y, hu⟩ := tracks_installChecked hspares h hrun
        cases answer with
        | error e =>
          use y
          apply hu
        | ok outcome =>
          obtain ⟨z, ht⟩ := ih hu
          have hworld : u.world = u'.world := halike.world
          rw [hworld, List.append_assoc] at ht
          use z
          dsimp only
          rw [Attempt.outcome_bind]
          cases hrest : (m.installEach rest).outcome u with
          | mk answer t =>
            rw [hrest] at ht
            cases answer <;> apply ht

theorem install_eq_bind [DomainNames] (m : Manager σ) (locators : List String)
    (registry : Option String) :
  m.install locators registry
    = (do
      let chosen ← m.chooseRegistry registry
      return locators.map fun locator => (locator, chosen)) >>= m.installEach
  := by
  simp [install]

theorem installListed_eq_bind [DomainNames] (m : Manager σ) (file : Path)
    (registry : Option String) :
  m.installListed file registry
    = (do
      let listed ← Attempt.look fun s => (⟨file⟩ : Store).read (m.files s)
      return listed.values.map fun i => (i.locator, registry.getD i.registry)) >>= m.installEach
  := by
  simp [installListed, installAgain]

theorem reinstall_eq_bind [DomainNames] (m : Manager σ) (registry : Option String) :
  m.reinstall registry
    = (do
      let plugins ← m.inventory
      return plugins.values.map fun i => (i.locator, registry.getD i.registry)) >>= m.installEach
  := by
  simp [reinstall, installAgain]

/-- Reading a file in the form of the inventory is a step. -/
theorem stepwise_readListed (m : Manager σ) (file : Path) :
  m.Stepwise (Attempt.look fun s => (⟨file⟩ : Store).read (m.files s))
  := by
  apply Stepwise.look (f := (⟨file⟩ : Store).read)
  intro fs e h
  apply admits_of_not_ofRedirect
  obtain ⟨reason, rfl⟩ | rfl := Store.eq_of_read_error h
  · rfl
  · rfl

/-- Installing the packages that an attempt finds has the events of installing these. -/
theorem tracks_installing [DomainNames] (hspares : m.Spares w) (h : m.Tracks w x events s)
    {find : Attempt (Session σ) (List (String × String))} (hfind : m.Stepwise find)
    (hkeeps : find.Keeps (m.Tracks w x events)) :
  ∃ y, m.Tracks w y (events ++ m.installing s.world find) ((find >>= m.installEach).outcome s).2
  := by
  obtain ⟨hanswer, halike⟩ := answer_congr hfind (alike_of_idle h.idle)
  rw [installing, Attempt.outcome_bind]
  cases hrun : find.outcome s with
  | mk answer u =>
    cases hfresh : find.outcome (m.start s.world) with
    | mk answer' u' =>
      rw [hrun, hfresh] at hanswer halike
      obtain rfl : answer = answer' := hanswer
      have hu := Attempt.holds_of_keeps hkeeps h hrun
      cases answer with
      | error e =>
        use x
        simpa using hu
      | ok packages =>
        have hworld : u.world = u'.world := halike.world
        dsimp only
        rw [← hworld]
        apply tracks_installEach hspares hu

/-! ### Operations -/

theorem keeps_tracks_inventory :
  m.inventory.Keeps (m.Tracks w x events)
  := by
  intro s hs
  apply (tracks_inventory hs (Prod.eta _).symm).1

/-- Changing an installation loses no plugin. -/
theorem mem_names_adjust {plugins : Inventory} {plugin : String} (name : String)
    (change : Installation → Installation) (h : plugin ∈ plugins.names) :
  plugin ∈ (plugins.adjust name change).names
  := by
  rw [Inventory.adjust]
  cases plugins.get? name with
  | none => apply h
  | some i =>
    rw [ByName.mem_names_insert]
    right
    apply h

/-- Uninstalling a plugin forgets it, if it succeeds, and leaves the issues otherwise. -/
theorem tracks_uninstall (hspares : m.Spares w) (h : m.Tracks w x events s) {name : String}
    {answer : Except Failure Record} (hrun : (m.uninstall name).outcome s = (answer, t)) :
  ∃ y, m.Tracks w y (events ++ forgotten name answer) t
  := by
  have hheld := cases_of_uninstall hspares h.toHolding hrun
  rw [uninstall_eq_changing] at hrun
  obtain ⟨e, rfl, hlog⟩ | ⟨record, ⟨⟩, u, hlog, hforget⟩ :=
    log_changing (fun _ _ => keepsLog_onWorld _) hrun
  · obtain ⟨e, -, ht⟩ | ⟨plugins, record, -, -, ⟨⟩, -⟩ := hheld
    use x
    rw [forgotten, List.append_nil]
    apply tracks_of_log h ht hlog fun _ => id
  · obtain ⟨rfl, rfl⟩ := Prod.mk.inj hforget
    obtain ⟨e, ⟨⟩, -⟩ | ⟨plugins, -, rfl, -, -, ht⟩ := hheld
    use .ok (plugins.erase name), ht
    · apply IssueLog.proper_clear
      rw [hlog]
      apply h.proper
    · intro plugin hplugin
      obtain ⟨hne, hplugin⟩ := ByName.mem_names_erase.1 hplugin
      rw [hlog] at hplugin
      obtain ⟨plugins, ⟨⟩, hplugin⟩ := h.registered plugin hplugin
      use plugins.erase name, rfl, ByName.mem_names_erase.2 ⟨hne, hplugin⟩
    · intro plugin
      rw [forgotten, Event.issuesAfter_concat, ← h.issues, Event.issues?]
      by_cases hname : name = plugin
      · subst hname
        rw [if_pos rfl]
        apply IssueLog.issuesOf_clear_self
      · rw [if_neg hname, IssueLog.issuesOf_clear_of_ne _ hname, hlog]
        rfl

/-- Updating a plugin leaves the issues. -/
theorem tracks_update [DomainNames] (hspares : m.Spares w) (h : m.Tracks w x events s)
    {name : String} {registry : Option String} {answer : Except Failure String}
    (hrun : (m.update name registry).outcome s = (answer, t)) :
  ∃ y, m.Tracks w y events t
  := by
  have hheld := cases_of_update hspares h.toHolding hrun
  have hlog : t.log = s.log := by
    rw [update_eq_changing] at hrun
    obtain ⟨e, -, hlog⟩ | ⟨record, version, u, hlog, hend⟩ :=
      log_changing (fun _ _ => m.keepsLog_refresh _ _) hrun
    · apply hlog
    · cases hend
      apply hlog
  obtain ⟨e, -, ht⟩ | ⟨plugins, record, version, rfl, -, -, ht⟩ := hheld
  · use x
    apply tracks_of_log h ht hlog fun _ => id
  · use .ok (plugins.adjust name fun i =>
      { i with version, registry := registry.getD record.registry })
    apply tracks_of_log h ht hlog (registered_of_names fun plugin => mem_names_adjust name _)

/-- Every operation follows its events, also if it fails. -/
theorem tracks_after [DomainNames] (hspares : m.Spares w) (h : m.Tracks w x events s)
    (o : Operation) :
  ∃ y, m.Tracks w y (events ++ m.events s.world o) (m.after s o)
  := by
  have halike := alike_of_idle h.idle
  cases o with
  | extend tree =>
    have hanswer := (answer_congr (m.stepwise_withPass tree (·.1)) halike).1
    use x
    rw [Manager.events, ← hanswer]
    apply tracks_withPass h
  | validate name =>
    have hanswer := (answer_congr (m.stepwise_validate name) halike).1
    use x
    rw [Manager.events, ← hanswer]
    apply tracks_validate h (Prod.eta _).symm
  | install locators registry =>
    rw [Manager.events, after, install_eq_bind]
    apply tracks_installing hspares h
    · apply Stepwise.bind (m.stepwise_chooseRegistry registry)
      intro chosen
      apply Stepwise.pure
    · apply Attempt.keeps_bind
      · apply keeps_tracks (keeps_chooseRegistry hspares registry)
        intro log
        apply m.keepsLog_chooseRegistry
      · intro chosen
        apply Attempt.keeps_pure
  | installListed file registry =>
    rw [Manager.events, after, installListed_eq_bind]
    apply tracks_installing hspares h
    · apply Stepwise.bind (m.stepwise_readListed file)
      intro listed
      apply Stepwise.pure
    · apply Attempt.keeps_bind
      · apply Attempt.keeps_look
      · intro listed
        apply Attempt.keeps_pure
  | reinstall registry =>
    rw [Manager.events, after, reinstall_eq_bind]
    apply tracks_installing hspares h
    · apply Stepwise.bind m.stepwise_inventory
      intro plugins
      apply Stepwise.pure
    · apply Attempt.keeps_bind keeps_tracks_inventory
      intro plugins
      apply Attempt.keeps_pure
  | uninstall name =>
    have hanswer := (answer_congr (m.stepwise_uninstall name) halike).1
    rw [Manager.events, ← hanswer]
    apply tracks_uninstall hspares h (Prod.eta _).symm
  | update name registry =>
    rw [Manager.events, List.append_nil]
    apply tracks_update hspares h (Prod.eta _).symm
  | list =>
    use x
    rw [Manager.events, List.append_nil]
    apply Attempt.keeps_bind keeps_tracks_inventory _ s h
    intro plugins
    apply Attempt.keeps_pure

/-! ### Histories -/

/-- After a history the issues are those that its events leave. -/
theorem tracks_of_history [DomainNames] (h : m.History events s) :
  m.Tracks s.world (m.held s) events s
  := by
  induction h with
  | start world =>
    use ⟨rfl, .start, rfl⟩
    · intro e he
      cases he
    · intro plugin hplugin
      cases hplugin
    · intro plugin
      rfl
  | after _ hspares o ih =>
    obtain ⟨y, ht⟩ := tracks_after hspares ih o
    obtain rfl := ht.held
    use ⟨ht.idle, .start, rfl⟩, ht.proper, ht.registered, ht.issues
  | outside _ world hheld ih =>
    rw [← hheld] at ih
    use ⟨ih.idle, .start, rfl⟩, ih.proper, ih.registered, ih.issues

/-- Issues are never stale, whatever operations there have been since a session was new, and
whichever of them have failed, where no one else changes what the store holds.  Every plugin that
the log lists is in the inventory in the store, and has an issue.  Every issue of a plugin has its
name.  The issues of a plugin are those that the last pass over it has come to, if it has not been
uninstalled since, and otherwise there are none: the verdicts of passes are those in the reports
of the operations, which are the same in a new session. -/
theorem issues_never_stale [DomainNames] (m : Manager σ) {events : List Event} {s : Session σ}
    (h : m.History events s) :
  (∀ plugin ∈ s.log.names, s.log.issuesOf plugin ≠ []
      ∧ ∃ plugins, m.store.read (m.files s) = .ok plugins ∧ plugin ∈ plugins.names)
    ∧ (∀ plugin, ∀ i ∈ s.log.issuesOf plugin, i.plugin = plugin)
    ∧ (∀ plugin, s.log.issuesOf plugin = Event.issuesAfter events plugin)
    ∧ ∀ name report t, (m.validate name).outcome s = (.ok report, t) →
      m.events s.world (.validate name) = [.pass report.verdicts]
  := by
  have htracks := tracks_of_history h
  constructor
  · intro plugin hplugin
    use IssueLog.issuesOf_ne_nil htracks.proper hplugin
    obtain ⟨plugins, hheld, hname⟩ := htracks.registered plugin hplugin
    use plugins, Store.read_of_held hheld hname, hname
  constructor
  · intro plugin
    apply IssueLog.plugin_of_mem_issuesOf htracks.proper
  constructor
  · apply htracks.issues
  · intro name report t hrun
    have hanswer := (answer_congr (m.stepwise_validate name) (alike_of_idle htracks.idle)).1
    rw [hrun] at hanswer
    rw [Manager.events, ← hanswer]
    rfl

attribute [local instance] Url.codedNames

/-- A session in which of two packages the first has been installed and has an issue, and the second
one could not be.  Since then the program has been denied to change the files. -/
def deniedSession : Session Machine :=
  { quietManager.after (quietManager.start quietMachine) (.install ["data@1", "none"] none) with
    world := registeredMachine true }

/-- The package manager removes a plugin with an issue, but the inventory without it cannot be
saved.  So the plugin is not uninstalled, and keeps its issue. -/
theorem issues_never_stale_of_quiet :
  ∃ events, quietManager.History events deniedSession
    ∧ quietManager.failure? deniedSession (.uninstall "data")
      = some (.access ⟨"/p/plugins.json"⟩ .accessDenied)
    ∧ (quietManager.after deniedSession (.uninstall "data")).log.names = ["data"]
    ∧ (quietManager.after deniedSession (.uninstall "data")).log.issuesOf "data" ≠ []
    ∧ (quietManager.after deniedSession (.uninstall "data")).log.issuesOf "data"
      = Event.issuesAfter events "data"
    ∧ ∃ plugins, quietManager.store.read (quietManager.files
        (quietManager.after deniedSession (.uninstall "data"))) = .ok plugins
      ∧ "data" ∈ plugins.names
  := by
  have hinstalled := History.after (.start quietMachine) spares_quietMachine
    (.install ["data@1", "none"] none)
  have hdenied := hinstalled.outside (registeredMachine true) (by decide +kernel)
  have hhistory := hdenied.after (spares_registeredMachine true) (.uninstall "data")
  have hevents : quietManager.events (registeredMachine true) (.uninstall "data") = [] := by
    decide +kernel
  rw [hevents, List.append_nil] at hhistory
  have hnames : (quietManager.after deniedSession (.uninstall "data")).log.names = ["data"] := by
    decide +kernel
  obtain ⟨hlisted, -, hissues, -⟩ := issues_never_stale quietManager hhistory
  obtain ⟨hsome, hread⟩ := hlisted "data" (hnames ▸ List.mem_singleton_self "data")
  exact ⟨_, hdenied, by decide +kernel, hnames, hsome, hissues "data", hread⟩

end Manager

end PluginHost

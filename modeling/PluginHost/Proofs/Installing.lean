import Mathlib.Data.List.Forall2
import PluginHost.Proofs.Asking
import PluginHost.Proofs.Lookup
import PluginHost.Proofs.Sparing

/-!
# What installing registers

Packages are installed one after another, and what has been done before one fails stays done.  A
package that fails to be installed, if only because its record cannot be saved, leaves what the
store holds (`Manager.installChecked_error`), and after one that has been installed the store holds
its record beside the others (`Manager.installChecked_ok`).  So the store comes to hold exactly the records of the packages
before the first that fails, and nothing is asked of the package manager about those behind it
(`Manager.installing_registers_what_succeeds`).
-/

namespace PluginHost

namespace Manager

variable {σ : Type} {m : Manager σ} {w : σ} {x : Except Content Inventory} {s t : Session σ}

/-! ### One package -/

/-- Whether a record is that of a package, given by its locator and its registry, in a world: the
locator can be read, the package manager installs what is handed to it, and the package that it
then finds there calls itself what the record says. -/
inductive RecordOf [DomainNames] (m : Manager σ) (w : σ) : String × String → Record → Prop
  | intro {raw registry handed output : String} {parsed : Locator} {w' : σ} {identity : Identity}
    (hread : Locator.read raw = .ok parsed)
    (hpin : pin (m.packages.files w).here raw parsed = .ok handed)
    (hinstall : (m.packages.install handed registry).outcome w = (.ok output, w'))
    (hidentify : ((m.packages.identify handed).outcome w').1 = .ok identity) :
    RecordOf m w (raw, registry)
      ⟨identity.name, parsed.registryName?.getD handed, registry, identity.version⟩

/-- Whether an outcome has the record of a package, in some world that a world has become. -/
def IsOutcome [DomainNames] (m : Manager σ) (w : σ) (package : String × String)
    (outcome : Outcome) : Prop :=
  ∃ w', m.Becomes w w' ∧ m.RecordOf w' package outcome.record

variable {raw registry : String} {record : Record}

/-- Having a package installed leaves what the store holds. -/
theorem keeps_obtainPackage [DomainNames] (h : m.Spares w) (raw registry : String) :
  (m.obtainPackage raw registry).Keeps (m.Holding w x)
  := by
  rw [obtainPackage]
  cases Locator.read raw with
  | error text => apply Attempt.keeps_throw
  | ok parsed =>
    apply Attempt.keeps_bind
    · apply Attempt.keeps_look
    intro handed
    apply Attempt.keeps_bind (keeps_askInstall h handed registry)
    intro output
    apply Attempt.keeps_bind (keeps_askIdentify h handed)
    intro identity
    apply Attempt.keeps_pure

/-- The record of a package that has been installed is that of the package. -/
theorem recordOf_of_obtainPackage [DomainNames]
    (h : (m.obtainPackage raw registry).outcome s = (.ok record, t)) :
  m.RecordOf s.world (raw, registry) record
  := by
  rw [obtainPackage] at h
  cases hread : Locator.read raw with
  | error text =>
    rw [hread] at h
    cases h
  | ok parsed =>
    rw [hread] at h
    obtain ⟨handed, u, hlook, h⟩ := Attempt.eq_ok_of_bind h
    obtain ⟨hpin, rfl⟩ := Prod.mk.inj hlook
    obtain ⟨output, u, hask, h⟩ := Attempt.eq_ok_of_bind h
    obtain ⟨hinstall, rfl⟩ := Prod.mk.inj hask
    obtain ⟨identity, v, hreport, h⟩ := Attempt.eq_ok_of_bind h
    have hidentify := congrArg Prod.fst hreport
    cases h
    apply RecordOf.intro hread hpin (Prod.ext hinstall rfl) hidentify

/-- A record that has been put into the store is there beside those that it held. -/
theorem register_ok (hs : m.Holding w x s) (h : (m.register record).outcome s = (.ok (), t)) :
  ∃ plugins, x = .ok plugins ∧ m.Holding w (.ok (plugins.add record)) t
    ∧ m.store.read (m.files t) = .ok (plugins.add record)
  := by
  obtain ⟨plugins, u, hload, hsave⟩ := Attempt.eq_ok_of_bind h
  obtain ⟨hu, hplugins⟩ := holding_of_inventory hs hload
  use plugins, hplugins plugins rfl
  apply holding_of_save_ok hu hsave

/-- A record that cannot be put into the store leaves what it holds. -/
theorem register_error {e : Failure} (hs : m.Holding w x s)
    (h : (m.register record).outcome s = (.error e, t)) :
  m.Holding w x t
  := by
  obtain hload | ⟨plugins, u, hload, hsave⟩ := Attempt.eq_error_of_bind h
  · apply (holding_of_inventory hs hload).1
  · apply holding_of_save_error (holding_of_inventory hs hload).1 hsave

/-- After a package has been installed, the store holds its record beside those that it held. -/
theorem installPackage_ok [DomainNames] (hspares : m.Spares w) (hs : m.Holding w x s)
    (h : (m.installPackage raw registry).outcome s = (.ok record, t)) :
  ∃ plugins, x = .ok plugins ∧ m.Holding w (.ok (plugins.add record)) t
    ∧ m.store.read (m.files t) = .ok (plugins.add record)
    ∧ ∃ w', m.Becomes w w' ∧ m.RecordOf w' (raw, registry) record
  := by
  rw [installPackage_eq] at h
  obtain ⟨record', u, hobtain, h⟩ := Attempt.eq_ok_of_bind h
  obtain ⟨⟨⟩, v, hregister, h⟩ := Attempt.eq_ok_of_bind h
  cases h
  have hu := Attempt.holds_of_keeps (keeps_obtainPackage hspares raw registry) hs hobtain
  obtain ⟨plugins, hplugins, hheld, hread⟩ := register_ok hu hregister
  use plugins, hplugins, hheld, hread, s.world, hs.becomes
  apply recordOf_of_obtainPackage hobtain

/-- A package that fails to be installed leaves what the store holds. -/
theorem installPackage_error [DomainNames] {e : Failure} (hspares : m.Spares w)
    (hs : m.Holding w x s) (h : (m.installPackage raw registry).outcome s = (.error e, t)) :
  m.Holding w x t
  := by
  rw [installPackage_eq] at h
  obtain hobtain | ⟨record, u, hobtain, h⟩ := Attempt.eq_error_of_bind h
  · apply Attempt.holds_of_keeps (keeps_obtainPackage hspares raw registry) hs hobtain
  have hu := Attempt.holds_of_keeps (keeps_obtainPackage hspares raw registry) hs hobtain
  obtain hregister | ⟨⟨⟩, v, hregister, h⟩ := Attempt.eq_error_of_bind h
  · apply register_error hu hregister
  · cases h

/-! ### One package and its validation -/

/-- A plugin of an inventory that is in the store is validated. -/
theorem validate_of_read (hs : m.Holding w x s) {plugins : Inventory}
    (hread : m.store.read (m.files s) = .ok plugins) {name : String}
    (hname : plugins.contains name = true) :
  ∃ report t, (m.validate (some name)).outcome s = (.ok report, t) ∧ m.Holding w x t
  := by
  obtain ⟨u, hload, -⟩ := inventory_of_load (Store.load_of_read hread)
  have hu := (holding_of_inventory hs hload).1
  rw [validate, Attempt.outcome_bind, hload]
  dsimp only
  rw [if_pos hname, Attempt.outcome_bind, m.outcome_loadNames hu.idle]
  exact ⟨_, _, rfl, hu.idle, hu.becomes, hu.held⟩

theorem contains_add (r : Inventory) (record : Record) :
  (r.add record).contains record.name = true
  := by
  rw [ByName.contains, Inventory.add, ByName.get?_insert_self]
  rfl

/-- After a package has been installed and its plugin validated, the store holds its record beside
those that it held. -/
theorem installChecked_ok [DomainNames] {outcome : Outcome} (hspares : m.Spares w)
    (hs : m.Holding w x s) (h : (m.installChecked raw registry).outcome s = (.ok outcome, t)) :
  ∃ plugins, x = .ok plugins ∧ m.Holding w (.ok (plugins.add outcome.record)) t
    ∧ m.IsOutcome w (raw, registry) outcome
  := by
  obtain ⟨record, u, hinstall, h⟩ := Attempt.eq_ok_of_bind h
  obtain ⟨plugins, hplugins, hu, hread, hrecord⟩ := installPackage_ok hspares hs hinstall
  obtain ⟨report, v, hvalidate, hv⟩ := validate_of_read hu hread (contains_add plugins record)
  rw [Attempt.outcome_bind, hvalidate] at h
  cases h
  exact ⟨plugins, hplugins, hv, hrecord⟩

/-- A package that fails to be installed leaves what the store holds, since the plugin of one that
has been installed does not fail to be validated. -/
theorem installChecked_error [DomainNames] {e : Failure} (hspares : m.Spares w)
    (hs : m.Holding w x s) (h : (m.installChecked raw registry).outcome s = (.error e, t)) :
  m.Holding w x t
  := by
  obtain hinstall | ⟨record, u, hinstall, h⟩ := Attempt.eq_error_of_bind h
  · apply installPackage_error hspares hs hinstall
  · obtain ⟨plugins, -, hu, hread, -⟩ := installPackage_ok hspares hs hinstall
    obtain ⟨report, v, hvalidate, -⟩ := validate_of_read hu hread (contains_add plugins record)
    rw [Attempt.outcome_bind, hvalidate] at h
    cases h

/-! ### Several packages -/

variable {done packages later : List (String × String)} {failing : String × String}
  {outcomes : List Outcome} {e : Failure}

/-- After packages have been installed, the store holds their records, in order, beside those that
it held. -/
theorem installEach_ok [DomainNames] (hspares : m.Spares w) (hs : m.Holding w x s)
    (h : (m.installEach packages).outcome s = (.ok outcomes, t)) :
  m.Holding w (x.map (·.addAll (outcomes.map (·.record)))) t
    ∧ List.Forall₂ (m.IsOutcome w) packages outcomes
  := by
  induction packages generalizing x s outcomes with
  | nil =>
    cases h
    constructor
    · cases x <;> apply hs
    · apply List.Forall₂.nil
  | cons package rest ih =>
    obtain ⟨outcome, u, hfirst, h⟩ := Attempt.eq_ok_of_bind h
    obtain ⟨others, v, hrest, h⟩ := Attempt.eq_ok_of_bind h
    cases h
    obtain ⟨plugins, rfl, hu, hrecord⟩ := installChecked_ok hspares hs hfirst
    obtain ⟨hheld, hrecords⟩ := ih hu hrest
    use hheld
    apply List.Forall₂.cons hrecord hrecords

/-- If packages fail to be installed, then one of them fails after those before it have been
installed. -/
theorem exists_failing [DomainNames] (h : (m.installEach packages).outcome s = (.error e, t)) :
  ∃ done failing later outcomes u, packages = done ++ failing :: later
    ∧ (m.installEach done).outcome s = (.ok outcomes, u)
    ∧ (m.installChecked failing.1 failing.2).outcome u = (.error e, t)
  := by
  induction packages generalizing s with
  | nil => cases h
  | cons package rest ih =>
    obtain hfirst | ⟨outcome, u, hfirst, h⟩ := Attempt.eq_error_of_bind h
    · exact ⟨[], package, rest, [], s, rfl, rfl, hfirst⟩
    obtain hrest | ⟨others, v, hrest, h⟩ := Attempt.eq_error_of_bind h
    · obtain ⟨done, failing, later, outcomes, v, rfl, hdone, hfailing⟩ := ih hrest
      refine ⟨package :: done, failing, later, outcome :: outcomes, v, rfl, ?_, hfailing⟩
      rw [installEach, Attempt.outcome_bind, hfirst]
      dsimp only
      rw [Attempt.outcome_bind, hdone]
      rfl
    · cases h

/-- Once some packages have been installed, the others are installed from the session that is left. -/
theorem outcome_installEach_append [DomainNames] {u : Session σ}
    (hdone : (m.installEach done).outcome s = (.ok outcomes, u))
    (later : List (String × String)) :
  (m.installEach (done ++ later)).outcome s
    = (((m.installEach later).outcome u).1.map (outcomes ++ ·),
      ((m.installEach later).outcome u).2)
  := by
  induction done generalizing s outcomes with
  | nil =>
    cases hdone
    rw [List.nil_append]
    cases (m.installEach later).outcome u with
    | mk answer t => cases answer <;> rfl
  | cons package rest ih =>
    obtain ⟨outcome, v, hfirst, hdone⟩ := Attempt.eq_ok_of_bind hdone
    obtain ⟨others, v', hrest, hdone⟩ := Attempt.eq_ok_of_bind hdone
    cases hdone
    rw [List.cons_append, installEach, Attempt.outcome_bind, hfirst]
    dsimp only
    rw [Attempt.outcome_bind, ih hrest]
    cases (m.installEach later).outcome u with
    | mk answer t => cases answer <;> rfl

/-- Once a package has failed to be installed, those behind it make no difference. -/
theorem installEach_of_failing [DomainNames] {u : Session σ}
    (hdone : (m.installEach done).outcome s = (.ok outcomes, u))
    (hfailing : (m.installChecked failing.1 failing.2).outcome u = (.error e, t))
    (later : List (String × String)) :
  (m.installEach (done ++ failing :: later)).outcome s = (.error e, t)
  := by
  rw [outcome_installEach_append hdone, installEach, Attempt.outcome_bind, hfailing]
  rfl

theorem installEach_append [DomainNames] (h : (m.installEach packages).outcome s = (.error e, t))
    (later : List (String × String)) :
  (m.installEach (packages ++ later)).outcome s = (.error e, t)
  := by
  obtain ⟨done, failing, others, outcomes, u, rfl, hdone, hfailing⟩ := exists_failing h
  rw [List.append_assoc]
  apply installEach_of_failing hdone hfailing

/-! ### What is registered -/

/-- What installing some packages comes to, from one session to another.  If all are installed, the
outcomes have their records, and these are registered in order.  If one fails after those before
it have been installed, then the records of these are registered, and nothing depends on the
packages behind it: with notes of what the package manager is asked it comes to the same, and
nothing is noted that is not about the others. -/
inductive Registers [DomainNames] (m : Manager σ) (packages : List (String × String))
    (s t : Session σ) :
    Except Failure (List Outcome) → Prop
  | all {outcomes : List Outcome}
    (hrecords : List.Forall₂ (m.IsOutcome s.world) packages outcomes)
    (hheld : m.held t = (m.held s).map (·.addAll (outcomes.map (·.record)))) :
    Registers m packages s t (.ok outcomes)
  | upTo {done later : List (String × String)} {failing : String × String}
    {outcomes : List Outcome} {u : Session σ} {e : Failure}
    (hpackages : packages = done ++ failing :: later)
    (hdone : (m.installEach done).outcome s = (.ok outcomes, u))
    (hfailing : (m.installChecked failing.1 failing.2).outcome u = (.error e, t))
    (hrecords : List.Forall₂ (m.IsOutcome s.world) done outcomes)
    (hheld : m.held t = (m.held s).map (·.addAll (outcomes.map (·.record))))
    (hlater : ∀ others, (m.installEach (done ++ failing :: others)).outcome s = (.error e, t))
    (hasked : ∃ requests,
      (m.noting.installEach packages).outcome (s.withNotes []) = (.error e, t.withNotes requests)
        ∧ ∀ q ∈ requests, ∃ package ∈ done ++ [failing], Concerns package q) :
    Registers m packages s t (.error e)

/-- Installing packages one after another registers exactly those that have been installed. -/
theorem registers_installEach [DomainNames] (hs : m.Idle s) (hspares : m.Spares s.world)
    (packages : List (String × String)) {answer : Except Failure (List Outcome)}
    (h : (m.installEach packages).outcome s = (answer, t)) :
  m.Registers packages s t answer
  := by
  have hholding : m.Holding s.world (m.held s) s := ⟨hs, .start, rfl⟩
  cases answer with
  | ok outcomes =>
    obtain ⟨ht, hrecords⟩ := installEach_ok hspares hholding h
    apply Registers.all hrecords ht.held
  | error e =>
    obtain ⟨done, failing, later, outcomes, u, rfl, hdone, hfailing⟩ := exists_failing h
    obtain ⟨hu, hrecords⟩ := installEach_ok hspares hholding hdone
    have ht := installChecked_error hspares hu hfailing
    have hlater := installEach_of_failing hdone hfailing
    apply Registers.upTo rfl hdone hfailing hrecords ht.held hlater
    obtain ⟨requests, hrequests, hkind⟩ := m.asks_installEach (done ++ [failing]) s []
    rw [hlater []] at hrequests
    have hwhole := installEach_append hrequests later
    rw [List.append_assoc] at hwhole
    use requests, hwhole, hkind

/-- The packages of an inventory are those of its records, in the order of the names. -/
theorem map_records (plugins : Inventory) (registry : Option String) :
  (plugins.records.map fun r => (r.locator, registry.getD r.registry))
    = plugins.values.map fun i => (i.locator, registry.getD i.registry)
  := by
  rw [Inventory.records, ByName.values, List.map_map, List.map_map]
  rfl

/-- Installing registers exactly what has been installed, whatever the store holds and whatever the
package manager replies, if that leaves what the store holds.  Packages are given by their
locators, or they are those of the records in a file or in the store, in the order of the names;
if the registry cannot be chosen, the file not be read or the inventory not be loaded, then the
store holds what it held.  Of several records that are registered under a name the last one
counts, and under other names the records before stay.  No file counts as an empty inventory. -/
theorem installing_registers_what_succeeds [DomainNames] (m : Manager σ) {s : Session σ}
    (hs : m.Reachable s) (hspares : m.Spares s.world) :
  (∀ locators registry answer t, (m.install locators registry).outcome s = (answer, t) →
      (∃ e, answer = .error e ∧ (m.chooseRegistry registry).outcome s = (.error e, t)
        ∧ m.held t = m.held s)
      ∨ ∃ chosen u, (m.chooseRegistry registry).outcome s = (.ok chosen, u) ∧ m.held u = m.held s
        ∧ m.Registers (locators.map fun locator => (locator, chosen)) u t answer)
    ∧ (∀ file registry answer t, (m.installListed file registry).outcome s = (answer, t) →
      (∃ e, answer = .error e ∧ (⟨file⟩ : Store).read (m.files s) = .error e ∧ t = s)
      ∨ ∃ listed : Inventory, (⟨file⟩ : Store).read (m.files s) = .ok listed
        ∧ m.Registers (listed.records.map fun r => (r.locator, registry.getD r.registry)) s t
          answer)
    ∧ (∀ registry answer t, (m.reinstall registry).outcome s = (answer, t) →
      (∃ e, answer = .error e ∧ m.inventory.outcome s = (.error e, t) ∧ m.held t = m.held s)
      ∨ ∃ plugins u, m.inventory.outcome s = (.ok plugins, u) ∧ m.held s = .ok plugins
        ∧ m.held u = m.held s
        ∧ m.Registers (plugins.records.map fun r => (r.locator, registry.getD r.registry)) u t
          answer)
    ∧ (∀ (plugins : Inventory) records name, (plugins.addAll records).record? name
      = (records.reverse.find? (·.name == name)).or (plugins.record? name))
    ∧ ∀ u, (m.files u).exists? m.store.path = false → m.held u = .ok ByName.empty
  := by
  have hidle := idle_of_reachable hs
  have hholding : m.Holding s.world (m.held s) s := ⟨hidle, .start, rfl⟩
  constructor
  · intro locators registry answer t h
    obtain ⟨e, rfl, hchoose⟩ | ⟨chosen, u, hchoose, h⟩ := Attempt.cases_of_bind h
    · have ht := Attempt.holds_of_keeps (keeps_chooseRegistry hspares registry) hholding hchoose
      left
      use e, rfl, hchoose, ht.held
    · have hu := Attempt.holds_of_keeps (keeps_chooseRegistry hspares registry) hholding hchoose
      right
      use chosen, u, hchoose, hu.held
      apply registers_installEach hu.idle (spares_of_becomes hspares hu.becomes) _ h
  constructor
  · intro file registry answer t h
    obtain ⟨e, rfl, hlook⟩ | ⟨listed, u, hlook, h⟩ := Attempt.cases_of_bind h
    · obtain ⟨hread, rfl⟩ := Prod.mk.inj hlook
      left
      use e, rfl, hread
    · obtain ⟨hread, rfl⟩ := Prod.mk.inj hlook
      right
      use listed, hread
      rw [map_records]
      apply registers_installEach hidle hspares _ h
  constructor
  · intro registry answer t h
    obtain ⟨e, rfl, hload⟩ | ⟨plugins, u, hload, h⟩ := Attempt.cases_of_bind h
    · left
      use e, rfl, hload
      apply (holding_of_inventory hholding hload).1.held
    · obtain ⟨hu, hplugins⟩ := holding_of_inventory hholding hload
      right
      use plugins, u, hload, hplugins plugins rfl, hu.held
      rw [map_records]
      apply registers_installEach hu.idle (spares_of_becomes hspares hu.becomes) _ h
  constructor
  · intro plugins records name
    apply plugins.record?_addAll
  · intro u hu
    apply Store.held_of_not_exists hu

/-- A machine with a package in place, and a package manager that succeeds once and then fails. -/
def quietMachine : Machine where
  files := ⟨[(["npm"], .file (.text "")), (["p"], .directory), (["p", "lib"], .directory),
    (["p", "lib", "node_modules"], .directory), (["p", "lib", "node_modules", "data"], .directory),
    (["p", "lib", "node_modules", "data", "package.json"],
      .file (.text "\x7b\"name\":\"data\",\"version\":\"1.0.0\"\x7d"))], ⟨"/"⟩, false⟩
  environment := ⟨[]⟩
  manager := ⟨"/npm"⟩
  replies := [⟨[], [], [], .code 0⟩]
  lastReply := ⟨[], [], [], .code 1⟩
  calls := []

attribute [local instance] Url.codedNames

/-- A manager with the package manager of a machine. -/
def quietManager : Manager Machine where
  host := Host.sample
  store := ⟨⟨"/p/plugins.json"⟩⟩
  packages := (⟨"/npm", ⟨"/p"⟩⟩ : Npm).manager
  defaultRegistry := some "r"

theorem spares_quietMachine :
  quietManager.Spares quietMachine
  := by
  apply spares_of_quiet
  refine ⟨rfl, by rfl, by decide +kernel, ?_, rfl⟩
  intro reply hreply
  rw [List.mem_singleton.1 hreply]

/-- A quiet machine with a plugin in the inventory, whose package manager once reports a version.
The program may be denied to change the files. -/
def registeredMachine (denied : Bool) : Machine := { quietMachine with
  files := ⟨(["p", "plugins.json"], .file (.text
    "\x7b\"data\":\x7b\"package\":\"data\",\"registry\":\"r\",\"version\":\"1.0.0\"\x7d\x7d"))
    :: quietMachine.files.entries, ⟨"/"⟩, denied⟩
  replies := [⟨[], "+ data@2.0.0".toList.map (·.toNat.toUInt8), [], .code 0⟩] }

theorem spares_registeredMachine (denied : Bool) :
  quietManager.Spares (registeredMachine denied)
  := by
  apply spares_of_quiet
  refine ⟨rfl, ?_, by decide +kernel, ?_, rfl⟩
  · cases denied <;> rfl
  · intro reply hreply
    rw [List.mem_singleton.1 hreply]

/-- The first of two packages is installed and the second one is not, and the store comes to hold
the record of the first.  A package that is installed again by a program that is denied to save its
record fails, and the store holds the record before. -/
theorem installing_registers_what_succeeds_of_quiet :
  (∃ t e, (quietManager.install ["data@1", "none"] none).outcome (quietManager.start quietMachine)
        = (.error e, t)
      ∧ quietManager.held t = .ok (ByName.empty.insert "data" ⟨"data", "r", "1.0.0"⟩)
      ∧ quietManager.Registers [("data@1", "r"), ("none", "r")] (quietManager.start quietMachine) t
        (.error e))
    ∧ ∃ t, (quietManager.install ["data@1"] (some "q")).outcome
        (quietManager.start (registeredMachine true))
        = (.error (.access ⟨"/p/plugins.json"⟩ .accessDenied), t)
      ∧ quietManager.held t = .ok (ByName.empty.insert "data" ⟨"data", "r", "1.0.0"⟩)
      ∧ quietManager.Registers [("data@1", "q")] (quietManager.start (registeredMachine true)) t
        (.error (.access ⟨"/p/plugins.json"⟩ .accessDenied))
  := by
  constructor
  · obtain ⟨hinstall, -⟩ := installing_registers_what_succeeds quietManager (.start quietMachine)
      spares_quietMachine
    have hresult : (fun r => (r.1.isOk, quietManager.held r.2))
        ((quietManager.install ["data@1", "none"] none).outcome (quietManager.start quietMachine))
        = (false, .ok (ByName.empty.insert "data" ⟨"data", "r", "1.0.0"⟩)) := by
      decide +kernel
    cases hrun : (quietManager.install ["data@1", "none"] none).outcome
        (quietManager.start quietMachine) with
    | mk answer t =>
      rw [hrun] at hresult
      obtain ⟨hanswer, hheld⟩ := Prod.mk.inj hresult
      obtain ⟨e, -, hchoose, -⟩ | ⟨chosen, u, hchoose, -, hregisters⟩ := hinstall _ _ _ _ hrun
      · cases hchoose
      · cases hchoose
        cases answer with
        | ok outcomes => cases hanswer
        | error e => exact ⟨t, e, rfl, hheld, hregisters⟩
  · obtain ⟨hinstall, -⟩ := installing_registers_what_succeeds quietManager
      (.start (registeredMachine true)) (spares_registeredMachine true)
    have hfailure : (quietManager.install ["data@1"] (some "q")).failure?
        (quietManager.start (registeredMachine true))
        = some (.access ⟨"/p/plugins.json"⟩ .accessDenied) := by
      decide +kernel
    have hheld : quietManager.held ((quietManager.install ["data@1"] (some "q")).outcome
        (quietManager.start (registeredMachine true))).2
        = .ok (ByName.empty.insert "data" ⟨"data", "r", "1.0.0"⟩) := by
      decide +kernel
    have hrun := Attempt.outcome_of_failure? hfailure
    obtain ⟨e, -, hchoose, -⟩ | ⟨chosen, u, hchoose, -, hregisters⟩ := hinstall _ _ _ _ hrun
    · cases hchoose
    · cases hchoose
      exact ⟨_, hrun, hheld, hregisters⟩

end Manager

end PluginHost

import Mathlib.Tactic.Use
import PluginHost.Manager
import PluginHost.Proofs.Requests
import PluginHost.Proofs.Storing

/-!
# Sessions

`Manager.Reachable` holds of the sessions that some operations lead to, one after another from
a session before the first one, while the world outside may change at any time between them.
No operation leaves the redirect active, so every reachable session is idle
(`Manager.idle_of_reachable`), and a pass in an idle session runs to its end
(`Manager.outcome_loadNames`).
-/

namespace PluginHost

namespace Manager

variable {σ α : Type} (m : Manager σ)

/-- Whether no redirect is active in a session. -/
def Idle (s : Session σ) : Prop := s.redirect = Redirect.inactive m.host.package m.host.root

/-- What the passes of a manager look at, while modules are redirected. -/
def loader (files : Files) : Loader where
  host := m.host
  modules := m.packages.modules
  files := files
  redirect := ⟨m.host.package, m.host.root, some m.host.sharedPackages⟩

/-! ### Attempts in an idle session -/

/-- A pass in an idle session gives the verdicts and the tree, and leaves the issues. -/
theorem outcome_loadNames {s : Session σ} (h : m.Idle s) (tree : CommandTree)
    (names : List String) :
  (m.loadNames tree names).outcome s
    = match (m.loader (m.files s)).loadEach ⟨tree, m.host.profileTypes, s.log⟩ names with
      | (verdicts, a) => (.ok (verdicts, a.tree), { s with log := a.log })
  := by
  obtain ⟨world, redirect, log⟩ := s
  obtain rfl : redirect = _ := h
  rfl

variable {m} in
/-- An attempt on the files answers as it does on the files of the session, and leaves its files in
the world. -/
theorem of_onFiles {s t : Session σ} {act : Attempt Files α} {answer : Except Failure α}
    (h : (m.onFiles act).outcome s = (answer, t)) :
  act.outcome (m.files s) = (answer, m.files t)
    ∧ t = { s with world := m.packages.withFiles (act.outcome (m.files s)).2 s.world }
  := by
  obtain ⟨rfl, rfl⟩ := Prod.mk.inj h
  constructor
  · apply Prod.ext
    · rfl
    · symm
      apply m.packages.files_withFiles
  · rfl

/-! ### The steps of operations -/

/-- Whether a failure may end an operation: one of the redirect only if the package manager
reports it. -/
def Admits (e : Failure) : Prop := e.ofRedirect = true → m.packages.Reports e

/-- The attempts that are made of the steps of operations: to look at the files, to work on the
world, to make a pass, to forget the issues of a plugin, and to give up. -/
inductive Stepwise : {α : Type} → Attempt (Session σ) α → Prop
  | pure {α : Type} (a : α) : Stepwise (pure a)
  | refuse {α : Type} {e : Failure} (h : m.Admits e) :
    Stepwise (throw e : Attempt (Session σ) α)
  | look {α : Type} {f : Files → Except Failure α} (h : ∀ fs e, f fs = .error e → m.Admits e) :
    Stepwise (Attempt.look fun s => f (m.files s))
  | world {α : Type} {act : Attempt σ α} (h : act.FailsOnly m.Admits) : Stepwise (onWorld act)
  | pass (tree : CommandTree) (names : List String) : Stepwise (m.loadNames tree names)
  | forget (plugin : String) : Stepwise (modify fun s => { s with log := s.log.clear plugin })
  | bind {α β : Type} {act : Attempt (Session σ) α} {f : α → Attempt (Session σ) β}
    (hact : Stepwise act) (hf : ∀ a, Stepwise (f a)) : Stepwise (act >>= f)

variable {m}

/-- A failure that is not of the redirect may end an operation. -/
theorem admits_of_not_ofRedirect {e : Failure} (h : e.ofRedirect = false) :
  m.Admits e
  := by
  intro he
  rw [h] at he
  cases he

/-- A failure of a request to the package manager may end an operation. -/
theorem admits_of_failure? {world : σ} {q : PackageManager.Request} {e : Failure}
    (h : m.packages.failure? world q = some e) :
  m.Admits e
  := by
  intro _
  use world, q

/-- Attempts made of steps leave an idle session idle, also when they fail. -/
theorem keeps_of_stepwise {act : Attempt (Session σ) α} (h : m.Stepwise act) :
  act.Keeps m.Idle
  := by
  induction h with
  | pure a => apply Attempt.keeps_pure
  | refuse => apply Attempt.keeps_throw
  | look => apply Attempt.keeps_look
  | world =>
    intro s hs
    apply hs
  | pass tree names =>
    intro s hs
    rw [m.outcome_loadNames hs]
    apply hs
  | forget plugin =>
    intro s hs
    apply hs
  | bind _ _ ihact ihf => apply Attempt.keeps_bind ihact ihf

variable (m)

theorem stepwise_inventory :
  m.Stepwise m.inventory
  := by
  apply Stepwise.world
  apply Attempt.failsOnly_within
  intro fs e h
  apply admits_of_not_ofRedirect
  obtain ⟨reason, rfl⟩ | rfl := m.store.failsOnly_load fs e h
  · rfl
  · rfl

theorem keeps_inventory :
  m.inventory.Keeps m.Idle
  := keeps_of_stepwise m.stepwise_inventory

theorem stepwise_saveInventory (plugins : Inventory) :
  m.Stepwise (m.saveInventory plugins)
  := by
  apply Stepwise.world
  apply Attempt.failsOnly_within
  intro fs e h
  apply admits_of_not_ofRedirect
  obtain ⟨reason, rfl⟩ := m.store.failsOnly_save plugins fs e h
  rfl

theorem stepwise_askInstall (locator registry : String) :
  m.Stepwise (onWorld (m.packages.install locator registry))
  := by
  apply Stepwise.world
  intro world e h
  apply admits_of_failure? (q := .install locator registry) h

theorem stepwise_askIdentify (locator : String) :
  m.Stepwise (onWorld (m.packages.identify locator))
  := by
  apply Stepwise.world
  intro world e h
  apply admits_of_failure? (q := .identify locator) h

/-! ### Operations are made of steps -/

theorem stepwise_extend (tree : CommandTree) :
  m.Stepwise (m.extend tree)
  := by
  apply Stepwise.bind m.stepwise_inventory
  intro plugins
  apply Stepwise.bind (.pass tree plugins.names)
  intro result
  apply Stepwise.pure

theorem stepwise_validate (name : Option String) :
  m.Stepwise (m.validate name)
  := by
  apply Stepwise.bind m.stepwise_inventory
  intro plugins
  cases name with
  | none =>
    apply Stepwise.bind (.pass _ _)
    intro result
    apply Stepwise.pure
  | some name =>
    by_cases hname : plugins.contains name
    · simp only [hname, if_true]
      apply Stepwise.bind (.pass _ _)
      intro result
      apply Stepwise.pure
    · simp only [hname]
      apply Stepwise.refuse (admits_of_not_ofRedirect rfl)

/-- Making a path absolute fails only because it is empty. -/
theorem eq_of_pin_error {here : Path} {raw : String} {parsed : Locator} {e : Failure}
    (h : pin here raw parsed = .error e) :
  ∃ p, e = .access p .emptyPath
  := by
  unfold pin pinPath at h
  simp only [bind, Except.bind, pure, Except.pure] at h
  grind

theorem stepwise_installPackage [DomainNames] (raw registry : String) :
  m.Stepwise (m.installPackage raw registry)
  := by
  rw [installPackage]
  cases Locator.read raw with
  | error text => apply Stepwise.refuse (admits_of_not_ofRedirect rfl)
  | ok parsed =>
    apply Stepwise.bind
    · apply Stepwise.look (f := fun fs => pin fs.here raw parsed)
      intro fs e h
      obtain ⟨p, rfl⟩ := eq_of_pin_error h
      apply admits_of_not_ofRedirect rfl
    · intro locator
      apply Stepwise.bind (m.stepwise_askInstall locator registry)
      intro output
      apply Stepwise.bind (m.stepwise_askIdentify locator)
      intro identity
      apply Stepwise.bind m.stepwise_inventory
      intro plugins
      apply Stepwise.bind (m.stepwise_saveInventory _)
      intro saved
      apply Stepwise.pure

theorem stepwise_installEach [DomainNames] (packages : List (String × String)) :
  m.Stepwise (m.installEach packages)
  := by
  induction packages with
  | nil => apply Stepwise.pure
  | cons package rest ih =>
    rw [installEach]
    apply Stepwise.bind
    · apply Stepwise.bind (m.stepwise_installPackage _ _)
      intro record
      apply Stepwise.bind (m.stepwise_validate _)
      intro report
      apply Stepwise.pure
    · intro outcome
      apply Stepwise.bind ih
      intro outcomes
      apply Stepwise.pure

theorem stepwise_chooseRegistry (registry : Option String) :
  m.Stepwise (m.chooseRegistry registry)
  := by
  rw [chooseRegistry]
  cases registry.or m.defaultRegistry with
  | some registry => apply Stepwise.pure
  | none =>
    apply Stepwise.world
    intro world e h
    apply admits_of_failure? (q := .defaultRegistry) h

theorem stepwise_install [DomainNames] (locators : List String) (registry : Option String) :
  m.Stepwise (m.install locators registry)
  := by
  apply Stepwise.bind (m.stepwise_chooseRegistry registry)
  intro registry
  apply m.stepwise_installEach

theorem stepwise_installListed [DomainNames] (file : Path) (registry : Option String) :
  m.Stepwise (m.installListed file registry)
  := by
  apply Stepwise.bind
  · apply Stepwise.look (f := (⟨file⟩ : Store).read)
    intro fs e h
    apply admits_of_not_ofRedirect
    obtain ⟨reason, rfl⟩ | rfl := Store.eq_of_read_error h
    · rfl
    · rfl
  · intro plugins
    apply m.stepwise_installEach

theorem stepwise_reinstall [DomainNames] (registry : Option String) :
  m.Stepwise (m.reinstall registry)
  := by
  apply Stepwise.bind m.stepwise_inventory
  intro plugins
  apply m.stepwise_installEach

theorem stepwise_uninstall (name : String) :
  m.Stepwise (m.uninstall name)
  := by
  apply Stepwise.bind m.stepwise_inventory
  intro plugins
  cases plugins.record? name with
  | none => apply Stepwise.refuse (admits_of_not_ofRedirect rfl)
  | some record =>
    apply Stepwise.bind
    · apply Stepwise.world
      intro world e h
      apply admits_of_failure? (q := .uninstall name) h
    · intro removed
      apply Stepwise.bind (m.stepwise_saveInventory _)
      intro saved
      apply Stepwise.bind (.forget name)
      intro forgotten
      apply Stepwise.pure

theorem stepwise_refresh [DomainNames] (record : Record) (registry : String) :
  m.Stepwise (m.refresh record registry)
  := by
  rw [refresh]
  split
  · apply Stepwise.world
    intro world e h
    apply admits_of_failure? (q := .update record.name registry) h
  · apply Stepwise.bind (m.stepwise_askInstall _ _)
    intro output
    apply Stepwise.bind (m.stepwise_askIdentify _)
    intro identity
    apply Stepwise.pure

theorem stepwise_update [DomainNames] (name : String) (registry : Option String) :
  m.Stepwise (m.update name registry)
  := by
  apply Stepwise.bind m.stepwise_inventory
  intro plugins
  cases plugins.record? name with
  | none => apply Stepwise.refuse (admits_of_not_ofRedirect rfl)
  | some record =>
    apply Stepwise.bind (m.stepwise_refresh _ _)
    intro version
    apply Stepwise.bind (m.stepwise_saveInventory _)
    intro saved
    apply Stepwise.pure

theorem stepwise_list :
  m.Stepwise m.list
  := by
  apply Stepwise.bind m.stepwise_inventory
  intro plugins
  apply Stepwise.pure

/-! ### Reachable sessions -/

/-- The operations on plugins. -/
inductive Operation where
  | extend (tree : CommandTree)
  | validate (name : Option String)
  | install (locators : List String) (registry : Option String)
  | installListed (file : Path) (registry : Option String)
  | reinstall (registry : Option String)
  | uninstall (name : String)
  | update (name : String) (registry : Option String)
  | list

/-- The session that an operation leaves, also when it fails. -/
def after [DomainNames] (s : Session σ) : Operation → Session σ
  | .extend tree => ((m.extend tree).outcome s).2
  | .validate name => ((m.validate name).outcome s).2
  | .install locators registry => ((m.install locators registry).outcome s).2
  | .installListed file registry => ((m.installListed file registry).outcome s).2
  | .reinstall registry => ((m.reinstall registry).outcome s).2
  | .uninstall name => ((m.uninstall name).outcome s).2
  | .update name registry => ((m.update name registry).outcome s).2
  | .list => (m.list.outcome s).2

/-- The failure that an operation ends with, if it fails. -/
def failure? [DomainNames] (s : Session σ) : Operation → Option Failure
  | .extend tree => (m.extend tree).failure? s
  | .validate name => (m.validate name).failure? s
  | .install locators registry => (m.install locators registry).failure? s
  | .installListed file registry => (m.installListed file registry).failure? s
  | .reinstall registry => (m.reinstall registry).failure? s
  | .uninstall name => (m.uninstall name).failure? s
  | .update name registry => (m.update name registry).failure? s
  | .list => m.list.failure? s

/-- The sessions that operations lead to, in a world that may change between them. -/
inductive Reachable [DomainNames] : Session σ → Prop
  | start (world : σ) : Reachable (m.start world)
  | after {s : Session σ} (h : Reachable s) (o : Operation) : Reachable (m.after s o)
  | outside {s : Session σ} (h : Reachable s) (world : σ) : Reachable { s with world }

variable {m}

/-- Every operation is an attempt made of steps. -/
theorem exists_stepwise [DomainNames] (o : Operation) :
  ∃ (α : Type) (act : Attempt (Session σ) α), m.Stepwise act
    ∧ (∀ s, m.after s o = (act.outcome s).2) ∧ ∀ s, m.failure? s o = act.failure? s
  := by
  cases o with
  | extend tree => exact ⟨_, _, m.stepwise_extend tree, fun _ => rfl, fun _ => rfl⟩
  | validate name => exact ⟨_, _, m.stepwise_validate name, fun _ => rfl, fun _ => rfl⟩
  | install locators registry =>
    exact ⟨_, _, m.stepwise_install locators registry, fun _ => rfl, fun _ => rfl⟩
  | installListed file registry =>
    exact ⟨_, _, m.stepwise_installListed file registry, fun _ => rfl, fun _ => rfl⟩
  | reinstall registry => exact ⟨_, _, m.stepwise_reinstall registry, fun _ => rfl, fun _ => rfl⟩
  | uninstall name => exact ⟨_, _, m.stepwise_uninstall name, fun _ => rfl, fun _ => rfl⟩
  | update name registry =>
    exact ⟨_, _, m.stepwise_update name registry, fun _ => rfl, fun _ => rfl⟩
  | list => exact ⟨_, _, m.stepwise_list, fun _ => rfl, fun _ => rfl⟩

theorem idle_after [DomainNames] {s : Session σ} (h : m.Idle s) (o : Operation) :
  m.Idle (m.after s o)
  := by
  obtain ⟨α, act, hact, hafter, -⟩ := m.exists_stepwise o
  rw [hafter]
  apply keeps_of_stepwise hact s h

/-- No redirect is active between two operations. -/
theorem idle_of_reachable [DomainNames] {s : Session σ} (h : m.Reachable s) :
  m.Idle s
  := by
  induction h with
  | start world => rfl
  | after _ o ih => apply idle_after ih o
  | outside _ world ih => apply ih

end Manager

end PluginHost

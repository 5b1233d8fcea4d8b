import PluginHost.PackageManager.Npm

/-!
# Requests to package managers

All that is asked of a package manager is one of its five kinds of request, and one that is `noting`
keeps what it has been asked beside its state.  A package manager `Reports` a failure if it may end
a request with it; that of the machine reports none that is about the redirect of modules
(`Npm.not_ofRedirect_of_reports`).
-/

namespace PluginHost

/-- Whether a failure says that a redirect is active already, or that none is. -/
def Failure.ofRedirect : Failure → Bool
  | alreadyRedirecting => true
  | notRedirecting => true
  | _ => false

namespace PackageManager

/-- What a package manager can be asked. -/
inductive Request where
  | identify (locator : String)
  | install (locator registry : String)
  | uninstall (package : String)
  | update (package registry : String)
  | defaultRegistry
  deriving DecidableEq, Repr

variable {σ : Type}

/-- The state that a request leaves, also when it fails. -/
def after (p : PackageManager σ) (world : σ) : Request → σ
  | .identify locator => ((p.identify locator).outcome world).2
  | .install locator registry => ((p.install locator registry).outcome world).2
  | .uninstall package => ((p.uninstall package).outcome world).2
  | .update package registry => ((p.update package registry).outcome world).2
  | .defaultRegistry => (p.defaultRegistry.outcome world).2

/-- The failure of a request, if it fails. -/
def failure? (p : PackageManager σ) (world : σ) : Request → Option Failure
  | .identify locator => (p.identify locator).failure? world
  | .install locator registry => (p.install locator registry).failure? world
  | .uninstall package => (p.uninstall package).failure? world
  | .update package registry => (p.update package registry).failure? world
  | .defaultRegistry => p.defaultRegistry.failure? world

/-- An attempt that beside what it does notes a request, behind those before. -/
def note {α : Type} (q : Request) (act : Attempt σ α) : Attempt (σ × List Request) α :=
  Attempt.ofOutcome fun w => ((act.outcome w.1).1, (act.outcome w.1).2, w.2 ++ [q])

/-- The package manager with notes of all that it is asked. -/
def noting (p : PackageManager σ) : PackageManager (σ × List Request) where
  files := fun w => p.files w.1
  withFiles := fun fs w => (p.withFiles fs w.1, w.2)
  files_withFiles := fun fs w => p.files_withFiles fs w.1
  modules := p.modules
  identify := fun locator => note (.identify locator) (p.identify locator)
  install := fun locator registry => note (.install locator registry) (p.install locator registry)
  uninstall := fun package => note (.uninstall package) (p.uninstall package)
  update := fun package registry => note (.update package registry) (p.update package registry)
  defaultRegistry := note .defaultRegistry p.defaultRegistry

/-- Whether a package manager may end a request with a failure. -/
def Reports (p : PackageManager σ) (e : Failure) : Prop :=
  ∃ world request, p.failure? world request = some e

end PackageManager

/-! ### Failures of the package managers -/

namespace Npm

variable (n : Npm)

theorem failsOnly_run (arguments : List String) :
  (n.run arguments).FailsOnly (·.ofRedirect = false)
  := by
  apply Attempt.failsOnly_bind
  · apply Attempt.failsOnly_within
    apply Attempt.failsOnly_onFiles
    intro reason
    rfl
  intro made
  apply Attempt.failsOnly_bind
  · apply Attempt.failsOnly_get
  intro machine
  cases machine.run n.root n.program arguments with
  | error reason =>
    apply Attempt.failsOnly_throw
    rfl
  | ok answer =>
    apply Attempt.failsOnly_bind
    · apply Attempt.failsOnly_set
    intro left
    apply Attempt.failsOnly_look
    intro s e h
    unfold outputOf at h
    split at h
    · cases h
    · cases h
      rfl

theorem failsOnly_identify [DomainNames] (locator : String) :
  (n.identify locator).FailsOnly (·.ofRedirect = false)
  := by
  unfold identify
  cases Locator.read locator with
  | error text =>
    apply Attempt.failsOnly_throw
    rfl
  | ok parsed =>
    dsimp only
    cases parsed.registryName? with
    | some name =>
      apply Attempt.failsOnly_look
      intro s e h
      unfold Identity.ofPackage at h
      grind [Failure.ofRedirect]
    | none =>
      apply Attempt.failsOnly_bind (n.failsOnly_run _)
      intro output
      split
      · apply Attempt.failsOnly_throw
        rfl
      · apply Attempt.failsOnly_throw
        rfl
      · apply Attempt.failsOnly_pure

theorem failsOnly_update (package registry : String) :
  (n.update package registry).FailsOnly (·.ofRedirect = false)
  := by
  apply Attempt.failsOnly_bind (n.failsOnly_run _)
  intro output
  split
  · apply Attempt.failsOnly_pure
  · apply Attempt.failsOnly_throw
    rfl

theorem failsOnly_uninstall [DomainNames] (package : String) :
  (n.manager.uninstall package).FailsOnly (·.ofRedirect = false)
  := by
  apply Attempt.failsOnly_bind (n.failsOnly_run _)
  intro output
  apply Attempt.failsOnly_pure

theorem failsOnly_defaultRegistry [DomainNames] :
  n.manager.defaultRegistry.FailsOnly (·.ofRedirect = false)
  := by
  apply Attempt.failsOnly_bind (n.failsOnly_run _)
  intro output
  apply Attempt.failsOnly_pure

/-- The package manager of the machine reports no failure of the redirect. -/
theorem not_ofRedirect_of_reports [DomainNames] {e : Failure} (h : n.manager.Reports e) :
  e.ofRedirect = false
  := by
  obtain ⟨world, request, hrequest⟩ := h
  cases request with
  | identify locator => apply n.failsOnly_identify locator world e hrequest
  | install locator registry => apply n.failsOnly_run _ world e hrequest
  | uninstall package => apply n.failsOnly_uninstall package world e hrequest
  | update package registry => apply n.failsOnly_update package registry world e hrequest
  | defaultRegistry => apply n.failsOnly_defaultRegistry world e hrequest

end Npm

end PluginHost

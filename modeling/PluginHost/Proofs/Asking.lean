import PluginHost.Proofs.Session

/-!
# What a package manager is asked

A manager that is `noting` what its package manager is asked does otherwise what it would do
without the notes.  `Manager.Asks` says this of an attempt and the one with notes, and that only
requests of one kind are noted.  To install a package, the package manager is asked to install and
to identify what it is handed for the locator, and to validate the plugin it is asked nothing.
So nothing is asked but about the packages that are to be installed (`Manager.asks_installEach`).
-/

namespace PluginHost

open PackageManager (Request)

variable {σ α β : Type}

/-- A session beside the notes of what has been asked. -/
def Session.withNotes (s : Session σ) (notes : List Request) : Session (σ × List Request) :=
  ⟨(s.world, notes), s.redirect, s.log⟩

namespace Manager

/-- The manager with notes of all that its package manager is asked. -/
def noting (m : Manager σ) : Manager (σ × List Request) :=
  ⟨m.host, m.store, m.packages.noting, m.defaultRegistry⟩

/-! ### Kinds of requests -/

/-- Whether an attempt with notes does what the attempt does, and only requests of one kind are
noted, behind those before. -/
def Asks (Q : Request → Prop) (act : Attempt (Session σ) α)
    (noting : Attempt (Session (σ × List Request)) α) : Prop :=
  ∀ s notes, ∃ requests,
    noting.outcome (s.withNotes notes)
      = ((act.outcome s).1, (act.outcome s).2.withNotes (notes ++ requests))
    ∧ ∀ q ∈ requests, Q q

variable {m : Manager σ} {Q : Request → Prop}

/-- Attempts that do the same and note nothing make no requests. -/
theorem asks_of_same {act : Attempt (Session σ) α}
    {noting : Attempt (Session (σ × List Request)) α}
    (h : ∀ s notes, noting.outcome (s.withNotes notes)
      = ((act.outcome s).1, (act.outcome s).2.withNotes notes)) :
  Asks Q act noting
  := by
  intro s notes
  use []
  simp [h]

theorem asks_pure (a : α) :
  Asks Q (pure a : Attempt (Session σ) α) (pure a)
  := by
  apply asks_of_same
  intro s notes
  rfl

theorem asks_throw (e : Failure) :
  Asks Q (throw e : Attempt (Session σ) α) (throw e)
  := by
  apply asks_of_same
  intro s notes
  rfl

/-- One attempt after another makes the requests of both. -/
theorem asks_bind {act : Attempt (Session σ) α} {f : α → Attempt (Session σ) β}
    {act' : Attempt (Session (σ × List Request)) α}
    {f' : α → Attempt (Session (σ × List Request)) β} (hact : Asks Q act act')
    (hf : ∀ a, Asks Q (f a) (f' a)) :
  Asks Q (act >>= f) (act' >>= f')
  := by
  intro s notes
  obtain ⟨requests, hrequests, hkind⟩ := hact s notes
  rw [Attempt.outcome_bind, Attempt.outcome_bind, hrequests]
  cases act.outcome s with
  | mk answer u =>
    cases answer with
    | error e => use requests, rfl, hkind
    | ok a =>
      obtain ⟨more, hmore, hkind'⟩ := hf a u (notes ++ requests)
      use requests ++ more
      constructor
      · dsimp only
        rw [hmore, List.append_assoc]
      · intro q hq
        rcases List.mem_append.1 hq with hq | hq
        · apply hkind q hq
        · apply hkind' q hq

theorem asks_mono {Q' : Request → Prop} {act : Attempt (Session σ) α}
    {act' : Attempt (Session (σ × List Request)) α} (h : Asks Q act act')
    (hQ : ∀ q, Q q → Q' q) :
  Asks Q' act act'
  := by
  intro s notes
  obtain ⟨requests, hrequests, hkind⟩ := h s notes
  use requests, hrequests
  intro q hq
  apply hQ q (hkind q hq)

/-- What is done with the value of a look at the session makes the requests that are made with the
values that the look can have. -/
theorem asks_look_bind {f : Session σ → Except Failure α}
    {f' : Session (σ × List Request) → Except Failure α} {g : α → Attempt (Session σ) β}
    {g' : α → Attempt (Session (σ × List Request)) β}
    (hf : ∀ s notes, f' (s.withNotes notes) = f s)
    (hg : ∀ s a, f s = .ok a → Asks Q (g a) (g' a)) :
  Asks Q (Attempt.look f >>= g) (Attempt.look f' >>= g')
  := by
  intro s notes
  rw [Attempt.outcome_bind, Attempt.outcome_bind, Attempt.outcome_look, Attempt.outcome_look, hf]
  cases h : f s with
  | error e =>
    use []
    simp
  | ok a => apply hg s a h

/-! ### Requests of operations -/

/-- A request to the package manager is noted. -/
theorem asks_note {q : Request} (hq : Q q) (act : Attempt σ α) :
  Asks Q (onWorld act) (onWorld (PackageManager.note q act))
  := by
  intro s notes
  use [q], rfl
  simp [hq]

theorem asks_onFiles (m : Manager σ) (act : Attempt Files α) :
  Asks Q (m.onFiles act) (m.noting.onFiles act)
  := by
  apply asks_of_same
  intro s notes
  rfl

theorem outcome_onRedirect (f : Redirect → Except Failure Redirect) (s : Session σ) :
  (onRedirect f).outcome s
    = match f s.redirect with
      | .ok redirect => (.ok (), { s with redirect })
      | .error e => (.error e, s)
  := by
  rw [onRedirect, Attempt.outcome_step]
  cases f s.redirect <;> rfl

theorem asks_onRedirect (f : Redirect → Except Failure Redirect) :
  Asks Q (onRedirect f : Attempt (Session σ) Unit) (onRedirect f)
  := by
  apply asks_of_same
  intro s notes
  have hredirect : (s.withNotes notes).redirect = s.redirect := rfl
  rw [outcome_onRedirect, outcome_onRedirect, hredirect]
  cases f s.redirect <;> rfl

/-- A pass makes no requests. -/
theorem asks_loadNames (m : Manager σ) (tree : CommandTree) (names : List String) :
  Asks Q (m.loadNames tree names) (m.noting.loadNames tree names)
  := by
  apply asks_bind (asks_onRedirect _)
  intro active s notes
  let loader : Loader := ⟨m.host, m.packages.modules, m.files s, s.redirect⟩
  let pass := loader.loadEach ⟨tree, m.host.profileTypes, s.log⟩ names
  apply asks_bind (asks_onRedirect (·.deactivate)) (fun _ => asks_pure (pass.1, pass.2.tree))
    { s with log := pass.2.log } notes

theorem asks_validate (m : Manager σ) (name : Option String) :
  Asks Q (m.validate name) (m.noting.validate name)
  := by
  apply asks_bind (m.asks_onFiles _)
  intro plugins
  cases name with
  | none =>
    apply asks_bind (m.asks_loadNames _ _)
    intro result
    apply asks_pure
  | some name =>
    by_cases hname : plugins.contains name
    · simp only [hname, if_true]
      apply asks_bind (m.asks_loadNames _ _)
      intro result
      apply asks_pure
    · simp only [hname]
      apply asks_throw

/-! ### What is asked -/

/-- What an attempt with notes has the package manager asked, from a session on. -/
def asked (noting : Attempt (Session (σ × List Request)) α) (s : Session σ) : List Request :=
  (noting.outcome (s.withNotes [])).2.world.2

section

variable {s u : Session σ} {f : Inventory → Attempt (Session (σ × List Request)) α}

theorem outcome_noting_inventory (m : Manager σ) (s : Session σ) (notes : List Request) :
  m.noting.inventory.outcome (s.withNotes notes)
    = ((m.inventory.outcome s).1, (m.inventory.outcome s).2.withNotes notes)
  := rfl

/-- Nothing is asked to load the inventory, and then what is done with it asks what it asks. -/
theorem asked_inventory_bind {plugins : Inventory}
    (hload : m.inventory.outcome s = (.ok plugins, u)) :
  asked (m.noting.inventory >>= f) s = asked (f plugins) u
  := by
  rw [asked, Attempt.outcome_bind, outcome_noting_inventory, hload]
  rfl

/-- If one attempt after another is made then the notes of both are kept, in order. -/
theorem notes_bind {R : Request → Prop} {act : Attempt (Session σ) α}
    {act' : Attempt (Session (σ × List Request)) α} {g : α → Attempt (Session σ) β}
    {g' : α → Attempt (Session (σ × List Request)) β} (hact : Asks Q act act')
    (hg : ∀ a, Asks R (g a) (g' a)) (s : Session σ) (notes : List Request) :
  ∃ more, ((act' >>= g').outcome (s.withNotes notes)).2.world.2
      = (act'.outcome (s.withNotes notes)).2.world.2 ++ more
    ∧ ∀ q ∈ more, R q
  := by
  obtain ⟨requests, hrequests, -⟩ := hact s notes
  rw [Attempt.outcome_bind, hrequests]
  cases act.outcome s with
  | mk answer u =>
    cases answer with
    | error e =>
      use []
      simp [Session.withNotes]
    | ok a =>
      obtain ⟨more, hmore, hkind⟩ := hg a u (notes ++ requests)
      use more
      constructor
      · dsimp only
        rw [hmore]
        rfl
      · apply hkind

/-- If the inventory cannot be loaded then nothing is asked. -/
theorem asked_inventory_bind_of_error {e : Failure}
    (hload : m.inventory.outcome s = (.error e, u)) :
  asked (m.noting.inventory >>= f) s = []
  := by
  rw [asked, Attempt.outcome_bind, outcome_noting_inventory, hload]
  rfl

end

/-! ### Requests about a package -/

/-- Whether a request is about a package: it is to install or to identify what the package manager
is handed for the locator, with the program in some directory. -/
inductive Concerns [DomainNames] : String × String → Request → Prop
  | install {raw registry handed : String} {parsed : Locator} {here : Path}
    (hread : Locator.read raw = .ok parsed) (hpin : pin here raw parsed = .ok handed) :
    Concerns (raw, registry) (.install handed registry)
  | identify {raw registry handed : String} {parsed : Locator} {here : Path}
    (hread : Locator.read raw = .ok parsed) (hpin : pin here raw parsed = .ok handed) :
    Concerns (raw, registry) (.identify handed)

/-- Has a package installed, and gives its record. -/
def obtainPackage [DomainNames] (m : Manager σ) (raw registry : String) :
    Attempt (Session σ) Record := do
  match Locator.read raw with
  | .error text => throw (.badLocator text)
  | .ok parsed =>
    let handed ← Attempt.look fun s => pin (m.files s).here raw parsed
    let _ ← onWorld (m.packages.install handed registry)
    let identity ← onWorld (m.packages.identify handed)
    return ⟨identity.name, parsed.registryName?.getD handed, registry, identity.version⟩

/-- Puts a record into the store. -/
def register (m : Manager σ) (record : Record) : Attempt (Session σ) Unit := do
  m.saveInventory ((← m.inventory).add record)

/-- A package is installed first, and its record is put into the store then. -/
theorem installPackage_eq [DomainNames] (m : Manager σ) (raw registry : String) :
  m.installPackage raw registry = do
    let record ← m.obtainPackage raw registry
    m.register record
    return record
  := by
  rw [installPackage, obtainPackage]
  cases Locator.read raw with
  | error text => rfl
  | ok parsed => simp [register]

/-- Of a package nothing is asked but to install and to identify it. -/
theorem asks_obtainPackage [DomainNames] (m : Manager σ) (raw registry : String) :
  Asks (Concerns (raw, registry)) (m.obtainPackage raw registry)
    (m.noting.obtainPackage raw registry)
  := by
  rw [obtainPackage, obtainPackage]
  cases hread : Locator.read raw with
  | error text => apply asks_throw
  | ok parsed =>
    apply asks_look_bind
    · intro s notes
      rfl
    intro s handed hpin
    apply asks_bind (asks_note (.install hread hpin) _)
    intro output
    apply asks_bind (asks_note (.identify hread hpin) _)
    intro identity
    apply asks_pure

/-- Nothing is asked to put a record into the store. -/
theorem asks_registered (m : Manager σ) (record : Record) :
  Asks Q (m.register record >>= fun _ => return record)
    (m.noting.register record >>= fun _ => return record)
  := by
  apply asks_bind
  · apply asks_bind (m.asks_onFiles _)
    intro plugins
    apply asks_onFiles
  · intro registered
    apply asks_pure

section

variable {raw handed : String} {parsed : Locator} {s : Session σ}

/-- To have a package installed, first the installation of what is handed to the package manager is
asked for, and then nothing is but to identify it. -/
theorem notes_obtainPackage [DomainNames] (hread : Locator.read raw = .ok parsed)
    (hpin : pin (m.files s).here raw parsed = .ok handed) (registry : String)
    (notes : List Request) :
  ∃ more, ((m.noting.obtainPackage raw registry).outcome (s.withNotes notes)).2.world.2
      = notes ++ .install handed registry :: more
    ∧ ∀ q ∈ more, q = .identify handed
  := by
  let record (identity : Identity) : Record :=
    ⟨identity.name, parsed.registryName?.getD handed, registry, identity.version⟩
  have hlook : pin (m.noting.files (s.withNotes notes)).here raw parsed = .ok handed := hpin
  have hidentify : ∀ output : String, Asks (· = .identify handed)
      (onWorld (m.packages.identify handed) >>= fun identity => return record identity)
      (onWorld (m.noting.packages.identify handed) >>= fun identity =>
        return record identity) := by
    intro output
    apply asks_bind (asks_note (Q := (· = .identify handed)) rfl _)
    intro identity
    apply asks_pure
  obtain ⟨more, hmore, hkind⟩ := notes_bind
    (asks_note (Q := fun _ => True) (q := .install handed registry) trivial
      (m.packages.install handed registry)) hidentify s notes
  use more
  constructor
  · rw [List.append_cons, obtainPackage]
    simp only [hread]
    rw [Attempt.outcome_bind, Attempt.outcome_look, hlook]
    apply hmore
  · apply hkind

theorem notes_installPackage [DomainNames] (hread : Locator.read raw = .ok parsed)
    (hpin : pin (m.files s).here raw parsed = .ok handed) (registry : String)
    (notes : List Request) :
  ∃ more, ((m.noting.installPackage raw registry).outcome (s.withNotes notes)).2.world.2
      = notes ++ .install handed registry :: more
    ∧ ∀ q ∈ more, q = .identify handed
  := by
  obtain ⟨more, hmore, hkind⟩ := notes_obtainPackage hread hpin registry notes
  obtain ⟨others, hothers, hnone⟩ := notes_bind (R := fun _ => False)
    (m.asks_obtainPackage raw registry) m.asks_registered s notes
  use more
  constructor
  · rw [installPackage_eq, hothers, hmore, List.eq_nil_iff_forall_not_mem.2 hnone,
      List.append_nil]
  · apply hkind

end

theorem asks_installPackage [DomainNames] (m : Manager σ) (raw registry : String) :
  Asks (Concerns (raw, registry)) (m.installPackage raw registry)
    (m.noting.installPackage raw registry)
  := by
  rw [installPackage_eq, installPackage_eq]
  apply asks_bind (m.asks_obtainPackage raw registry) m.asks_registered

/-- Nothing is asked to validate the plugin of a package that has been installed. -/
theorem asks_validated (m : Manager σ) (record : Record) :
  Asks Q (m.validate (some record.name) >>= fun report => return (⟨record, report⟩ : Outcome))
    (m.noting.validate (some record.name) >>= fun report => return ⟨record, report⟩)
  := by
  apply asks_bind (m.asks_validate _)
  intro report
  apply asks_pure

theorem asks_installChecked [DomainNames] (m : Manager σ) (raw registry : String) :
  Asks (Concerns (raw, registry)) (m.installChecked raw registry)
    (m.noting.installChecked raw registry)
  := asks_bind (m.asks_installPackage raw registry) m.asks_validated

/-- Nothing is asked but about the packages that are to be installed. -/
theorem asks_installEach [DomainNames] (m : Manager σ) (packages : List (String × String)) :
  Asks (fun q => ∃ package ∈ packages, Concerns package q) (m.installEach packages)
    (m.noting.installEach packages)
  := by
  induction packages with
  | nil => apply asks_pure
  | cons package rest ih =>
    apply asks_bind
    · apply asks_mono (m.asks_installChecked package.1 package.2)
      intro q hq
      use package, List.mem_cons_self
    intro outcome
    apply asks_bind
    · apply asks_mono ih
      rintro q ⟨other, hother, hq⟩
      use other, List.mem_cons_of_mem _ hother
    intro outcomes
    apply asks_pure

/-- The first thing that is asked to install packages one after another is to install the first. -/
theorem notes_installEach_cons [DomainNames] {raw registry handed : String} {parsed : Locator}
    {s : Session σ}
    (hread : Locator.read raw = .ok parsed) (hpin : pin (m.files s).here raw parsed = .ok handed)
    (rest : List (String × String)) (notes : List Request) :
  ∃ more, ((m.noting.installEach ((raw, registry) :: rest)).outcome (s.withNotes notes)).2.world.2
    = notes ++ .install handed registry :: more
  := by
  have hrest : ∀ outcome : Outcome,
      Asks (fun q => ∃ package ∈ rest, Concerns package q)
        (m.installEach rest >>= fun outcomes => return outcome :: outcomes)
        (m.noting.installEach rest >>= fun outcomes => return outcome :: outcomes) := by
    intro outcome
    apply asks_bind (m.asks_installEach rest)
    intro outcomes
    apply asks_pure
  obtain ⟨first, hfirst, -⟩ := notes_installPackage hread hpin registry notes
  obtain ⟨validated, hvalidated, -⟩ := notes_bind (R := fun _ => False)
    (m.asks_installPackage raw registry) m.asks_validated s notes
  obtain ⟨more, hmore, -⟩ := notes_bind (m.asks_installChecked raw registry) hrest s notes
  use first ++ validated ++ more
  rw [installEach, hmore, installChecked, hvalidated, hfirst]
  simp

end Manager

end PluginHost

import PluginHost.Proofs.Agreement
import PluginHost.Proofs.Holding

/-!
# Package managers that spare the inventory

A package manager `Spares` the inventory from a world on, if whatever it is asked it leaves what the
store holds.  Then so does all that an installation does before it saves the inventory:
`Manager.Holding` says what the store holds in a session on the way.
-/

namespace PluginHost

namespace Manager

open PackageManager (Request)

variable {σ α : Type} (m : Manager σ)

/-- What the store holds in a session. -/
def held (s : Session σ) : Except Content Inventory := m.store.held (m.files s)

/-- The worlds that a world can become while packages are installed: the package manager is asked,
and the inventory is loaded and saved. -/
inductive Becomes (w : σ) : σ → Prop
  | start : Becomes w w
  | ask {w' : σ} (h : Becomes w w') (q : Request) : Becomes w (m.packages.after w' q)
  | load {w' : σ} (h : Becomes w w') :
    Becomes w (m.packages.withFiles (m.store.load.outcome (m.packages.files w')).2 w')
  | save {w' : σ} (h : Becomes w w') (plugins : Inventory) :
    Becomes w (m.packages.withFiles ((m.store.save plugins).outcome (m.packages.files w')).2 w')

/-- Whether the package manager leaves what the store holds, from a world on. -/
def Spares (w : σ) : Prop :=
  ∀ w' q, m.Becomes w w' →
    m.store.held (m.packages.files (m.packages.after w' q)) = m.store.held (m.packages.files w')

/-- Whether a session is idle, in a world that another one has become, and the store holds
something in it. -/
structure Holding (w : σ) (x : Except Content Inventory) (s : Session σ) : Prop where
  idle : m.Idle s
  becomes : m.Becomes w s.world
  held : m.held s = x

variable {m} {w : σ} {x : Except Content Inventory} {s t : Session σ}

theorem becomes_trans {w' w'' : σ} (h : m.Becomes w w') (h' : m.Becomes w' w'') :
  m.Becomes w w''
  := by
  induction h' with
  | start => apply h
  | ask _ q ih => apply ih.ask q
  | load _ ih => apply ih.load
  | save _ plugins ih => apply ih.save plugins

theorem spares_of_becomes {w' : σ} (h : m.Spares w) (hw : m.Becomes w w') :
  m.Spares w'
  := by
  intro w'' q hw'
  apply h w'' q (becomes_trans hw hw')

/-! ### Steps that leave what the store holds -/

/-- A request leaves what the store holds. -/
theorem holding_after (h : m.Spares w) (hs : m.Holding w x s) (q : Request) :
  m.Holding w x { s with world := m.packages.after s.world q }
  := by
  constructor
  · apply hs.idle
  · apply hs.becomes.ask q
  · rw [← hs.held]
    apply h s.world q hs.becomes

theorem keeps_askInstall (h : m.Spares w) (locator registry : String) :
  (onWorld (m.packages.install locator registry)).Keeps (m.Holding w x)
  := by
  intro s hs
  apply holding_after h hs (.install locator registry)

theorem keeps_askIdentify (h : m.Spares w) (locator : String) :
  (onWorld (m.packages.identify locator)).Keeps (m.Holding w x)
  := by
  intro s hs
  apply holding_after h hs (.identify locator)

theorem keeps_chooseRegistry (h : m.Spares w) (registry : Option String) :
  (m.chooseRegistry registry).Keeps (m.Holding w x)
  := by
  intro s hs
  rw [chooseRegistry]
  cases registry.or m.defaultRegistry with
  | some registry => apply hs
  | none => apply holding_after h hs .defaultRegistry

/-- Loading the inventory leaves what the store holds, and gives that if it succeeds. -/
theorem holding_of_inventory {answer : Except Failure Inventory} (hs : m.Holding w x s)
    (h : m.inventory.outcome s = (answer, t)) :
  m.Holding w x t ∧ ∀ plugins, answer = .ok plugins → x = .ok plugins
  := by
  obtain ⟨hload, rfl⟩ := of_onFiles h
  obtain ⟨hheld, hanswer⟩ := Store.held_load hload
  rw [← hs.held]
  use ⟨hs.idle, hs.becomes.load, hheld⟩, hanswer

/-- Saving an inventory makes the store hold it. -/
theorem holding_of_save_ok {plugins : Inventory} (hs : m.Holding w x s)
    (h : (m.saveInventory plugins).outcome s = (.ok (), t)) :
  m.Holding w (.ok plugins) t ∧ m.store.read (m.files t) = .ok plugins
  := by
  obtain ⟨hsave, rfl⟩ := of_onFiles h
  use ⟨hs.idle, hs.becomes.save plugins, Store.held_of_save_ok hsave⟩, Store.read_of_save hsave

/-- Saving an inventory leaves what the store holds if it fails. -/
theorem holding_of_save_error {plugins : Inventory} {e : Failure} (hs : m.Holding w x s)
    (h : (m.saveInventory plugins).outcome s = (.error e, t)) :
  m.Holding w x t
  := by
  obtain ⟨hsave, rfl⟩ := of_onFiles h
  use hs.idle, hs.becomes.save plugins
  rw [← hs.held]
  apply Store.held_of_save_error hsave

end Manager

/-! ### Replies without files -/

namespace Npm

variable {n : Npm} {fs : Files}

/-- Whether a machine has some files, the directory that packages are installed into among them, and
its package manager writes none in any reply. -/
structure Quiet (n : Npm) (fs : Files) (w : Machine) : Prop where
  files : w.files = fs
  root : fs.entry n.root = .ok .directory
  trimmed : n.root.trimmed = n.root
  replies : ∀ reply ∈ w.replies, reply.files = []
  lastReply : w.lastReply.files = []

/-- A run of a package manager that writes no files leaves the machine quiet. -/
theorem quiet_of_run {w w' : Machine} {directory : Path} {program : String}
    {arguments : List String} {reply : Reply} (hw : Quiet n fs w)
    (h : w.run directory program arguments = .ok (reply, w')) :
  Quiet n fs w'
  := by
  rw [Machine.run] at h
  cases hstart : w.startable directory program arguments with
  | error reason =>
    rw [hstart] at h
    cases h
  | ok =>
    rw [hstart] at h
    cases h
    have hreply : (w.replies.head?.getD w.lastReply).files = [] := by
      cases hreplies : w.replies with
      | nil => apply hw.lastReply
      | cons reply rest =>
        apply hw.replies
        rw [hreplies]
        apply List.mem_cons_self
    constructor
    · rw [hreply]
      apply hw.files
    · apply hw.root
    · apply hw.trimmed
    · intro reply hmem
      apply hw.replies reply (List.mem_of_mem_tail hmem)
    · apply hw.lastReply

theorem keeps_run (n : Npm) (arguments : List String) :
  (n.run arguments).Keeps (Quiet n fs)
  := by
  apply Attempt.keeps_bind
  · intro w hw
    have hmake := Files.makeDirectories_of_directory hw.root hw.trimmed
    rw [Attempt.outcome_within, Attempt.onFiles, Attempt.outcome_step, hw.files, hmake]
    use rfl, hw.root, hw.trimmed, hw.replies, hw.lastReply
  intro made w hw
  rw [Attempt.outcome_bind, Attempt.outcome_get]
  dsimp only
  cases hrun : w.run n.root n.program arguments with
  | error reason => apply hw
  | ok answer =>
    obtain ⟨reply, w'⟩ := answer
    dsimp only
    rw [Attempt.outcome_bind, Attempt.outcome_set]
    apply quiet_of_run hw hrun

theorem keeps_identify [DomainNames] (n : Npm) (locator : String) :
  (n.identify locator).Keeps (Quiet n fs)
  := by
  unfold identify
  cases Locator.read locator with
  | error text => apply Attempt.keeps_throw
  | ok parsed =>
    dsimp only
    cases parsed.registryName? with
    | some name => apply Attempt.keeps_look
    | none =>
      apply Attempt.keeps_bind (n.keeps_run _)
      intro output
      split
      · apply Attempt.keeps_throw
      · apply Attempt.keeps_throw
      · apply Attempt.keeps_pure

theorem keeps_update (n : Npm) (package registry : String) :
  (n.update package registry).Keeps (Quiet n fs)
  := by
  apply Attempt.keeps_bind (n.keeps_run _)
  intro output
  split
  · apply Attempt.keeps_pure
  · apply Attempt.keeps_throw

/-- Every request to a package manager that writes no files leaves the machine quiet. -/
theorem quiet_after [DomainNames] {w : Machine} (hw : Quiet n fs w) (q : PackageManager.Request) :
  Quiet n fs (n.manager.after w q)
  := by
  cases q with
  | identify locator => apply n.keeps_identify locator w hw
  | install locator registry => apply n.keeps_run _ w hw
  | uninstall package =>
    apply Attempt.keeps_bind (n.keeps_run _) _ w hw
    intro output
    apply Attempt.keeps_pure
  | update package registry => apply n.keeps_update package registry w hw
  | defaultRegistry =>
    apply Attempt.keeps_bind (n.keeps_run _) _ w hw
    intro output
    apply Attempt.keeps_pure

/-- The files of a quiet machine may be changed where the directory that packages are installed into
stays. -/
theorem quiet_withFiles [DomainNames] {w : Machine} {fs' : Files} (hw : Quiet n fs w)
    (h : fs'.entry n.root = .ok .directory) :
  Quiet n fs' (n.manager.withFiles fs' w)
  := ⟨rfl, h, hw.trimmed, hw.replies, hw.lastReply⟩

end Npm

namespace Manager

/-- The package manager of a machine spares what the store holds, if it writes no files and the
directory that it installs into is there. -/
theorem spares_of_quiet [DomainNames] {n : Npm} {w : Machine} (hw : Npm.Quiet n w.files w)
    (host : Host) (store : Store) (registry : Option String) :
  Spares ⟨host, store, n.manager, registry⟩ w
  := by
  have hquiet : ∀ w', Becomes ⟨host, store, n.manager, registry⟩ w w' →
      ∃ fs, Npm.Quiet n fs w' := by
    intro w' h
    induction h with
    | start => use w.files
    | ask _ q ih =>
      obtain ⟨fs, hfs⟩ := ih
      use fs
      apply Npm.quiet_after hfs q
    | @load w' _ ih =>
      obtain ⟨fs, hfs⟩ := ih
      have hroot : w'.files.entry n.root = .ok .directory := hfs.files ▸ hfs.root
      refine ⟨_, Npm.quiet_withFiles hfs ?_⟩
      apply store.keeps_load n.root _ hroot
    | @save w' _ plugins ih =>
      obtain ⟨fs, hfs⟩ := ih
      have hroot : w'.files.entry n.root = .ok .directory := hfs.files ▸ hfs.root
      refine ⟨_, Npm.quiet_withFiles hfs ?_⟩
      apply store.keeps_save plugins n.root _ hroot
  intro w' q h
  obtain ⟨fs, hfs⟩ := hquiet w' h
  have hafter : n.manager.files (n.manager.after w' q) = n.manager.files w' :=
    (Npm.quiet_after hfs q).files.trans hfs.files.symm
  dsimp only
  rw [hafter]

end Manager

end PluginHost

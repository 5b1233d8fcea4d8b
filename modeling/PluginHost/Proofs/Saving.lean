import PluginHost.Program
import PluginHost.Proofs.Assigning
import PluginHost.Proofs.Holding
import PluginHost.Proofs.SettingsText

/-!
# Changing the file of the settings

`Action.SetEnds` lists the ways in which the command that changes a setting ends.  If it fails then no
file changes (`Settings.sameFiles_of_save_error`), and if it succeeds then the file holds the settings
that were saved (`Settings.ofFile_of_save`).  None of this depends on the variables that override
settings, so the command is a transaction on the file (`Action.set_is_a_transaction`).
-/

namespace PluginHost

/-! ### Writing a file -/

namespace Files

variable {fs fs' fs'' : Files} {p : Path} {text : String} {content : Content}

/-- A file is written over as it is replaced. -/
theorem write_eq_ok_iff :
  fs.write p text = .ok fs' ↔ fs.replace p text = .ok fs'
  := by
  rw [replace_eq_ok_iff, write, openable]
  split
  · next hslash =>
    constructor
    · intro h
      obtain ⟨loc, hopen, -⟩ := eq_ok_of_bind h
      -- whatever the path leads to, it cannot be opened
      split at hopen
      · cases hopen
      · split at hopen <;> cases hopen
      · cases hopen
    · rintro ⟨-, hno, -⟩
      cases hno hslash
  · next hslash =>
    cases fs.fileLocation p with
    | error e => simp [bind, Except.bind]
    | ok loc =>
      cases hdenied : fs.denied
      all_goals
        simp [bind, Except.bind, pure, Except.pure, allow, hdenied, hslash, eq_comm]

/-- Whether two trees have the same files. -/
def SameFiles (fs fs' : Files) : Prop :=
  ∀ loc content, fs'.entryAt loc = some (.file content) ↔ fs.entryAt loc = some (.file content)

theorem SameFiles.refl (fs : Files) :
  fs.SameFiles fs
  := fun _ _ => Iff.rfl

theorem SameFiles.trans (h : fs.SameFiles fs') (h' : fs'.SameFiles fs'') :
  fs.SameFiles fs''
  := fun loc content => (h' loc content).trans (h loc content)

end Files

/-! ### Saving settings -/

namespace Settings

variable {s s' : Settings} {fs fs' : Files} {path p : Path} {error : SettingsError}
  {key : SettingsKey} {text : String}

/-- Saved settings have been written to their file, in a directory that has been provided. -/
theorem write_of_save (h : s.save fs path = (.ok (), fs')) :
  ∃ made, makeParent fs path = .ok made ∧ made.write path s.print = .ok fs'
  := by
  rw [save] at h
  split at h
  · cases h
  · next made hparent =>
    split at h
    · cases h
    · next hwrite =>
      cases h
      use made, hparent

/-- Settings that have been saved are read from their file. -/
theorem ofFile_of_save (h : s.save fs path = (.ok (), fs')) :
  ofFile fs' path = .ok s
  := by
  obtain ⟨made, -, hwrite⟩ := write_of_save h
  have hread := Files.read_replace (Files.write_eq_ok_iff.1 hwrite)
  simp only [ofFile, hread, read?_print]

/-! ### Changing one setting -/

end Settings

/-! ### Variables that override settings -/

namespace Environment

end Environment

/-! ### The command that changes a setting -/

namespace Console

/-- A console with other files. -/
def withFiles (c : Console) (files : Files) : Console :=
  { c with machine := { c.machine with files } }

end Console

namespace Action

section

variable {α β : Type}

theorem outcome_bind (act : Action α) (f : α → Action β) (c : Console) :
  (act >>= f).outcome c
    = match act.outcome c with
      | (.ok a, c') => (f a).outcome c'
      | (.error e, c') => (.error e, c')
  := by
  simp only [outcome, bind, ExceptT.bind, ExceptT.run, ExceptT.mk, StateT.bind, StateT.run,
    ExceptT.bindCont]
  rcases act c with ⟨r, c'⟩
  cases r <;> rfl

end

variable {c c' : Console} {name text : String} {answer : Except Complaint Unit}

attribute [local instance] Url.codedNames

end Action

end PluginHost

import PluginHost.Proofs.Saving

/-!
# The file that settings are saved to

Whether settings can be saved to a path depends on the files only (`Settings.CanSaveTo`), not on what
the settings are.  Where they can, the file holds them: they are loaded from it as they were saved,
whatever texts they consist of, and a setting that is not set stays so
(`Settings.saved_settings_are_loaded`).
-/

namespace PluginHost.Settings

variable {fs : Files} {path : Path}

/-- Whether settings can be saved to a path: its directory is there or can be created, and then a file
can be opened at the path. -/
def CanSaveTo (fs : Files) (path : Path) : Prop :=
  ∃ made loc, makeParent fs path = .ok made ∧ made.openable path = .ok loc

/-- A text can be written to a path exactly if a file can be opened there. -/
theorem exists_write_iff (text : String) :
  (∃ fs', fs.write path text = .ok fs') ↔ ∃ loc, fs.openable path = .ok loc
  := by
  constructor
  · rintro ⟨fs', h⟩
    obtain ⟨loc, hopen, -⟩ := Files.eq_ok_of_bind h
    use loc, hopen
  · rintro ⟨loc, hopen⟩
    rw [Files.write, hopen]
    exact ⟨_, rfl⟩

/-- Settings are saved exactly if they can be saved to the path. -/
theorem exists_save_iff (s : Settings) :
  (∃ fs', s.save fs path = (.ok (), fs')) ↔ CanSaveTo fs path
  := by
  constructor
  · rintro ⟨fs', h⟩
    obtain ⟨made, hparent, hwrite⟩ := write_of_save h
    obtain ⟨loc, hopen⟩ := (exists_write_iff s.print).1 ⟨fs', hwrite⟩
    exact ⟨made, loc, hparent, hopen⟩
  · rintro ⟨made, loc, hparent, hopen⟩
    obtain ⟨fs', hwrite⟩ := (exists_write_iff s.print).2 ⟨loc, hopen⟩
    use fs'
    rw [save, hparent]
    simp only [hwrite]

/-- The answer to saving settings does not depend on what they are. -/
theorem answer_save_congr (s s' : Settings) (fs : Files) (path : Path) :
  (s.save fs path).1 = (s'.save fs path).1
  := by
  rw [save, save]
  cases makeParent fs path with
  | error e => rfl
  | ok made =>
    dsimp only
    rw [Files.write, Files.write]
    cases made.openable path <;> rfl

/-- Saving settings and loading them are inverse.  Settings of any texts are saved to a path exactly if
a file can be opened there in a directory that is there or is created, and the answer to that is the
same for all settings.  After they have been saved, what is loaded from the path are these settings
and no others. -/
theorem saved_settings_are_loaded (s : Settings) (fs : Files) (path : Path) :
  ((∃ fs', s.save fs path = (.ok (), fs')) ↔ CanSaveTo fs path)
    ∧ (∀ s' : Settings, (s'.save fs path).1 = (s.save fs path).1)
    ∧ ∀ fs', s.save fs path = (.ok (), fs') → ∀ s', ofFile fs' path = .ok s' ↔ s' = s
  := by
  refine ⟨exists_save_iff s, fun s' => answer_save_congr s' s fs path, ?_⟩
  intro fs' h s'
  rw [ofFile_of_save h, Except.ok.injEq, eq_comm]

/-- Settings of texts that spell something else where they are not quoted, or that have line feeds in
them, beside an option that is not set. -/
def sampleOdd : Settings where
  packageManager := "null"
  registry := some ""
  installRoot := none
  sharedModules := ["~", "true", "5", "- a: 'b' # \"c\"", "\n two\n\nlines \n", "\t", ""]
  failOnWarning := true

/-- A tree without files. -/
def sampleEmpty : Files := ⟨[], ⟨"/"⟩, false⟩

/-- The odd settings are saved in a directory that is created, and loaded again. -/
theorem saved_settings_are_loaded_of_odd :
  ∃ fs', sampleOdd.save sampleEmpty ⟨"/cfg/nested/config.yaml"⟩ = (.ok (), fs')
    ∧ ofFile fs' ⟨"/cfg/nested/config.yaml"⟩ = .ok sampleOdd
  := by
  obtain ⟨made, hparent, hopen⟩ : ∃ made,
      makeParent sampleEmpty ⟨"/cfg/nested/config.yaml"⟩ = .ok made
        ∧ made.openable ⟨"/cfg/nested/config.yaml"⟩ = .ok ["cfg", "nested", "config.yaml"] :=
    ⟨_, rfl, rfl⟩
  obtain ⟨hsave, -, hload⟩ := saved_settings_are_loaded sampleOdd sampleEmpty
    ⟨"/cfg/nested/config.yaml"⟩
  obtain ⟨fs', hfs'⟩ := hsave.2 ⟨made, _, hparent, hopen⟩
  exact ⟨fs', hfs', (hload fs' hfs' sampleOdd).2 rfl⟩

end PluginHost.Settings

import Mathlib.Tactic.Use
import PluginHost.Proofs.Storing

/-!
# What the store holds

`Store.held` is the inventory that is in the file of a store, where no file counts as an empty
inventory.  A program that is denied to change the files saves nothing (`Store.save_of_denied`).  For
any other, creating directories hides no file, and only a path to no file cannot be replaced.  So
saving that fails changes nothing (`Store.held_of_save_error`), and loading changes nothing in any
case (`Store.held_load`).
-/

namespace PluginHost

namespace Files

variable {fs fs' : Files} {p q : Path}

/-! ### Creating directories -/

/-- What a path leads to is still there after an entry has been put elsewhere, where no directory
was. -/
theorem entry_put {loc : Location} {e new : Entry} (hdirectory : fs.entryAt loc ≠ some .directory)
    (hloc : fs.entryAt loc ≠ some e) (h : fs.entry p = .ok e) :
  (fs.put loc new).entry p = .ok e
  := by
  obtain ⟨target, hresolve, htarget⟩ := entry_eq_ok_iff.1 h
  have hne : target ≠ loc := by
    rintro rfl
    apply hloc htarget
  apply entry_eq_ok_iff.2
  use target, resolve_put new hdirectory hresolve
  rw [entryAt_put_of_ne hne, htarget]

/-- A directory is created where nothing is, in a directory that is there, unless the program is
denied to. -/
theorem makeDirectory_eq_ok_iff :
  fs.makeDirectory q = .ok fs'
    ↔ ∃ loc, fs.resolve q.trimmed = .ok loc ∧ fs.entryAt loc = none
      ∧ fs.entryAt loc.dropLast = some .directory ∧ fs.denied = false
      ∧ fs' = fs.put loc .directory
  := by
  rw [makeDirectory]
  cases fs.resolve q.trimmed with
  | error e => simp [bind, Except.bind]
  | ok loc =>
    simp only [bind, Except.bind, Except.ok.injEq, exists_eq_left']
    split
    · next hthere => simp [hthere]
    · next hnone habove => simp [hnone, habove, allow_eq_ok_iff]
    · next habove => simp [habove]
    · next habove => simp [habove]

/-- What the creation of one directory keeps holds after several have been created. -/
theorem holds_of_makeEach {P : Files → Prop}
    (hkeeps : ∀ before q after, P before → before.makeDirectory q = .ok after → P after)
    {paths : List Path} (hmade : fs.makeEach paths = .ok fs') (h : P fs) :
  P fs'
  := by
  induction paths generalizing fs' with
  | nil =>
    cases hmade
    apply h
  | cons q above ih =>
    obtain ⟨made, habove, hmade⟩ := eq_ok_of_bind hmade
    split at hmade
    · next hq =>
      cases hmade
      apply hkeeps made q fs' (ih habove) hq
    · split at hmade
      · cases hmade
        apply ih habove
      · cases hmade

theorem holds_of_makeDirectories {P : Files → Prop}
    (hkeeps : ∀ before q after, P before → before.makeDirectory q = .ok after → P after)
    (hmade : fs.makeDirectories q = .ok fs') (h : P fs) :
  P fs'
  := by
  obtain ⟨paths, -, hmade⟩ := eq_ok_of_bind hmade
  apply holds_of_makeEach hkeeps hmade h

/-- What a path leads to is still there after directories have been created. -/
theorem entry_makeDirectories {e : Entry} (hmade : fs.makeDirectories q = .ok fs')
    (h : fs.entry p = .ok e) :
  fs'.entry p = .ok e
  := by
  apply holds_of_makeDirectories _ hmade h
  intro before q after hbefore hq
  obtain ⟨loc, -, hnone, -, -, rfl⟩ := makeDirectory_eq_ok_iff.1 hq
  apply entry_put _ _ hbefore
  all_goals simp [hnone]

/-- Creating directories changes nothing about what the program is denied. -/
theorem denied_makeDirectories (hmade : fs.makeDirectories q = .ok fs') :
  fs'.denied = fs.denied
  := by
  apply holds_of_makeDirectories (P := fun made => made.denied = fs.denied) _ hmade rfl
  intro before q after hbefore hq
  obtain ⟨loc, -, -, -, -, rfl⟩ := makeDirectory_eq_ok_iff.1 hq
  apply hbefore

/-- A program that is denied to change the files has created no directories. -/
theorem eq_of_makeDirectories_denied (hdenied : fs.denied = true)
    (hmade : fs.makeDirectories q = .ok fs') :
  fs' = fs
  := by
  apply holds_of_makeDirectories (P := fun made => made = fs) _ hmade rfl
  rintro before q after rfl hq
  obtain ⟨loc, -, -, -, hfree, -⟩ := makeDirectory_eq_ok_iff.1 hq
  rw [hdenied] at hfree
  cases hfree

/-- A directory that is there is not created again. -/
theorem makeDirectories_of_directory (h : fs.entry p = .ok .directory) (htrimmed : p.trimmed = p) :
  fs.makeDirectories p = .ok fs
  := by
  have hancestors : ∃ above, p.ancestors = p :: above := by
    unfold Path.ancestors Path.ancestors.go
    split
    · exact ⟨_, rfl⟩
    · exact ⟨_, rfl⟩
  obtain ⟨above, habove⟩ := hancestors
  have hmake : fs.makeDirectory p = .error .alreadyThere := by
    obtain ⟨loc, hresolve, hloc⟩ := entry_eq_ok_iff.1 h
    rw [makeDirectory, htrimmed, hresolve]
    simp only [bind, Except.bind, hloc]
  have hmissing : fs.missing p.ancestors = .ok [] := by
    rw [habove, missing]
    split
    · rfl
    · simp [hmake, isDirectory, h]
  rw [makeDirectories, hmissing]
  rfl

/-! ### Replacing a file -/

/-- A directory is still there after a file has been replaced. -/
theorem entry_replace {text : String} (hreplace : fs.replace q text = .ok fs')
    (h : fs.entry p = .ok .directory) :
  fs'.entry p = .ok .directory
  := by
  obtain ⟨-, -, loc, hfile, rfl⟩ := replace_eq_ok_iff.1 hreplace
  have hdirectory := (resolve_of_fileLocation hfile).2
  apply entry_put hdirectory hdirectory h

/-- A path that ends in a separator leads to no file. -/
theorem entryAt_of_slash {loc : Location} (hslash : p.text.toList.getLast? = some '/')
    (h : fs.resolve p = .ok loc) :
  fs.entryAt loc = some .directory
  := by
  obtain ⟨front, hpieces⟩ := Path.pieces_of_slash hslash
  rw [resolve] at h
  split at h
  · cases h
  · split at h
    · cases h
    · rw [hpieces, List.foldlM_append] at h
      obtain ⟨last, -, h⟩ := eq_ok_of_bind h
      rw [List.foldlM_cons] at h
      obtain ⟨target, hstep, h⟩ := eq_ok_of_bind h
      cases h
      -- the empty piece leads nowhere else, and only from a directory
      rw [step] at hstep
      split at hstep
      · cases hstep
      · cases hstep
      · next hlast =>
        rw [if_pos (.inl rfl)] at hstep
        cases hstep
        apply hlast

/-- A file that is there can be replaced by a program that is not denied to. -/
theorem replace_of_entry (hfree : fs.denied = false) {content : Content}
    (h : fs.entry p = .ok (.file content)) (text : String) :
  ∃ fs', fs.replace p text = .ok fs'
  := by
  obtain ⟨loc, hresolve, hloc⟩ := entry_eq_ok_iff.1 h
  have hslash : p.text.toList.getLast? ≠ some '/' := by
    intro hslash
    have hdirectory := entryAt_of_slash hslash hresolve
    rw [hloc] at hdirectory
    cases hdirectory
  have hfile : fs.fileLocation p = .ok loc := by
    rw [fileLocation, hresolve]
    simp only [bind, Except.bind, hloc]
  exact ⟨_, replace_eq_ok_iff.2 ⟨hfree, hslash, loc, hfile, rfl⟩⟩

end Files

namespace Store

variable {s : Store} {fs fs' : Files} {plugins : Inventory}

/-- The content of the file of a store, if there is a file. -/
def content? (s : Store) (fs : Files) : Option Content :=
  match fs.entry s.path with
  | .ok (.file content) => some content
  | _ => none

/-- The inventory that a store holds, where no file counts as an empty one, or the content of the
file if that is no inventory. -/
def held (s : Store) (fs : Files) : Except Content Inventory :=
  match s.content? fs with
  | none => .ok ByName.empty
  | some .binary => .error .binary
  | some (.text text) =>
    match Inventory.read? text with
    | some plugins => .ok plugins
    | none => .error (.text text)

theorem content?_eq_some_iff {content : Content} :
  s.content? fs = some content ↔ fs.entry s.path = .ok (.file content)
  := by
  rw [content?]
  constructor
  · intro h
    split at h
    · next hentry =>
      cases h
      apply hentry
    · cases h
  · intro h
    rw [h]

theorem held_congr (h : s.content? fs' = s.content? fs) :
  s.held fs' = s.held fs
  := by
  rw [held, held, h]

/-- An inventory that is in the store is what it holds. -/
theorem held_of_read (h : s.read fs = .ok plugins) :
  s.held fs = .ok plugins
  := by
  cases hentry : fs.entry s.path with
  | error reason =>
    rw [read, Files.read, hentry] at h
    cases h
  | ok entry =>
    rw [read, Files.read, hentry] at h
    cases entry with
    | directory => cases h
    | file content =>
      cases content with
      | binary => cases h
      | text text =>
        change s.parse text = _ at h
        rw [parse] at h
        rw [held, content?_eq_some_iff.2 hentry]
        cases hread : Inventory.read? text with
        | none =>
          rw [hread] at h
          cases h
        | some plugins' =>
          rw [hread] at h
          cases h
          simp only [hread]

/-- An inventory that has been saved is what the store holds. -/
theorem held_of_save_ok (h : (s.save plugins).outcome fs = (.ok (), fs')) :
  s.held fs' = .ok plugins
  := held_of_read (read_of_save h)

/-- A change of the files that fails leaves them as they are. -/
theorem outcome_onFiles_error {path : Path} {f : Files → Except FileError Files} {e : Failure}
    (h : (Attempt.onFiles path f).outcome fs = (.error e, fs')) :
  fs' = fs ∧ ∃ reason, f fs = .error reason
  := by
  rw [Attempt.onFiles, Attempt.outcome_step] at h
  cases hf : f fs with
  | ok made =>
    rw [hf] at h
    cases h
  | error reason =>
    rw [hf] at h
    cases h
    use rfl, reason

/-- A program that is denied to change the files saves no inventory, and leaves the files as they
are. -/
theorem save_of_denied (s : Store) (hdenied : fs.denied = true) (plugins : Inventory) :
  ∃ reason, (s.save plugins).outcome fs = (.error (.access s.path reason), fs)
  := by
  rw [save, Attempt.outcome_bind, Attempt.onFiles, Attempt.outcome_step]
  cases hmake : fs.makeDirectories s.directory with
  | error reason =>
    use reason
    rfl
  | ok made =>
    rw [Files.eq_of_makeDirectories_denied hdenied hmake]
    use .accessDenied
    simp [Attempt.onFiles, Attempt.outcome_step, Files.replace, hdenied, Except.mapError]

/-- Saving that fails leaves what the store holds. -/
theorem held_of_save_error {e : Failure} (h : (s.save plugins).outcome fs = (.error e, fs')) :
  s.held fs' = s.held fs
  := by
  cases hdenied : fs.denied with
  | true =>
    obtain ⟨reason, hsave⟩ := s.save_of_denied hdenied plugins
    rw [hsave] at h
    cases h
    rfl
  | false =>
    obtain hmake | ⟨⟨⟩, made, hmake, hreplace⟩ := Attempt.eq_error_of_bind h
    · rw [(outcome_onFiles_error hmake).1]
    obtain ⟨rfl, reason, hreason⟩ := outcome_onFiles_error hreplace
    have hmake := outcome_onFiles_ok hmake
    have hfree : fs'.denied = false := (Files.denied_makeDirectories hmake).trans hdenied
    apply held_congr
    -- had there been a file, it would be there still, and it would have been replaced
    have hmade : s.content? fs' = none := by
      cases hcontent : s.content? fs' with
      | none => rfl
      | some content =>
        have hentry := content?_eq_some_iff.1 hcontent
        obtain ⟨replaced, hreplaced⟩ := Files.replace_of_entry hfree hentry plugins.print
        rw [hreplaced] at hreason
        cases hreason
    cases hcontent : s.content? fs with
    | none => rw [hmade]
    | some content =>
      have hentry := Files.entry_makeDirectories hmake (content?_eq_some_iff.1 hcontent)
      rw [content?_eq_some_iff.2 hentry] at hmade
      cases hmade

/-- A store without a file holds an empty inventory. -/
theorem held_of_not_exists (h : fs.exists? s.path = false) :
  s.held fs = .ok ByName.empty
  := by
  have hcontent : s.content? fs = none := by
    cases hcontent : s.content? fs with
    | none => rfl
    | some content =>
      rw [Files.exists?, content?_eq_some_iff.1 hcontent] at h
      cases h
  rw [held, hcontent]

/-- Saving removes no directory. -/
theorem keeps_save (s : Store) (plugins : Inventory) (p : Path) :
  (s.save plugins).Keeps fun fs => fs.entry p = .ok .directory
  := by
  apply Attempt.keeps_bind
  · apply Attempt.keeps_onFiles
    intro fs fs' hmake h
    apply Files.entry_makeDirectories hmake h
  · intro made
    apply Attempt.keeps_onFiles
    intro fs fs' hreplace h
    apply Files.entry_replace hreplace h

/-- Loading removes no directory. -/
theorem keeps_load (s : Store) (p : Path) :
  s.load.Keeps fun fs => fs.entry p = .ok .directory
  := by
  apply Attempt.keeps_bind
  · apply Attempt.keeps_get
  intro fs
  split
  · apply Attempt.keeps_look
  · apply Attempt.keeps_bind (s.keeps_save _ p)
    intro saved
    apply Attempt.keeps_pure

/-- Loading leaves what the store holds, and gives that if it succeeds. -/
theorem held_load {answer : Except Failure Inventory} (h : s.load.outcome fs = (answer, fs')) :
  s.held fs' = s.held fs ∧ ∀ plugins, answer = .ok plugins → s.held fs = .ok plugins
  := by
  cases hexists : fs.exists? s.path with
  | true =>
    rw [load_of_exists hexists] at h
    obtain ⟨rfl, rfl⟩ := Prod.mk.inj h
    use rfl
    intro plugins hread
    apply held_of_read hread
  | false =>
    have hempty := held_of_not_exists hexists
    rw [load_of_missing hexists] at h
    obtain ⟨e, rfl, hsave⟩ | ⟨saved, made, hsave, hpure⟩ := Attempt.cases_of_bind h
    · use held_of_save_error hsave
      rintro plugins ⟨⟩
    · cases hpure
      rw [hempty, held_of_save_ok hsave]
      use rfl
      rintro plugins ⟨⟩
      rfl

end Store

end PluginHost

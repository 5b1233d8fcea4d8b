import Mathlib.Tactic.Use
import PluginHost.Proofs.ByteOrder
import PluginHost.Proofs.InventoryText
import PluginHost.Store

/-!
# Storing and loading the inventory

Putting an entry where no directory is leaves every path that could be followed before leading
where it did.  So a file that has been replaced reads back as what was put there
(`Files.read_replace`), and the inventory that loading gives is then in the store, also if
loading has created it (`Store.read_of_load`).  An inventory that has been saved is what loading
gives, and it is what its text is read as (`Store.inventory_agrees_with_text`).
-/

namespace PluginHost

namespace Files

variable {fs : Files} {loc : Location}

/-- If one computation after another succeeds then both do. -/
theorem eq_ok_of_bind {ε α β : Type} {x : Except ε α} {f : α → Except ε β} {b : β}
    (h : x >>= f = .ok b) :
  ∃ a, x = .ok a ∧ f a = .ok b
  := by
  cases x with
  | error e => cases h
  | ok a => exact ⟨a, rfl, h⟩

/-- The entry that a path leads to is the one at the location that it leads to. -/
theorem entry_eq_ok_iff {p : Path} {e : Entry} :
  fs.entry p = .ok e ↔ ∃ loc, fs.resolve p = .ok loc ∧ fs.entryAt loc = some e
  := by
  constructor
  · intro h
    obtain ⟨loc, hresolve, h⟩ := eq_ok_of_bind h
    split at h
    · next hloc =>
      cases h
      use loc, hresolve, hloc
    · cases h
  · rintro ⟨loc, hresolve, hloc⟩
    rw [entry, hresolve]
    simp only [bind, Except.bind, hloc]

/-- Where the program is not denied to change the files, what it makes of them is made. -/
theorem allow_eq_ok_iff {α : Type} {a b : α} :
  fs.allow a = .ok b ↔ fs.denied = false ∧ b = a
  := by
  rw [allow]
  cases fs.denied <;> simp [eq_comm]

/-! ### Putting an entry -/

theorem entryAt_put_self (h : loc ≠ []) (entry : Entry) :
  (fs.put loc entry).entryAt loc = some entry
  := by
  simp [entryAt, put, h]

theorem entryAt_put_of_ne {other : Location} (h : other ≠ loc) (entry : Entry) :
  (fs.put loc entry).entryAt other = fs.entryAt other
  := by
  have hfind : (fs.put loc entry).entries.find? (fun e => e.1 == other)
      = fs.entries.find? fun e => e.1 == other := by
    rw [put, List.find?_cons_of_neg (by simpa using Ne.symm h), List.find?_filter]
    congr
    funext e
    by_cases he : e.1 = other <;> simp [he, h]
  rw [entryAt, entryAt, hfind]

/-- A directory leads on to where it did before an entry was put elsewhere. -/
theorem step_put {other target : Location} {piece : String} (entry : Entry)
    (hloc : fs.entryAt loc ≠ some .directory) (h : fs.step other piece = .ok target) :
  (fs.put loc entry).step other piece = .ok target
  := by
  have hother : fs.entryAt other = some .directory := by
    unfold step at h
    split at h
    · cases h
    · cases h
    · assumption
  -- only directories lead on, so the step does not start from the entry
  have hne : other ≠ loc := by
    rintro rfl
    apply hloc hother
  rw [step] at h ⊢
  rw [entryAt_put_of_ne hne, h]

/-- Pieces that could be followed lead to where they did before an entry was put elsewhere. -/
theorem follow_put {pieces : List String} {start target : Location} (entry : Entry)
    (hloc : fs.entryAt loc ≠ some .directory) (h : pieces.foldlM fs.step start = .ok target) :
  pieces.foldlM (fs.put loc entry).step start = .ok target
  := by
  induction pieces generalizing start with
  | nil => apply h
  | cons piece rest ih =>
    rw [List.foldlM_cons] at h ⊢
    obtain ⟨next, hnext, h⟩ := eq_ok_of_bind h
    rw [step_put entry hloc hnext]
    apply ih h

/-- A path leads to where it did before an entry was put where no directory is. -/
theorem resolve_put {p : Path} {target : Location} (entry : Entry)
    (hloc : fs.entryAt loc ≠ some .directory) (h : fs.resolve p = .ok target) :
  (fs.put loc entry).resolve p = .ok target
  := by
  rw [resolve] at h ⊢
  by_cases hempty : p.text = ""
  · rw [if_pos hempty] at h
    cases h
  · rw [if_neg hempty] at h ⊢
    by_cases hnul : p.text.toList.contains '\x00' = true
    · rw [if_pos hnul] at h
      cases h
    · rw [if_neg hnul] at h ⊢
      apply follow_put entry hloc h

/-- The location of a file is where its path leads, and no directory is there. -/
theorem resolve_of_fileLocation {p : Path} (h : fs.fileLocation p = .ok loc) :
  fs.resolve p = .ok loc ∧ fs.entryAt loc ≠ some .directory
  := by
  obtain ⟨target, hresolve, h⟩ := eq_ok_of_bind h
  split at h
  · cases h
  · cases h
    use hresolve
    simp [*]
  · split at h
    · cases h
      use hresolve
      simp [*]
    · cases h
    · cases h

/-- A file is replaced where the program is not denied to, at a path that does not end in a separator
and leads to where a file is or may be. -/
theorem replace_eq_ok_iff {fs' : Files} {p : Path} {text : String} :
  fs.replace p text = .ok fs'
    ↔ fs.denied = false ∧ p.text.toList.getLast? ≠ some '/'
      ∧ ∃ loc, fs.fileLocation p = .ok loc ∧ fs' = fs.put loc (.file (.text text))
  := by
  rw [replace]
  cases fs.denied with
  | true => simp
  | false =>
    rw [if_neg Bool.false_ne_true]
    split
    · next hslash => simp [hslash]
    · next hslash =>
      cases fs.fileLocation p with
      | error e => simp [bind, Except.bind]
      | ok loc => simp [bind, Except.bind, pure, Except.pure, hslash, eq_comm]

/-- A file that has been replaced reads back as the text that was put there. -/
theorem read_replace {fs' : Files} {p : Path} {text : String} (h : fs.replace p text = .ok fs') :
  fs'.read p = .ok text
  := by
  obtain ⟨-, -, loc, hfile, rfl⟩ := replace_eq_ok_iff.1 h
  obtain ⟨hresolve, hloc⟩ := resolve_of_fileLocation hfile
  have hne : loc ≠ [] := by
    rintro rfl
    apply hloc rfl
  have hentry : (fs.put loc (.file (.text text))).entry p = .ok (.file (.text text)) :=
    entry_eq_ok_iff.2 ⟨loc, resolve_put _ hloc hresolve, entryAt_put_self hne _⟩
  rw [read]
  simp only [bind, Except.bind]
  rw [hentry]

/-- A file that can be read is there. -/
theorem exists_of_read {p : Path} {text : String} (h : fs.read p = .ok text) :
  fs.exists? p = true
  := by
  rw [exists?]
  cases hentry : fs.entry p with
  | error e =>
    rw [read, hentry] at h
    cases h
  | ok entry => rfl

end Files

namespace Store

variable {s : Store} {fs fs' : Files}

/-! ### Failures of the store -/

/-- Reading fails because the file cannot be accessed, or because it spells no inventory. -/
theorem eq_of_read_error {e : Failure} (h : s.read fs = .error e) :
  (∃ reason, e = .access s.path reason) ∨ e = .unreadable s.path
  := by
  unfold read at h
  cases hread : fs.read s.path with
  | error reason =>
    rw [hread] at h
    cases h
    left
    use reason
  | ok text =>
    rw [hread] at h
    change s.parse text = _ at h
    unfold parse at h
    split at h
    · cases h
    · cases h
      right
      rfl

/-- Saving fails because the file cannot be accessed. -/
theorem failsOnly_save (s : Store) (plugins : Inventory) :
  (s.save plugins).FailsOnly fun e => ∃ reason, e = .access s.path reason
  := by
  apply Attempt.failsOnly_bind
  · apply Attempt.failsOnly_onFiles
    intro reason
    use reason
  · intro made
    apply Attempt.failsOnly_onFiles
    intro reason
    use reason

/-- Loading fails because the file cannot be accessed, or because it spells no inventory. -/
theorem failsOnly_load (s : Store) :
  s.load.FailsOnly fun e => (∃ reason, e = .access s.path reason) ∨ e = .unreadable s.path
  := by
  apply Attempt.failsOnly_bind
  · apply Attempt.failsOnly_get
  intro files
  split
  · apply Attempt.failsOnly_look
    intro fs e h
    apply eq_of_read_error h
  · apply Attempt.failsOnly_bind
    · intro fs e h
      left
      apply s.failsOnly_save _ fs e h
    · intro saved
      apply Attempt.failsOnly_pure

/-! ### Saving -/

/-- A change of the files that succeeds makes the files that the function gives. -/
theorem outcome_onFiles_ok {path : Path} {f : Files → Except FileError Files}
    (h : (Attempt.onFiles path f).outcome fs = (.ok (), fs')) :
  f fs = .ok fs'
  := by
  rw [Attempt.onFiles, Attempt.outcome_step] at h
  cases hf : f fs with
  | error e =>
    rw [hf] at h
    cases h
  | ok made =>
    rw [hf] at h
    cases h
    rfl

/-- The text of an inventory that has been saved is in the file. -/
theorem read_save {plugins : Inventory} (h : (s.save plugins).outcome fs = (.ok (), fs')) :
  fs'.read s.path = .ok plugins.print
  := by
  obtain ⟨made, files, -, hreplace⟩ := Attempt.eq_ok_of_bind h
  apply Files.read_replace (outcome_onFiles_ok hreplace)

/-- Whether an inventory can be saved, and why not, depends on the files only. -/
theorem answer_save_congr (s : Store) (plugins others : Inventory) (fs : Files) :
  ((s.save plugins).outcome fs).1 = ((s.save others).outcome fs).1
  := by
  rw [save, save, Attempt.outcome_bind, Attempt.outcome_bind]
  cases (Attempt.onFiles s.path fun files => files.makeDirectories s.directory).outcome fs with
  | mk answer made =>
    cases answer with
    | error e => rfl
    | ok =>
      simp only [Attempt.onFiles, Attempt.outcome_step, Files.replace]
      by_cases hdenied : made.denied = true
      · rw [if_pos hdenied, if_pos hdenied]
      rw [if_neg hdenied, if_neg hdenied]
      by_cases hslash : s.path.text.toList.getLast? = some '/'
      · rw [if_pos hslash, if_pos hslash]
      · rw [if_neg hslash, if_neg hslash]
        cases made.fileLocation s.path <;> rfl

/-- An inventory is read back from its text. -/
theorem parse_print (s : Store) (plugins : Inventory) :
  s.parse plugins.print = .ok plugins
  := by
  rw [parse, plugins.read?_print]

/-- An inventory that has been saved is in the store. -/
theorem read_of_save {plugins : Inventory} (h : (s.save plugins).outcome fs = (.ok (), fs')) :
  s.read fs' = .ok plugins
  := by
  rw [read, read_save h]
  apply s.parse_print

/-! ### Loading -/

/-- Where the file is there it is read. -/
theorem load_of_exists (h : fs.exists? s.path = true) :
  s.load.outcome fs = (s.read fs, fs)
  := by
  rw [load, Attempt.outcome_bind, Attempt.outcome_get]
  simp only [h, if_true, Attempt.outcome_look]

/-- Where the file is missing an inventory without plugins is saved. -/
theorem load_of_missing (h : fs.exists? s.path = false) :
  s.load.outcome fs = (s.save ByName.empty >>= fun _ => pure ByName.empty).outcome fs
  := by
  rw [load, Attempt.outcome_bind, Attempt.outcome_get]
  simp only [h, Bool.false_eq_true, if_false]

/-- Loading an inventory that is in the store leaves the files as they are. -/
theorem load_of_read {plugins : Inventory} (h : s.read fs = .ok plugins) :
  s.load.outcome fs = (.ok plugins, fs)
  := by
  have hexists : fs.exists? s.path = true := by
    cases hread : fs.read s.path with
    | error e =>
      rw [read, hread] at h
      cases h
    | ok text => apply Files.exists_of_read hread
  rw [load_of_exists hexists, h]

/-- An inventory that has been loaded is in the store. -/
theorem read_of_load {plugins : Inventory} (h : s.load.outcome fs = (.ok plugins, fs')) :
  s.read fs' = .ok plugins
  := by
  cases hexists : fs.exists? s.path with
  | true =>
    rw [load_of_exists hexists] at h
    obtain ⟨hread, rfl⟩ := Prod.mk.inj h
    apply hread
  | false =>
    rw [load_of_missing hexists] at h
    obtain ⟨saved, made, hsave, hpure⟩ := Attempt.eq_ok_of_bind h
    cases hpure
    apply read_of_save hsave

/-! ### Inventories and their texts -/

/-- An inventory and its text agree, whatever characters are in its names, locators, registries and
versions, and whatever changes it comes from.  Each record is found under its own name and no
other, also after a record has been added or erased, or an installation has been changed.  The
names are those of the records, in strictly increasing order of their bytes.  The inventory is
read back from its text.  It can be saved where any other inventory can be, and once it has been
saved it is what loading gives, without changing the files.  Two texts that list the same
installations under distinct names, in whatever order, are read as the same inventory, and its
entries are these. -/
theorem inventory_agrees_with_text (s : Store) (r : Inventory) :
  (∀ name record, r.record? name = some record ↔ record ∈ r.records ∧ record.name = name)
    ∧ (∀ record name,
      (r.add record).record? name = if record.name = name then some record else r.record? name)
    ∧ (∀ gone name,
      Inventory.record? (r.erase gone) name = if gone = name then none else r.record? name)
    ∧ (∀ changed change name, (r.adjust changed change).record? name
      = if changed = name then (r.get? name).map fun i => (change i).record name
        else r.record? name)
    ∧ r.records.map (·.name) = r.names
    ∧ (r.names.map Text.Utf8.bytesOf).Pairwise (· < ·)
    ∧ s.parse r.print = .ok r
    ∧ (∀ r' fs, ((s.save r).outcome fs).1 = ((s.save r').outcome fs).1)
    ∧ (∀ fs fs', (s.save r).outcome fs = (.ok (), fs') → s.load.outcome fs' = (.ok r, fs'))
    ∧ ∀ text text' entries entries', Inventory.Lists text entries → Inventory.Lists text' entries' →
      entries.Perm entries' → (entries.map (·.1)).Nodup →
      ∃ r' : Inventory, s.parse text = .ok r' ∧ s.parse text' = .ok r'
        ∧ ∀ e, e ∈ r'.entries ↔ e ∈ entries
  := by
  constructor
  · intro name record
    apply Inventory.record?_eq_some_iff
  constructor
  · apply r.record?_add
  constructor
  · apply r.record?_erase
  constructor
  · intro changed change name
    apply r.record?_adjust
  use r.map_name_records
  constructor
  · rw [List.pairwise_map]
    apply r.pairwise_names.imp
    intro name other h
    apply Text.Utf8.bytesOf_lt_iff.2 h
  use s.parse_print r
  constructor
  · apply s.answer_save_congr
  constructor
  · intro fs fs' h
    apply load_of_read (read_of_save h)
  · intro text text' entries entries' htext htext' hperm hnames
    have hnames' : (entries'.map (·.1)).Nodup := (hperm.map _).nodup_iff.1 hnames
    use ByName.ofList entries
    constructor
    · rw [parse, Inventory.read?_of_lists htext hnames]
    constructor
    · rw [parse, Inventory.read?_of_lists htext' hnames', ByName.ofList_perm hperm hnames]
    · rintro ⟨name, i⟩
      rw [← ByName.get?_eq_some_iff, ByName.get?_ofList_eq_some_iff hnames]

/-- Two installations with a quote, a backslash, controls and letters beyond ASCII, out of order. -/
def oddEntries : List (String × Installation) :=
  [("zürich \"1\"", ⟨"C:\\plugins", "https://r.example/", "1.0\n"⟩), ("", ⟨"\x00", "✓", ""⟩)]

/-- A store in the root directory. -/
def oddStore : Store := ⟨⟨"/plugins.json"⟩⟩

/-- The inventory of the two is saved where nothing is and then loaded, and it is read from texts
that list the two in either order. -/
theorem inventory_agrees_with_text_of_odd :
  ∃ (r : Inventory) (fs' : Files), (oddStore.save r).outcome ⟨[], ⟨"/"⟩, false⟩ = (.ok (), fs')
    ∧ oddStore.load.outcome fs' = (.ok r, fs')
    ∧ oddStore.parse (Inventory.listing oddEntries) = .ok r
    ∧ oddStore.parse (Inventory.listing oddEntries.reverse) = .ok r
    ∧ r.names = ["", "zürich \"1\""]
  := by
  have hnames : (oddEntries.map (·.1)).Nodup := by
    decide
  have htexts := inventory_agrees_with_text oddStore (ByName.ofList oddEntries)
  obtain ⟨-, -, -, -, -, -, -, -, hload, htexts⟩ := htexts
  obtain ⟨r, hparse, hparse', hentries⟩ := htexts _ _ _ _ (Inventory.lists_listing oddEntries)
    (Inventory.lists_listing oddEntries.reverse) (List.reverse_perm _).symm hnames
  obtain rfl : r = ByName.ofList oddEntries := by
    apply ByName.ext_get?
    intro name
    apply Option.ext
    intro i
    rw [ByName.get?_eq_some_iff, hentries, ByName.get?_ofList_eq_some_iff hnames]
  have hsave : ((oddStore.save (ByName.ofList oddEntries)).outcome ⟨[], ⟨"/"⟩, false⟩).1 = .ok () := by
    decide +kernel
  have hsorted : (ByName.ofList oddEntries).names = ["", "zürich \"1\""] := by
    decide +kernel
  obtain ⟨fs', hsaved⟩ : ∃ fs', (oddStore.save (ByName.ofList oddEntries)).outcome ⟨[], ⟨"/"⟩, false⟩
      = (.ok (), fs') := ⟨_, Prod.ext hsave rfl⟩
  exact ⟨_, fs', hsaved, hload _ fs' hsaved, hparse, hparse', hsorted⟩

end Store

end PluginHost

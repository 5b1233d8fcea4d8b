import PluginHost.Proofs.Installing
import PluginHost.Proofs.LocatorText

/-!
# Locators that last

What is stored as the locator of an installed package is not what it was installed from: of a package
of a registry only the name is stored, and paths are absolute.  A stored locator is `Lasting` if it
is read as a locator of the same kind, and if the package that is installed from it, in whatever
directory the program is, is the one that it names.  The locators that last are those without
blanks at the end that do not end as an archive if they are names, and that are URLs still if they
are URLs of files (`Manager.stored_locator_lasts_iff`).
-/

namespace PluginHost

namespace Path

/-- The path that is seen from an absolute one is absolute. -/
theorem isAbsolute_absolute {here : Path} (h : here.isAbsolute = true) (p : Path) :
  (absolute here p).isAbsolute = true
  := by
  rw [absolute]
  split
  · assumption
  · dsimp only
    split
    · apply isAbsolute_below (isAbsolute_foldl_below h _)
    · apply isAbsolute_foldl_below h

/-- The text of an absolute path begins with a separator. -/
theorem toList_of_isAbsolute {p : Path} (h : p.isAbsolute = true) :
  ∃ rest, p.text.toList = '/' :: rest
  := by
  rw [isAbsolute, beq_iff_eq] at h
  apply List.head?_eq_some_iff.1 h

/-- The first name of a path begins as its text does, if that does not begin with a separator. -/
theorem head?_names {c : Char} (hc : c ≠ '/') (rest : List Char) :
  ∃ piece, (names ⟨String.ofList (c :: rest)⟩).head? = some (String.ofList (c :: piece))
  := by
  obtain ⟨piece, others, hpieces⟩ : ∃ piece others,
      Text.splitOn '/' (c :: rest) = (c :: piece) :: others := by
    rw [Text.splitOn, if_neg hc]
    cases hsplit : Text.splitOn '/' rest with
    | nil => cases Text.splitOn_ne_nil _ _ hsplit
    | cons piece others => exact ⟨piece, others, rfl⟩
  use piece
  have hname : isName 0 (String.ofList (c :: piece)) = true := by
    simp [isName]
  rw [names, pieces, String.toList_ofList, hpieces, List.map_cons, List.zipIdx_cons,
    List.filter_cons, if_pos hname]
  rfl

/-- A path does not start from a home directory unless its text begins with a tilde. -/
theorem isHome_of_cons {c : Char} (hc : c ≠ '/') (htilde : c ≠ '~') (rest : List Char) :
  isHome ⟨String.ofList (c :: rest)⟩ = false
  := by
  obtain ⟨piece, hpiece⟩ := head?_names hc rest
  rw [isHome, hpiece, beq_eq_false_iff_ne]
  intro h
  have hchars := congrArg String.toList (Option.some.inj h)
  rw [String.toList_ofList] at hchars
  apply htilde (List.cons.inj hchars).1

end Path

namespace Manager

open PackageManager (Request)

variable {σ : Type} {m : Manager σ} {text : List Char} {raw stored handed : String} {here : Path}
  {l : Locator}

theorem isRegistryLocator_of_read [DomainNames] (h : Locator.read raw = .ok l) :
  isRegistryLocator raw = l.registryName?.isSome
  := by
  rw [isRegistryLocator, h]
  rfl

/-! ### Paths in locators -/

theorem isLocal_of_absolute {p : Path} (h : p.isAbsolute = true) :
  isLocal p = false
  := by
  rw [isLocal, h]
  rfl

/-- The path in a locator that starts from the directory of the program, if there is one, and the
text in front of it. -/
def localPart? (text : List Char) : Locator → Option (List Char × List Char)
  | .directory _ | .archive _ => if isLocal ⟨String.ofList text⟩ then some ([], text) else none
  | .url u =>
    if u.scheme = "file" then
      ((Text.dropStart fileScheme text).filter fun cs => isLocal ⟨String.ofList cs⟩).map
        fun cs => (fileScheme, cs)
    else none
  | .registry .. => none

/-- A locator is handed to the package manager as it is written, except that such a path in it is
made absolute. -/
theorem pin_of_read [DomainNames] (h : Locator.read raw = .ok l) (here : Path) :
  pin here raw l
    = match localPart? (Text.trimChars raw.toList) l with
      | none => .ok (Text.trim raw)
      | some (front, cs) => do
        return String.ofList front ++ (← pinPath here ⟨String.ofList cs⟩).text
  := by
  obtain ⟨-, hspells⟩ := Locator.read_eq_ok_iff.1 h
  cases hspells with
  | directory =>
    rw [pin, localPart?]
    split
    · simp
    · rfl
  | archive =>
    rw [pin, localPart?]
    split
    · simp
    · rfl
  | registry => rfl
  | url =>
    rw [pin, localPart?, Text.toList_trim]
    split
    · cases Text.dropStart fileScheme (Text.trimChars raw.toList) with
      | none => rfl
      | some cs =>
        simp only [Option.map_some, Option.filter]
        split
        · rfl
        · rfl
    · rfl

/-- What is handed to the package manager is the text of the locator, or it has an absolute path in
the place of the one in the locator. -/
theorem cases_of_pin [DomainNames] (h : Locator.read raw = .ok l)
    (hpin : pin here raw l = .ok handed) :
  (localPart? (Text.trimChars raw.toList) l = none ∧ handed = Text.trim raw)
    ∨ ∃ front cs, localPart? (Text.trimChars raw.toList) l = some (front, cs) ∧ cs ≠ []
      ∧ handed.toList = front ++ (Path.absolute here ⟨String.ofList cs⟩).text.toList
  := by
  rw [pin_of_read h] at hpin
  cases hpart : localPart? (Text.trimChars raw.toList) l with
  | none =>
    rw [hpart] at hpin
    left
    use rfl, (Except.ok.inj hpin).symm
  | some part =>
    obtain ⟨front, cs⟩ := part
    rw [hpart] at hpin
    right
    use front, cs, rfl
    by_cases hcs : cs = []
    · subst hcs
      cases hpin
    · use hcs
      have hpath : pinPath here ⟨String.ofList cs⟩
          = .ok (Path.absolute here ⟨String.ofList cs⟩) := by
        rw [pinPath, if_neg]
        simpa using hcs
      dsimp only at hpin
      rw [hpath] at hpin
      rw [← Except.ok.inj hpin, String.toList_append, String.toList_ofList]

/-- The path in a locator is the end of its text, behind the scheme if the locator is a URL. -/
theorem localPart?_eq_some {front cs : List Char} (h : localPart? text l = some (front, cs)) :
  text = front ++ cs ∧ isLocal ⟨String.ofList cs⟩ = true ∧ l.registryName? = none
    ∧ (front = [] ∨ front = fileScheme ∧ ∃ u, l = .url u)
  := by
  cases l with
  | registry name version => cases h
  | directory p =>
    rw [localPart?] at h
    split at h
    · next hlocal =>
      cases h
      use rfl, hlocal, rfl, .inl rfl
    · cases h
  | archive p =>
    rw [localPart?] at h
    split at h
    · next hlocal =>
      cases h
      use rfl, hlocal, rfl, .inl rfl
    · cases h
  | url u =>
    rw [localPart?] at h
    split at h
    · obtain ⟨cs, hcs, h⟩ := Option.map_eq_some_iff.1 h
      cases h
      obtain ⟨hdrop, hlocal⟩ := Option.filter_eq_some_iff.1 hcs
      use Text.dropStart_eq_some_iff.1 hdrop, hlocal, rfl
      right
      use rfl, u
    · cases h

/-! ### Settled locators -/

/-- Whether a text is a locator that is handed to the package manager as it is, whichever directory
the program is in. -/
structure Settled [DomainNames] (stored : String) (l : Locator) : Prop where
  read : Locator.read stored = .ok l
  trimmed : Text.trim stored = stored
  still : localPart? stored.toList l = none

theorem pin_of_settled [DomainNames] (h : Settled stored l) (here : Path) :
  pin here stored l = .ok stored
  := by
  have htrimmed : Text.trimChars stored.toList = stored.toList := by
    rw [← Text.toList_trim, h.trimmed]
  rw [pin_of_read h.read, htrimmed, h.still, h.trimmed]

/-- A locator that is handed to the package manager as it is, with the program in one directory, is
so with the program in any. -/
theorem settled_of_pin [DomainNames] (hhere : here.isAbsolute = true)
    (h : Locator.read stored = .ok l) (hpin : pin here stored l = .ok stored) :
  Settled stored l
  := by
  obtain ⟨hpart, htrim⟩ | ⟨front, cs, hpart, hcs, htext⟩ := cases_of_pin h hpin
  · use h, htrim.symm
    rw [htrim, Text.toList_trim]
    apply hpart
  · -- the path would be at the end of the text and begin as the absolute one, so it would be absolute
    exfalso
    obtain ⟨htrim, hlocal, -, hfront⟩ := localPart?_eq_some hpart
    obtain ⟨rest, hrest⟩ := Path.toList_of_isAbsolute
      (Path.isAbsolute_absolute hhere ⟨String.ofList cs⟩)
    rw [hrest] at htext
    have hbegin : front ++ cs <+: front ++ '/' :: rest := by
      rw [← htrim, htext]
      obtain rfl | ⟨rfl, -⟩ := hfront
      · apply Text.trimChars_prefix_of_cons rfl
      · apply Text.trimChars_prefix_of_cons rfl
    rw [List.prefix_append_right_inj] at hbegin
    obtain ⟨c, others, rfl⟩ := List.exists_cons_of_ne_nil hcs
    obtain ⟨rfl, -⟩ := List.cons_prefix_cons.1 hbegin
    rw [isLocal_of_absolute] at hlocal
    · cases hlocal
    · rw [Path.isAbsolute, String.toList_ofList]
      rfl

/-! ### Installing again -/

/-- Whether a locator that is stored keeps the meaning of the one that a package was installed
from.  It is read, and as a package of a registry if and only if the other is, which is then its
name without a version.  If it is installed from, in whatever session, then the package manager is
handed the text itself, and if that succeeds then the text itself is stored again. -/
structure Lasting [DomainNames] (m : Manager σ) (raw stored : String) : Prop where
  read : ∃ l, Locator.read stored = .ok l
  kind : isRegistryLocator stored = isRegistryLocator raw
  name : isRegistryLocator raw = true → Locator.read stored = .ok (.registry stored none)
  handed : ∀ s registry, ∃ more,
    asked (m.noting.installPackage stored registry) s = .install stored registry :: more
      ∧ ∀ q ∈ more, q = .identify stored
  again : ∀ s t registry record, (m.installPackage stored registry).outcome s = (.ok record, t) →
    record.locator = stored

variable {s t : Session σ} {registry : String} {record : Record}

/-- What the record of a package stores as its locator: the name of a package of a registry, or what
has been handed to the package manager. -/
theorem locator_of_installPackage [DomainNames]
    (h : (m.installPackage raw registry).outcome s = (.ok record, t)) :
  ∃ l handed, Locator.read raw = .ok l ∧ pin (m.files s).here raw l = .ok handed
    ∧ record.locator = l.registryName?.getD handed
  := by
  rw [installPackage_eq] at h
  obtain ⟨record', u, hobtain, h⟩ := Attempt.eq_ok_of_bind h
  obtain ⟨⟨⟩, v, -, h⟩ := Attempt.eq_ok_of_bind h
  cases h
  cases recordOf_of_obtainPackage hobtain with
  | intro hread hpin _ _ => exact ⟨_, _, hread, hpin, rfl⟩

/-- If the package manager is handed a locator as it is, then it is read and settled. -/
theorem settled_of_asked [DomainNames] (hhere : (m.files s).here.isAbsolute = true)
    {more : List Request} (hread : Locator.read stored = .ok l)
    (h : asked (m.noting.installPackage stored registry) s = .install stored registry :: more) :
  Settled stored l
  := by
  apply settled_of_pin hhere hread
  cases hpin : pin (m.files s).here stored l with
  | error e =>
    have hlook : pin (m.noting.files (s.withNotes [])).here stored l = .error e := hpin
    rw [asked, installPackage, hread] at h
    dsimp only at h
    rw [Attempt.outcome_bind, Attempt.outcome_look, hlook] at h
    cases h
  | ok handed =>
    obtain ⟨others, hothers, -⟩ := notes_installPackage hread hpin registry []
    rw [asked, hothers] at h
    cases h
    rfl

/-- A locator lasts exactly if it is settled, and read as a package of a registry exactly if it is
the name of one. -/
theorem lasting_iff [DomainNames] (hhere : (m.files s).here.isAbsolute = true) :
  m.Lasting raw stored ↔
    ∃ l, Settled stored l ∧ isRegistryLocator raw = l.registryName?.isSome
      ∧ ∀ name, l.registryName? = some name → l = .registry stored none
  := by
  constructor
  · intro h
    obtain ⟨l, hread⟩ := h.read
    obtain ⟨more, hmore, -⟩ := h.handed s ""
    use l, settled_of_asked hhere hread hmore
    have hkind := h.kind
    rw [isRegistryLocator_of_read hread] at hkind
    use hkind.symm
    intro name hname
    rw [hname] at hkind
    have hstored := h.name hkind.symm
    rw [hread] at hstored
    apply Except.ok.inj hstored
  · rintro ⟨l, hsettled, hkind, hname⟩
    constructor
    · use l, hsettled.read
    · rw [isRegistryLocator_of_read hsettled.read, hkind]
    · intro hregistry
      rw [hkind] at hregistry
      obtain ⟨name, hsome⟩ := Option.isSome_iff_exists.1 hregistry
      rw [hsettled.read, hname name hsome]
    · intro s registry
      apply notes_installPackage hsettled.read (pin_of_settled hsettled _) registry []
    · intro s t registry record h
      obtain ⟨l', handed, hread, hpin, hlocator⟩ := locator_of_installPackage h
      rw [hsettled.read] at hread
      cases hread
      rw [pin_of_settled hsettled] at hpin
      cases hpin
      rw [hlocator]
      cases hregistry : l.registryName? with
      | none => rfl
      | some name =>
        rw [hname name hregistry] at hregistry
        cases hregistry
        rfl

/-! ### What lasts -/

theorem settled_of_spells [DomainNames] (hne : stored.toList ≠ [])
    (htrim : Text.trim stored = stored)
    (hspells : Locator.Spells stored.toList l) (hstill : localPart? stored.toList l = none) :
  Settled stored l
  := by
  refine ⟨Locator.read_eq_ok_iff.2 ?_, htrim, hstill⟩
  rw [← Text.toList_trim, htrim]
  use hne

/-- A trimmed text that begins as an absolute path is a settled locator. -/
theorem settled_of_absolute [DomainNames] (htrim : Text.trim stored = stored)
    (habsolute : Path.isAbsolute ⟨stored⟩ = true) :
  ∃ l, Settled stored l ∧ l.registryName? = none
  := by
  obtain ⟨rest, hrest⟩ := Path.toList_of_isAbsolute habsolute
  change stored.toList = _ at hrest
  have hne : stored.toList ≠ [] := by
    rw [hrest]
    apply List.cons_ne_nil
  have hpath : Locator.startsAsPath stored.toList = true := by
    rw [hrest]
    rfl
  have hstill : isLocal ⟨String.ofList stored.toList⟩ = false := by
    rw [String.ofList_toList]
    apply isLocal_of_absolute habsolute
  cases harchive : Locator.isArchive stored.toList with
  | true =>
    use .archive ⟨String.ofList stored.toList⟩
    constructor
    · apply settled_of_spells hne htrim (.archive (.inl hpath) harchive)
      rw [localPart?, hstill]
      rfl
    · rfl
  | false =>
    use .directory ⟨String.ofList stored.toList⟩
    constructor
    · apply settled_of_spells hne htrim (.directory hpath harchive)
      rw [localPart?, hstill]
      rfl
    · rfl

/-- The URL of a file with an absolute path is a settled locator, if it is trimmed. -/
theorem settled_of_file [DomainNames] {p : Path} (habsolute : p.isAbsolute = true)
    (hstored : stored.toList = fileScheme ++ p.text.toList)
    (htrim : Text.trim stored = stored) (hurl : (Url.read stored).isOk = true) :
  ∃ l, Settled stored l ∧ l.registryName? = none
  := by
  cases hread : Url.read stored with
  | error e =>
    rw [hread] at hurl
    cases hurl
  | ok u =>
    have hscheme : u.scheme = "file" := by
      apply Url.scheme_of_read_file p.text.toList
      rw [← hstored, String.ofList_toList]
      apply hread
    use .url u
    constructor
    · apply settled_of_spells _ htrim
      · apply Locator.Spells.url
        · rw [hstored]
          rfl
        · rw [Locator.url?, String.ofList_toList, hread]
          simp [Except.toOption, hscheme, Locator.schemes]
      · have hdrop : Text.dropStart fileScheme stored.toList = some p.text.toList :=
          Text.dropStart_eq_some_iff.2 hstored
        simp [localPart?, hscheme, hdrop, isLocal_of_absolute habsolute]
      · rw [hstored]
        apply List.cons_ne_nil
    · rfl

/-- As a path, a text after the scheme of files would start from the directory of the program. -/
theorem isLocal_of_fileScheme (rest : List Char) :
  isLocal ⟨String.ofList (fileScheme ++ rest)⟩ = true
  := by
  have habsolute : Path.isAbsolute ⟨String.ofList (fileScheme ++ rest)⟩ = false := by
    rw [Path.isAbsolute, String.toList_ofList]
    rfl
  have hhome : Path.isHome ⟨String.ofList (fileScheme ++ rest)⟩ = false := by
    apply Path.isHome_of_cons
    · decide
    · decide
  rw [isLocal, habsolute, hhome]
  rfl

/-- If a text after the scheme of files is a settled locator then it is a URL. -/
theorem isOk_of_settled [DomainNames] (h : Settled stored l) (hfile : fileScheme <+: stored.toList)
    (hname : ∀ name, l.registryName? = some name → l = .registry stored none) :
  (Url.read stored).isOk = true
  := by
  obtain ⟨rest, hrest⟩ := hfile
  obtain ⟨-, hspells⟩ := Locator.read_eq_ok_iff.1 h.read
  have hstill := h.still
  rw [← Text.toList_trim, h.trimmed] at hspells
  cases hspells with
  | directory hpath _ =>
    rw [← hrest] at hpath
    cases hpath
  | archive _ _ =>
    rw [localPart?, ← hrest, isLocal_of_fileScheme] at hstill
    cases hstill
  | url _ hurl =>
    rw [Locator.url?, String.ofList_toList] at hurl
    cases hread : Url.read stored with
    | error e =>
      rw [hread] at hurl
      cases hurl
    | ok u => rfl
  | registry _ _ _ hnamed =>
    cases hname _ rfl
    obtain ⟨-, hpackage, -⟩ := Locator.readRegistry?_name hnamed
    have hcolon : ':' ∈ stored.toList := by
      rw [← hrest]
      simp [fileScheme]
    cases Locator.isNameChar_of_mem hpackage hcolon

/-- The locator that is stored when a package is installed, with the program in some directory,
lasts if and only if there are no blanks at its ends, it does not end as an archive if it is the
name of a package of a registry, and it is a URL if it has the scheme of files.  All else that is
stored keeps its meaning. -/
theorem stored_locator_lasts_iff [DomainNames] (m : Manager σ) {s t : Session σ}
    {raw registry : String} {record : Record} (hhere : (m.files s).here.isAbsolute = true)
    (h : (m.installPackage raw registry).outcome s = (.ok record, t)) :
  m.Lasting raw record.locator ↔
    Text.trim record.locator = record.locator
      ∧ (isRegistryLocator raw = true → Locator.isArchive record.locator.toList = false)
      ∧ (fileScheme <+: record.locator.toList → (Url.read record.locator).isOk = true)
  := by
  rw [lasting_iff hhere]
  constructor
  · rintro ⟨l, hsettled, hkind, hname⟩
    use hsettled.trimmed
    constructor
    · intro hregistry
      rw [hkind] at hregistry
      obtain ⟨name, hsome⟩ := Option.isSome_iff_exists.1 hregistry
      have hread := hsettled.read
      rw [hname name hsome] at hread
      have harchive := Locator.not_isArchive_of_read hread
      rw [← Text.toList_trim, hsettled.trimmed] at harchive
      apply harchive
    · intro hfile
      apply isOk_of_settled hsettled hfile hname
  · rintro ⟨htrim, harchive, hurl⟩
    obtain ⟨l, handed, hread, hpin, hlocator⟩ := locator_of_installPackage h
    have hkind := isRegistryLocator_of_read hread
    rw [hkind] at harchive ⊢
    cases hname : l.registryName? with
    | some name =>
      obtain ⟨version, rfl⟩ : ∃ version, l = .registry name version := by
        cases l with
        | registry _ version =>
          cases hname
          use version
        | _ => cases hname
      obtain rfl : record.locator = name := hlocator
      use .registry record.locator none
      constructor
      · use Locator.read_name hread (harchive rfl), htrim
        rfl
      · use rfl
        rintro name ⟨⟩
        rfl
    | none =>
      rw [hname] at hlocator
      obtain rfl : record.locator = handed := hlocator
      have hclose : ∀ l', Settled record.locator l' → l'.registryName? = none →
          ∃ l', Settled record.locator l' ∧ (none : Option String).isSome = l'.registryName?.isSome
            ∧ ∀ name, l'.registryName? = some name → l' = .registry record.locator none := by
        intro l' hsettled hnone
        use l', hsettled
        rw [hnone]
        use rfl
        rintro name ⟨⟩
      obtain ⟨hpart, hhanded⟩ | ⟨front, cs, hpart, -, htext⟩ := cases_of_pin hread hpin
      · apply hclose l _ hname
        rw [hhanded]
        use Locator.read_trim hread, Text.trim_trim raw
        rw [Text.toList_trim]
        apply hpart
      · have habsolute := Path.isAbsolute_absolute hhere ⟨String.ofList cs⟩
        obtain ⟨-, -, -, rfl | ⟨rfl, -⟩⟩ := localPart?_eq_some hpart
        · obtain ⟨l', hsettled, hnone⟩ : ∃ l', Settled record.locator l' ∧ l'.registryName? = none := by
            apply settled_of_absolute htrim
            rw [Path.isAbsolute, htext]
            apply habsolute
          apply hclose l' hsettled hnone
        · obtain ⟨l', hsettled, hnone⟩ := settled_of_file habsolute htext htrim
            (hurl ⟨_, htext.symm⟩)
          apply hclose l' hsettled hnone

attribute [local instance] Url.codedNames

/-- The name of a package of a registry that does not end as an archive lasts. -/
theorem stored_locator_lasts_iff_of_quiet :
  ∃ record t, (quietManager.installPackage "data@1" "r").outcome (quietManager.start quietMachine)
      = (.ok record, t)
    ∧ record.locator = "data" ∧ quietManager.Lasting "data@1" "data"
  := by
  have hlocator : ((quietManager.installPackage "data@1" "r").outcome
      (quietManager.start quietMachine)).1.toOption.map (·.locator) = some "data" := by
    decide +kernel
  obtain ⟨record, t, hrun, hdata⟩ := Attempt.exists_ok_of_map hlocator
  use record, t, hrun, hdata
  have hiff := stored_locator_lasts_iff quietManager rfl hrun
  rw [hdata] at hiff
  apply hiff.2
  decide +kernel

/-- A shelf with a package whose name ends as an archive does. -/
def archiveShelf : Shelf where
  files := ⟨[], ⟨"/"⟩, false⟩
  packages := [("foo.tgz@1.0.0", ⟨⟨"foo.tgz", "1.0.0"⟩, [], none⟩)]
  kept := []
  registry := none
  calls := []

/-- The name of a package of a registry that ends as an archive does is read as an archive when it
is stored, and so it does not last. -/
theorem name_like_archive_does_not_last :
  ∃ record t, (sample.installPackage "foo.tgz@1.0.0" "r").outcome (sample.start archiveShelf)
      = (.ok record, t)
    ∧ ¬ sample.Lasting "foo.tgz@1.0.0" record.locator
  := by
  have hlocator : ((sample.installPackage "foo.tgz@1.0.0" "r").outcome
      (sample.start archiveShelf)).1.toOption.map (·.locator) = some "foo.tgz" := by
    decide +kernel
  obtain ⟨record, t, hrun, hname⟩ := Attempt.exists_ok_of_map hlocator
  use record, t, hrun
  rw [hname]
  intro hlasting
  have hkind := hlasting.kind
  revert hkind
  decide +kernel

end Manager

end PluginHost

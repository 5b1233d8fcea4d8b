import PluginHost.Proofs.Lasting

/-!
# Places that are handed to a package manager

The package manager works in a directory of its own, so a place in the locator that it is handed has
to be fixed: an absolute path, or one that starts from a home directory (`Manager.IsFixed`).  For a
path or an archive it always is.  For the URL of a file it is if the scheme is spelled in small
letters at the front of the text; with any other spelling of the scheme the text is handed over as it
is (`Manager.handed_place_fixed_iff`, `Manager.capital_scheme_leaves_place_local`).
-/

namespace PluginHost

namespace Locator

/-- Whether a locator says where files are: in a directory, in an archive, or at the URL of a file. -/
def OfFiles : Locator → Prop
  | directory _ | archive _ => True
  | url u => u.scheme = "file"
  | registry .. => False

/-- The path in a text that spells a locator: behind the first colon, which ends the scheme, in a URL,
and the whole text in any other. -/
def place (l : Locator) (text : String) : Path :=
  match l with
  | url _ => ⟨String.ofList (((Text.cutFirst [':'] text.toList).map (·.2)).getD text.toList)⟩
  | _ => ⟨text⟩

end Locator

namespace Manager

open PackageManager (Request)

variable {σ : Type} {m : Manager σ} {s : Session σ} {raw registry handed used : String}
  {here : Path} {l : Locator}

/-- Whether a path does not depend on the directory that a program is in. -/
def IsFixed (p : Path) : Prop := p.isAbsolute = true ∨ p.isHome = true

theorem isFixed_iff {p : Path} :
  IsFixed p ↔ isLocal p = false
  := by
  simp [IsFixed, isLocal, or_iff_not_imp_left]

/-- If the package manager is asked to install something for a locator then that is what the locator
becomes in the directory of the program. -/
theorem pin_of_asked [DomainNames] (hread : Locator.read raw = .ok l)
    (h : .install handed used ∈ asked (m.noting.installPackage raw registry) s) :
  pin (m.files s).here raw l = .ok handed
  := by
  cases hpin : pin (m.files s).here raw l with
  | error e =>
    have hlook : pin (m.noting.files (s.withNotes [])).here raw l = .error e := hpin
    rw [asked, installPackage, hread] at h
    dsimp only at h
    rw [Attempt.outcome_bind, Attempt.outcome_look, hlook] at h
    cases h
  | ok text =>
    obtain ⟨more, hmore, hkind⟩ := notes_installPackage hread hpin registry []
    rw [asked, hmore, List.nil_append, List.mem_cons] at h
    obtain h | h := h
    · cases h
      rfl
    · cases hkind _ h

/-- Behind the scheme of files is what stands behind the first colon. -/
theorem place_fileScheme {u : Url} {text : String} {cs : List Char}
    (h : text.toList = fileScheme ++ cs) :
  (Locator.url u).place text = ⟨String.ofList cs⟩
  := by
  have hcut : Text.cutFirst [':'] (fileScheme ++ cs) = some (['f', 'i', 'l', 'e'], cs) := rfl
  rw [Locator.place, h, hcut]
  rfl

/-- A path that is made absolute is fixed. -/
theorem isFixed_absolute (hhere : here.isAbsolute = true) (p : Path) :
  IsFixed (Path.absolute here p)
  := .inl (Path.isAbsolute_absolute hhere p)

/-- What is handed to the package manager for a path or an archive is a fixed path. -/
theorem isFixed_of_pin [DomainNames] (hhere : here.isAbsolute = true)
    (hread : Locator.read raw = .ok l) (hpin : pin here raw l = .ok handed)
    (hpart : ∀ text, localPart? text l
      = if isLocal ⟨String.ofList text⟩ then some ([], text) else none) :
  IsFixed ⟨handed⟩
  := by
  obtain ⟨hnone, rfl⟩ | ⟨front, cs, hsome, -, htext⟩ := cases_of_pin hread hpin
  · rw [hpart] at hnone
    rw [isFixed_iff, Text.trim]
    split at hnone
    · cases hnone
    · next hlocal => apply eq_false_of_ne_true hlocal
  · rw [hpart] at hsome
    split at hsome
    · cases hsome
      left
      rw [Path.isAbsolute, htext]
      apply Path.isAbsolute_absolute hhere
    · cases hsome

/-- What is handed to the package manager for the URL of a file is the text itself, unless that begins
with the scheme in small letters.  Then the path behind the scheme is fixed. -/
theorem cases_of_pin_file [DomainNames] {u : Url} (hhere : here.isAbsolute = true)
    (hread : Locator.read raw = .ok (.url u)) (hfile : u.scheme = "file")
    (hpin : pin here raw (.url u) = .ok handed) :
  (¬ fileScheme <+: (Text.trim raw).toList ∧ handed = Text.trim raw)
    ∨ fileScheme <+: (Text.trim raw).toList ∧ IsFixed ((Locator.url u).place handed)
  := by
  have hpart : ∀ text, localPart? text (.url u)
      = ((Text.dropStart fileScheme text).filter fun cs => isLocal ⟨String.ofList cs⟩).map
        fun cs => (fileScheme, cs) := by
    intro text
    rw [localPart?, if_pos hfile]
  rw [Text.toList_trim]
  obtain ⟨hnone, rfl⟩ | ⟨front, cs, hsome, -, htext⟩ := cases_of_pin hread hpin
  · rw [hpart] at hnone
    cases hdrop : Text.dropStart fileScheme (Text.trimChars raw.toList) with
    | none =>
      left
      refine ⟨?_, rfl⟩
      rintro ⟨rest, hrest⟩
      rw [Text.dropStart_eq_some_iff.2 hrest.symm] at hdrop
      cases hdrop
    | some cs =>
      right
      have hcs := Text.dropStart_eq_some_iff.1 hdrop
      use ⟨cs, hcs.symm⟩
      rw [hdrop] at hnone
      rw [place_fileScheme (by rw [Text.toList_trim, hcs]), isFixed_iff]
      cases hlocal : isLocal ⟨String.ofList cs⟩ with
      | false => rfl
      | true => simp [hlocal] at hnone
  · right
    obtain ⟨hcs, -, -, -⟩ := localPart?_eq_some hsome
    rw [hpart] at hsome
    obtain ⟨rest, -, hrest⟩ := Option.map_eq_some_iff.1 hsome
    cases hrest
    use ⟨cs, hcs.symm⟩
    rw [place_fileScheme htext, String.ofList_toList]
    apply isFixed_absolute hhere

/-- When the package manager is asked to install something for a locator of files, with the program in
some directory, then the place in what it is handed is fixed, with one exception: the URL of a file
that does not begin with the scheme in small letters is handed over as it is, and so the place is as
fixed as the place in the text. -/
theorem handed_place_fixed_iff [DomainNames] (m : Manager σ) {s : Session σ}
    {raw registry handed used : String}
    {l : Locator} (hhere : (m.files s).here.isAbsolute = true) (hread : Locator.read raw = .ok l)
    (hfiles : l.OfFiles)
    (hasked : .install handed used ∈ asked (m.noting.installPackage raw registry) s) :
  (IsFixed (l.place handed) ↔
      ∀ u, l = .url u → fileScheme <+: (Text.trim raw).toList ∨ IsFixed (l.place (Text.trim raw)))
    ∧ (¬ IsFixed (l.place handed) → handed = Text.trim raw)
  := by
  have hpin := pin_of_asked hread hasked
  cases l with
  | registry name version => cases hfiles
  | directory p =>
    have hfixed := isFixed_of_pin hhere hread hpin fun _ => rfl
    refine ⟨⟨?_, fun _ => hfixed⟩, fun h => absurd hfixed h⟩
    rintro - u ⟨⟩
  | archive p =>
    have hfixed := isFixed_of_pin hhere hread hpin fun _ => rfl
    refine ⟨⟨?_, fun _ => hfixed⟩, fun h => absurd hfixed h⟩
    rintro - u ⟨⟩
  | url u =>
    obtain ⟨hspelled, rfl⟩ | ⟨hspelled, hfixed⟩ := cases_of_pin_file hhere hread hfiles hpin
    · refine ⟨⟨?_, ?_⟩, fun _ => rfl⟩
      · rintro h u ⟨⟩
        right
        apply h
      · intro h
        apply (h u rfl).resolve_left hspelled
    · refine ⟨⟨?_, fun _ => hfixed⟩, fun h => absurd hfixed h⟩
      rintro - u ⟨⟩
      left
      apply hspelled

attribute [local instance] Url.codedNames

/-- The directory of the program is put in front of the path in a URL with the scheme in small
letters. -/
theorem handed_place_fixed_iff_of_sample :
  ∃ u, Locator.read " file:./x" = .ok (.url u) ∧ (Locator.url u).OfFiles
    ∧ .install "file:/x" "r" ∈ asked (sample.noting.installPackage " file:./x" "r") sampleStart
    ∧ IsFixed ((Locator.url u).place "file:/x")
  := by
  have hread : Locator.read " file:./x" = .ok (.url ⟨"file", some [], ['/', 'x'], none, none⟩) := by
    decide +kernel
  have hasked : .install "file:/x" "r"
      ∈ asked (sample.noting.installPackage " file:./x" "r") sampleStart := by
    decide +kernel
  refine ⟨_, hread, rfl, hasked, ?_⟩
  apply (handed_place_fixed_iff sample (by decide +kernel) hread rfl hasked).1.2
  rintro u ⟨⟩
  left
  decide +kernel

/-- The path in a URL with the scheme in capital letters is handed over as it is, and the package
manager would see it from a directory of its own. -/
theorem capital_scheme_leaves_place_local :
  ∃ u, Locator.read "File:./x" = .ok (.url u) ∧ u.scheme = "file"
    ∧ (sample.files sampleStart).here.isAbsolute = true
    ∧ .install "File:./x" "r" ∈ asked (sample.noting.installPackage "File:./x" "r") sampleStart
    ∧ ¬ IsFixed ((Locator.url u).place "File:./x")
  := by
  have hread : Locator.read "File:./x" = .ok (.url ⟨"file", some [], ['/', 'x'], none, none⟩) := by
    decide +kernel
  refine ⟨_, hread, rfl, by decide +kernel, by decide +kernel, ?_⟩
  rw [isFixed_iff]
  decide +kernel

end Manager

end PluginHost

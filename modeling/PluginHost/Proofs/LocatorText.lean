import PluginHost.Manager
import PluginHost.Proofs.Blanks

/-!
# The text of locators

A locator is read from what is left of its text between blanks.  `Locator.Spells` says for each kind
of locator which texts spell it, and `Locator.read_eq_ok_iff` that these are read as it.  The name
of a package of a registry spells the package without a version, unless it ends as an archive does
(`Locator.read_name`), and a text after the scheme of files is a URL of a file if it is a URL at all
(`Url.scheme_of_read_file`).
-/

namespace PluginHost

namespace Text

variable {c : Char} {cs rest : List Char}

/-! ### Trimming -/

/-- Nothing is removed in front of a character that is not blank. -/
theorem trimChars_cons (hc : isBlank c = false) :
  trimChars (c :: cs) = (c :: cs).rdropWhile isBlank
  := by
  rw [trimChars, trimStartChars, List.dropWhile_cons_of_neg]
  · rfl
  · simp [hc]

theorem trimChars_prefix_of_cons (hc : isBlank c = false) :
  trimChars (c :: cs) <+: c :: cs
  := by
  rw [trimChars_cons hc]
  apply List.rdropWhile_prefix

/-- A text without blank characters is left as it is. -/
theorem trimChars_of_no_blank (h : ∀ c ∈ cs, isBlank c = false) :
  trimChars cs = cs
  := by
  cases cs with
  | nil => rfl
  | cons c cs =>
    rw [trimChars_cons (h c List.mem_cons_self), List.rdropWhile_eq_self_iff]
    intro hne
    simp [h _ (List.getLast_mem hne)]

/-- The first character that is left is not blank. -/
theorem isBlank_of_trimChars (h : trimChars cs = c :: rest) :
  isBlank c = false
  := by
  have hbegin : trimChars cs <+: cs.dropWhile isBlank := List.rdropWhile_prefix isBlank _
  obtain ⟨others, hstart⟩ := hbegin
  have hhead := List.head?_dropWhile_not isBlank cs
  rw [← hstart, h] at hhead
  apply hhead

theorem trimChars_trimChars (cs : List Char) :
  trimChars (trimChars cs) = trimChars cs
  := by
  cases h : trimChars cs with
  | nil => rfl
  | cons c rest =>
    rw [trimChars_cons (isBlank_of_trimChars h), ← h]
    apply List.rdropWhile_idempotent

/-- What is left begins and ends with characters that are not blank. -/
theorem trimmed_trimChars (cs : List Char) :
  Trimmed (trimChars cs)
  := by
  constructor
  · intro c hc
    obtain ⟨rest, hrest⟩ := List.head?_eq_some_iff.1 hc
    apply isBlank_of_trimChars hrest
  · intro c hc
    have hlast := List.head?_dropWhile_not isBlank (trimStartChars cs).reverse
    rw [trimChars, trimEndChars, List.getLast?_reverse] at hc
    rw [hc] at hlast
    apply hlast

theorem toList_trim (s : String) :
  (trim s).toList = trimChars s.toList
  := by
  rw [trim, String.toList_ofList]

theorem trim_trim (s : String) :
  trim (trim s) = trim s
  := by
  rw [trim, toList_trim, trimChars_trimChars, trim]

/-! ### Cutting -/

/-- The text before the first occurrence of a character does not contain it. -/
theorem not_mem_of_cutFirst {before : List Char} (h : cutFirst [c] cs = some (before, rest)) :
  c ∉ before
  := by
  induction cs generalizing before with
  | nil => cases h
  | cons d cs ih =>
    rw [cutFirst] at h
    split at h
    · cases h
      apply List.not_mem_nil
    · next hdrop =>
      obtain ⟨⟨front, back⟩, hcut, h⟩ := Option.map_eq_some_iff.1 h
      cases h
      have hcd : c ≠ d := by
        rintro rfl
        simp [dropStart] at hdrop
      rw [List.mem_cons]
      rintro (rfl | hmem)
      · apply hcd rfl
      · apply ih hcut hmem

/-- A text without a character cannot be cut there. -/
theorem cutFirst_of_not_mem (h : c ∉ cs) :
  cutFirst [c] cs = none
  := by
  cases hcut : cutFirst [c] cs with
  | none => rfl
  | some parts =>
    rw [eq_of_cutFirst hcut] at h
    simp at h

/-- A text is cut at the first occurrence of a character. -/
theorem cutFirst_eq_some_iff {before : List Char} :
  cutFirst [c] cs = some (before, rest) ↔ c ∉ before ∧ cs = before ++ c :: rest
  := by
  constructor
  · intro h
    use not_mem_of_cutFirst h
    rw [eq_of_cutFirst h, List.append_assoc, List.singleton_append]
  · rintro ⟨hbefore, rfl⟩
    have hskip : ∀ d ∈ before, [c].head? ≠ some d := by
      rintro d hd ⟨⟩
      apply hbefore hd
    have hsep : cutFirst [c] (c :: rest) = some ([], rest) := cutFirst_sep (by simp) rest
    rw [cutFirst_skip (by simp) hskip, hsep]
    simp

end Text

namespace Url

open Manager (fileScheme)

/-! ### URLs of files -/

/-- A text without a colon is no URL. -/
theorem read_of_no_colon [DomainNames] {s : String} (h : ':' ∉ s.toList) :
  read s = .error .noScheme
  := by
  have hstrip : ':' ∉ strip s.toList := by
    intro hmem
    apply h
    have hmem := (List.mem_filter.1 hmem).1
    rw [List.mem_reverse] at hmem
    have hmem := (List.dropWhile_suffix _).subset hmem
    rw [List.mem_reverse] at hmem
    apply (List.dropWhile_suffix _).subset hmem
  rw [read, readScheme?, Text.cutFirst_of_not_mem hstrip]
  rfl

theorem scheme_of_readFile [DomainNames] {cs : List Char} {u : Url} (h : readFile cs = .ok u) :
  u.scheme = "file"
  := by
  -- every way to read the rest ends in the same way
  have hfinish : ∀ {authority rest}, u = finish "file" .file authority rest →
      u.scheme = "file" := by
    rintro authority rest rfl
    rfl
  unfold readFile at h
  split at h
  · next a b rest =>
    split at h
    · dsimp only at h
      split at h
      · apply hfinish (Except.ok.inj h).symm
      · split at h
        · apply hfinish (Except.ok.inj h).symm
        · cases hhost : readHost (rest.takeWhile fun c => !endsAuthority true c) with
          | error e =>
            rw [hhost] at h
            cases h
          | ok name =>
            rw [hhost] at h
            apply hfinish (Except.ok.inj h).symm
    · apply hfinish (Except.ok.inj h).symm
  · apply hfinish (Except.ok.inj h).symm

/-- Nothing is stripped off the scheme of files at the front of a text. -/
theorem strip_fileScheme (cs : List Char) :
  ∃ rest, strip (fileScheme ++ cs) = fileScheme ++ rest
  := by
  let low := fun c : Char => decide (c.toNat ≤ 0x20)
  have hfront : (fileScheme ++ cs).dropWhile low = fileScheme ++ cs := rfl
  have hend : (fileScheme ++ cs).rdropWhile low = fileScheme ++ cs.rdropWhile low := by
    rw [List.rdropWhile, List.reverse_append, List.dropWhile_append]
    split
    · next hempty =>
      rw [List.isEmpty_iff] at hempty
      rw [List.rdropWhile, hempty]
      rfl
    · rw [List.reverse_append, List.reverse_reverse, List.rdropWhile]
  use (cs.rdropWhile low).filter fun c => c != '\t' && c != '\n' && c != '\r'
  change (((fileScheme ++ cs).dropWhile low).rdropWhile low).filter _ = _
  rw [hfront, hend, List.filter_append]
  rfl

/-- A text after the scheme of files is the URL of a file, if it is a URL. -/
theorem scheme_of_read_file [DomainNames] (cs : List Char) {u : Url}
    (h : read (String.ofList (fileScheme ++ cs)) = .ok u) :
  u.scheme = "file"
  := by
  obtain ⟨rest, hstrip⟩ := strip_fileScheme cs
  have hscheme : readScheme? (fileScheme ++ rest) = some ("file", rest) := rfl
  rw [read, String.toList_ofList, hstrip, hscheme] at h
  apply scheme_of_readFile h

end Url

namespace Locator

/-! ### What spells a locator -/

/-- The URL that a text spells, if packages are installed from URLs of its scheme. -/
def url? [DomainNames] (text : List Char) : Option Url :=
  (Url.read (String.ofList text)).toOption.filter fun u => schemes.contains u.scheme

/-- Whether a text spells a locator.  A text that begins as a path is one, a URL comes next, and a
name in a registry is what neither begins as a path nor is a URL nor ends as an archive. -/
inductive Spells [DomainNames] (text : List Char) : Locator → Prop
  | directory (hpath : startsAsPath text = true) (harchive : isArchive text = false) :
    Spells text (.directory ⟨String.ofList text⟩)
  | archive (hplace : startsAsPath text = true ∨ url? text = none)
    (harchive : isArchive text = true) :
    Spells text (.archive ⟨String.ofList text⟩)
  | url (hpath : startsAsPath text = false) {u : Url} (hurl : url? text = some u) :
    Spells text (.url u)
  | registry (hpath : startsAsPath text = false) (hurl : url? text = none)
    (harchive : isArchive text = false) {name : String} {version : Option String}
    (hname : readRegistry? text = some (.registry name version)) :
    Spells text (.registry name version)

variable {text : List Char} {raw name : String} {version : Option String} {l : Locator}

/-- A name in a registry is the only kind of locator that is read as a last resort. -/
theorem eq_registry_of_named (h : readRegistry? text = some l) :
  ∃ name version, l = .registry name version
  := by
  unfold readRegistry? at h
  dsimp only at h
  split at h
  · cases h
    exact ⟨_, _, rfl⟩
  · cases h

/-- A text is read as the locator that is spelled by what is left of it between blanks. -/
theorem read_eq_ok_iff [DomainNames] :
  read raw = .ok l ↔ Text.trimChars raw.toList ≠ [] ∧ Spells (Text.trimChars raw.toList) l
  := by
  rw [read]
  generalize Text.trimChars raw.toList = text
  dsimp only
  rw [← url?]
  constructor
  · intro h
    split at h
    · cases h
    next hne =>
    use hne
    split at h
    · next hpath =>
      split at h
      · next harchive =>
        cases h
        apply Spells.archive (.inl hpath) harchive
      · next harchive =>
        cases h
        apply Spells.directory hpath (eq_false_of_ne_true harchive)
    next hpath =>
    have hpath := eq_false_of_ne_true hpath
    split at h
    · next u hurl =>
      cases h
      apply Spells.url hpath hurl
    next hurl =>
    split at h
    · next harchive =>
      cases h
      apply Spells.archive (.inr hurl) harchive
    next harchive =>
    split at h
    · next hname =>
      cases h
      obtain ⟨name, version, rfl⟩ := eq_registry_of_named hname
      apply Spells.registry hpath hurl (eq_false_of_ne_true harchive) hname
    · cases h
  · rintro ⟨hne, h⟩
    rw [if_neg hne]
    cases h with
    | directory hpath harchive => simp [hpath, harchive]
    | archive hplace harchive =>
      cases hpath : startsAsPath text with
      | true => simp [harchive]
      | false => simp [hplace.resolve_left (by simp [hpath]), harchive]
    | url hpath hurl => simp [hpath, hurl]
    | registry hpath hurl harchive hname => simp [hpath, hurl, harchive, hname]

/-- Blanks around the text of a locator make no difference. -/
theorem read_trim [DomainNames] (h : read raw = .ok l) :
  read (Text.trim raw) = .ok l
  := by
  rw [read_eq_ok_iff] at h ⊢
  rw [Text.toList_trim, Text.trimChars_trimChars]
  apply h

/-! ### Names in a registry -/

theorem between_of_isNameChar {c : Char} (h : isNameChar c = true) :
  0x21 ≤ c.toNat ∧ c.toNat ≤ 0x7E
  := by
  have hascii : c.isAlphanum = true ∨ c ∈ "-_./@~".toList := by
    simpa [isNameChar] using h
  obtain halphanum | hother := hascii
  · delta Char.isAlphanum Char.isAlpha Char.isUpper Char.isLower Char.isDigit at halphanum
    simp only [Char.reduceVal, Char.toNat_val, UInt32.reduceToNat, UInt32.le_iff_toNat_le,
      Bool.or_eq_true, Bool.and_eq_true, decide_eq_true_eq, ge_iff_le] at halphanum
    omega
  · have hchars : "-_./@~".toList = ['-', '_', '.', '/', '@', '~'] := rfl
    rw [hchars] at hother
    simp only [List.mem_cons, List.not_mem_nil, or_false] at hother
    obtain rfl | rfl | rfl | rfl | rfl | rfl := hother <;> decide

/-- No character of a name is blank. -/
theorem isBlank_of_isNameChar {c : Char} (h : isNameChar c = true) :
  Text.isBlank c = false
  := by
  obtain ⟨hlow, hhigh⟩ := between_of_isNameChar h
  simp [Text.isBlank]
  omega

/-- The name ends at the first at sign behind the first character. -/
theorem splitVersion_cons (c : Char) (cs : List Char) :
  splitVersion (c :: cs)
    = match Text.cutFirst ['@'] cs with
      | some (name, version) => (c :: name, some version)
      | none => (c :: cs, none)
  := by
  by_cases hc : c = '@'
  · subst hc
    rfl
  · have hhead : ['@'].head? ≠ some c := by
      rintro ⟨⟩
      apply hc rfl
    have hcut := Text.cutFirst_cons hhead (by simp) cs
    cases hrest : Text.cutFirst ['@'] cs with
    | none => simp [splitVersion, hc, hcut, hrest]
    | some parts => simp [splitVersion, hc, hcut, hrest]

/-- A text is cut into a name without an at sign behind its first character, and a version. -/
theorem splitVersion_eq_iff {text name : List Char} {version : Option (List Char)}
    (hne : name ≠ []) :
  splitVersion text = (name, version)
    ↔ '@' ∉ name.tail ∧ text = name ++ version.elim [] ('@' :: ·)
  := by
  obtain ⟨c, front, rfl⟩ := List.exists_cons_of_ne_nil hne
  cases text with
  | nil => simp [splitVersion, Text.cutFirst]
  | cons d cs =>
    rw [splitVersion_cons, List.tail_cons, List.cons_append, List.cons_eq_cons]
    cases hcut : Text.cutFirst ['@'] cs with
    | none =>
      have habsent : '@' ∉ cs := by
        intro hmem
        obtain ⟨before, rest, rfl, hbefore⟩ := List.eq_append_cons_of_mem hmem
        rw [Text.cutFirst_eq_some_iff.2 ⟨hbefore, rfl⟩] at hcut
        cases hcut
      constructor
      · rintro ⟨⟩
        refine ⟨habsent, rfl, ?_⟩
        rw [Option.elim_none, List.append_nil]
      · rintro ⟨-, rfl, rfl⟩
        cases version with
        | none => rw [Option.elim_none, List.append_nil]
        | some version => simp at habsent
    | some parts =>
      obtain ⟨before, rest⟩ := parts
      obtain ⟨hbefore, rfl⟩ := Text.cutFirst_eq_some_iff.1 hcut
      constructor
      · rintro ⟨⟩
        exact ⟨hbefore, rfl, rfl⟩
      · rintro ⟨hfront, rfl, h⟩
        cases version with
        | none =>
          rw [Option.elim_none, List.append_nil] at h
          simp [← h] at hfront
        | some version =>
          rw [h, Option.elim_some, Text.cutFirst_eq_some_iff.2 ⟨hfront, rfl⟩] at hcut
          cases hcut
          rfl

/-- The name before the version is a beginning of the text, and alone it has no version. -/
theorem splitVersion_name {chars : List Char} {rest : Option (List Char)}
    (h : splitVersion text = (chars, rest)) :
  chars <+: text ∧ splitVersion chars = (chars, none)
  := by
  by_cases hne : chars = []
  · subst hne
    use List.nil_prefix
    rfl
  · obtain ⟨hat, rfl⟩ := (splitVersion_eq_iff hne).1 h
    use List.prefix_append _ _
    apply (splitVersion_eq_iff hne).2 ⟨hat, _⟩
    rw [Option.elim_none, List.append_nil]

theorem readRegistry?_name (h : readRegistry? text = some (.registry name version)) :
  name.toList <+: text ∧ isPackageName name.toList = true
    ∧ readRegistry? name.toList = some (.registry name none)
  := by
  unfold readRegistry? at h
  cases hsplit : splitVersion text with
  | mk chars rest =>
    rw [hsplit] at h
    dsimp only at h
    split at h
    · next hname =>
      cases h
      obtain ⟨hbegin, halone⟩ := splitVersion_name hsplit
      rw [String.toList_ofList]
      use hbegin, hname
      unfold readRegistry?
      rw [halone]
      simp [hname]
    · cases h

theorem isNameChar_of_mem {chars : List Char} (h : isPackageName chars = true) {c : Char}
    (hc : c ∈ chars) :
  isNameChar c = true
  := by
  rw [isPackageName] at h
  simp only [Bool.and_eq_true] at h
  apply List.all_eq_true.1 h.2 c hc

/-- The name of a package of a registry has no blanks around it. -/
theorem trim_name [DomainNames] (h : read raw = .ok (.registry name version)) :
  Text.trim name = name
  := by
  obtain ⟨-, hspells⟩ := read_eq_ok_iff.1 h
  cases hspells with
  | registry _ _ _ hname =>
    obtain ⟨-, hpackage, -⟩ := readRegistry?_name hname
    rw [Text.trim, Text.trimChars_of_no_blank, String.ofList_toList]
    intro c hc
    apply isBlank_of_isNameChar (isNameChar_of_mem hpackage hc)

/-- What is read as a package of a registry does not end as an archive does. -/
theorem not_isArchive_of_read [DomainNames] (h : read raw = .ok (.registry name version)) :
  isArchive (Text.trimChars raw.toList) = false
  := by
  obtain ⟨-, hspells⟩ := read_eq_ok_iff.1 h
  cases hspells with
  | registry _ _ harchive _ => apply harchive

/-- The name of a package of a registry is read as the package without a version, unless it ends as
an archive does. -/
theorem read_name [DomainNames] (h : read raw = .ok (.registry name version))
    (harchive : isArchive name.toList = false) :
  read name = .ok (.registry name none)
  := by
  have htrim := Text.toList_trim name
  rw [trim_name h] at htrim
  obtain ⟨-, hspells⟩ := read_eq_ok_iff.1 h
  cases hspells with
  | registry hpath _ _ hname =>
    obtain ⟨⟨more, hmore⟩, hpackage, hagain⟩ := readRegistry?_name hname
    have hne : name.toList ≠ [] := by
      intro hnil
      rw [hnil] at hpackage
      cases hpackage
    have hcolon : ':' ∉ name.toList := by
      intro hmem
      cases isNameChar_of_mem hpackage hmem
    rw [read_eq_ok_iff, ← htrim]
    use hne
    apply Spells.registry _ _ harchive hagain
    · rw [← hmore] at hpath
      obtain ⟨c, rest, hname⟩ := List.exists_cons_of_ne_nil hne
      rw [hname] at hpath ⊢
      apply hpath
    · rw [url?, String.ofList_toList, Url.read_of_no_colon hcolon]
      rfl

end Locator

end PluginHost

import PluginHost.Proofs.LocatorText
import PluginHost.Url.CodedNames

/-!
# Names of packages

The name of a package of a registry is a segment, or a scope and a segment with separators
(`PackageName.chars`).  A text that spells no locator of another kind is read as a package exactly if
it is such a name with or without a version (`Locator.read_eq_ok_registry_iff`).  The segment is
never empty, but the scope can be: `Locator.packages_obey_grammar_unless_scope_empty` says which
texts are accepted and that this is the only way in which they differ from `@scope/name`.
-/

namespace PluginHost

/-- Whether a character may stand in a segment of the name of a package. -/
def isSegmentChar (c : Char) : Bool := c.isAlphanum || "-_.~".toList.contains c

/-- The name of a package: a segment that is not empty, in a scope or in none. -/
structure PackageName where
  scope : Option (List Char)
  segment : List Char
  scope_chars : ∀ s ∈ scope, ∀ c ∈ s, isSegmentChar c = true
  segment_chars : ∀ c ∈ segment, isSegmentChar c = true
  segment_ne_nil : segment ≠ []

namespace PackageName

/-- The characters of a name. -/
def chars (n : PackageName) : List Char :=
  match n.scope with
  | none => n.segment
  | some scope => '@' :: (scope ++ '/' :: n.segment)

/-- The text of a name. -/
def text (n : PackageName) : String := String.ofList n.chars

/-- Whether no part of a name is empty. -/
def IsComplete (n : PackageName) : Prop := n.scope ≠ some []

/-- Whether a text is a name with or without a version.  There is no version if nothing follows the
at sign. -/
inductive Spelled (n : PackageName) : List Char → Option String → Prop
  | bare : Spelled n n.chars none
  | blank : Spelled n (n.chars ++ ['@']) none
  | versioned {version : List Char} (h : version ≠ []) :
    Spelled n (n.chars ++ '@' :: version) (some (String.ofList version))

/-! ### The characters of names -/

/-- A segment does not contain the separators. -/
theorem not_mem_of_segment {cs : List Char} (h : ∀ c ∈ cs, isSegmentChar c = true) :
  '@' ∉ cs ∧ '/' ∉ cs
  := by
  constructor
  · intro hmem
    cases h '@' hmem
  · intro hmem
    cases h '/' hmem

variable (n : PackageName)

theorem chars_ne_nil :
  n.chars ≠ []
  := by
  rw [chars]
  split
  · apply n.segment_ne_nil
  · apply List.cons_ne_nil

/-- An at sign stands in a name only at the front. -/
theorem at_not_mem_tail :
  '@' ∉ n.chars.tail
  := by
  obtain ⟨hsegment, -⟩ := not_mem_of_segment n.segment_chars
  rw [chars]
  split
  · intro hmem
    apply hsegment (List.mem_of_mem_tail hmem)
  · next scope hscope =>
    obtain ⟨hat, -⟩ := not_mem_of_segment (n.scope_chars scope hscope)
    simp [hat, hsegment]

/-- Only the name in an empty scope begins with an at sign and a slash, and so does every text that
spells it. -/
theorem not_isComplete_iff {text : List Char} {version : Option String}
    (h : n.Spelled text version) :
  ¬ n.IsComplete ↔ ['@', '/'] <+: text
  := by
  have hbegin : n.chars <+: text := by
    cases h with
    | bare => apply List.prefix_rfl
    | blank => apply List.prefix_append
    | versioned => apply List.prefix_append
  obtain ⟨rest, rfl⟩ := hbegin
  rw [IsComplete, not_not, chars]
  cases hscope : n.scope with
  | none =>
    obtain ⟨c, others, hsegment⟩ := List.exists_cons_of_ne_nil n.segment_ne_nil
    obtain ⟨hat, -⟩ := not_mem_of_segment n.segment_chars
    have hc : '@' ≠ c := by
      rintro rfl
      simp [hsegment] at hat
    simp [hsegment, List.cons_prefix_cons, hc]
  | some scope =>
    cases scope with
    | nil => simp [List.cons_prefix_cons]
    | cons c others =>
      obtain ⟨-, hslash⟩ := not_mem_of_segment (n.scope_chars _ hscope)
      have hc : '/' ≠ c := by
        rintro rfl
        simp at hslash
      simp [List.cons_prefix_cons, hc]

end PackageName

namespace Locator

open PackageName (not_mem_of_segment)

/-! ### Which names are accepted -/

theorem isNameChar_iff {c : Char} :
  isNameChar c = true ↔ isSegmentChar c = true ∨ c = '/' ∨ c = '@'
  := by
  have hname : "-_./@~".toList = ['-', '_', '.', '/', '@', '~'] := rfl
  have hsegment : "-_.~".toList = ['-', '_', '.', '~'] := rfl
  rw [isNameChar, isSegmentChar, hname, hsegment]
  simp only [Bool.or_eq_true, List.contains_iff_mem, List.mem_cons, List.not_mem_nil]
  tauto

/-- The characters between separators are those of segments. -/
theorem segment_of_all {cs : List Char} (h : ∀ c ∈ cs, isNameChar c = true) (hat : '@' ∉ cs)
    (hslash : '/' ∉ cs) :
  ∀ c ∈ cs, isSegmentChar c = true
  := by
  intro c hc
  obtain hsegment | rfl | rfl := isNameChar_iff.1 (h c hc)
  · apply hsegment
  · cases hslash hc
  · cases hat hc

/-- The name of a package is accepted. -/
theorem isPackageName_chars (n : PackageName) :
  isPackageName n.chars = true
  := by
  obtain ⟨hat, hslash⟩ := not_mem_of_segment n.segment_chars
  have hlast : n.segment.getLast? ≠ some '/' := by
    intro hlast
    apply hslash (List.mem_of_getLast? hlast)
  have hsegment : ∀ c ∈ n.segment, isNameChar c = true := by
    intro c hc
    apply isNameChar_iff.2 (.inl (n.segment_chars c hc))
  rw [isPackageName, PackageName.chars]
  cases hscope : n.scope with
  | none =>
    have hhead : n.segment.head? ≠ some '@' := by
      intro hhead
      apply hat (List.mem_of_head? hhead)
    simp only [Bool.and_eq_true, bne_iff_ne, beq_iff_eq, List.all_eq_true]
    refine ⟨⟨⟨⟨n.segment_ne_nil, ?_⟩, hlast⟩, ?_⟩, hsegment⟩
    · intro hsingle
      simp [hsingle] at hat
    · rw [if_neg hhead, List.count_eq_zero_of_not_mem hslash]
  | some scope =>
    have hchars := n.scope_chars scope hscope
    obtain ⟨-, hscope_slash⟩ := not_mem_of_segment hchars
    simp only [Bool.and_eq_true, bne_iff_ne, beq_iff_eq, List.all_eq_true]
    refine ⟨⟨⟨⟨List.cons_ne_nil _ _, by simp⟩, ?_⟩, ?_⟩, ?_⟩
    · rw [List.getLast?_cons, List.getLast?_append, List.getLast?_cons]
      cases hl : n.segment.getLast? with
      | none => cases n.segment_ne_nil (List.getLast?_eq_none_iff.1 hl)
      | some c =>
        rw [hl] at hlast
        simpa using hlast
    · simp [List.count_eq_zero_of_not_mem hslash, List.count_eq_zero_of_not_mem hscope_slash]
    · simp only [List.mem_cons, List.mem_append]
      rintro c (rfl | hc | rfl | hc)
      · rfl
      · apply isNameChar_iff.2 (.inl (hchars c hc))
      · rfl
      · apply hsegment c hc

/-- What is accepted is the name of a package, if it has no at sign behind the first character. -/
theorem exists_packageName {cs : List Char} (h : isPackageName cs = true) (hat : '@' ∉ cs.tail) :
  ∃ n : PackageName, n.chars = cs
  := by
  rw [isPackageName] at h
  simp only [Bool.and_eq_true, bne_iff_ne, beq_iff_eq, List.all_eq_true] at h
  obtain ⟨⟨⟨⟨hne, hsingle⟩, hlast⟩, hcount⟩, hall⟩ := h
  by_cases hhead : cs.head? = some '@'
  · obtain ⟨rest, rfl⟩ := List.head?_eq_some_iff.1 hhead
    rw [if_pos hhead, List.count_cons_of_ne (by decide)] at hcount
    have hslash : '/' ∈ rest := by
      apply List.count_pos_iff.1
      rw [hcount]
      apply Nat.one_pos
    obtain ⟨scope, segment, rfl, hscope⟩ := List.eq_append_cons_of_mem hslash
    have hsegment : '/' ∉ segment := by
      rw [← List.count_eq_zero]
      simpa [List.count_eq_zero_of_not_mem hscope] using hcount
    simp only [List.tail_cons, List.mem_append, List.mem_cons, not_or] at hat
    obtain ⟨hscope_at, -, hsegment_at⟩ := hat
    refine ⟨⟨some scope, segment, ?_, ?_, ?_⟩, rfl⟩
    · rintro _ ⟨⟩
      apply segment_of_all _ hscope_at hscope
      intro c hc
      apply hall c (by simp [hc])
    · apply segment_of_all _ hsegment_at hsegment
      intro c hc
      apply hall c (by simp [hc])
    · rintro rfl
      apply hlast
      rw [← List.cons_append, List.getLast?_concat]
  · rw [if_neg hhead, List.count_eq_zero] at hcount
    have hat : '@' ∉ cs := by
      obtain ⟨c, others, rfl⟩ := List.exists_cons_of_ne_nil hne
      intro hmem
      obtain rfl | hmem := List.mem_cons.1 hmem
      · apply hhead rfl
      · apply hat hmem
    refine ⟨⟨none, cs, ?_, segment_of_all hall hat hcount, hne⟩, rfl⟩
    rintro _ ⟨⟩

/-! ### Names with versions -/

/-- A text names a package of a registry exactly if it spells the name with or without a version. -/
theorem readRegistry?_eq_some_iff {text : List Char} {name : String} {version : Option String} :
  readRegistry? text = some (.registry name version)
    ↔ ∃ n : PackageName, n.text = name ∧ n.Spelled text version
  := by
  unfold readRegistry?
  constructor
  · cases hsplit : splitVersion text with
    | mk chars rest =>
      intro h
      obtain ⟨hname, h⟩ := Option.ite_none_right_eq_some.1 h
      have hne : chars ≠ [] := by
        rintro rfl
        cases hname
      obtain ⟨hat, rfl⟩ := (splitVersion_eq_iff hne).1 hsplit
      obtain ⟨n, rfl⟩ := exists_packageName hname hat
      cases h
      use n, rfl
      cases rest with
      | none =>
        rw [Option.elim_none, List.append_nil]
        apply PackageName.Spelled.bare
      | some rest =>
        by_cases hrest : rest = []
        · subst hrest
          apply PackageName.Spelled.blank
        · simpa [Option.filter, hrest] using PackageName.Spelled.versioned (n := n) hrest
  · rintro ⟨n, rfl, hspelled⟩
    have hsplit : ∀ rest : Option (List Char), text = n.chars ++ rest.elim [] ('@' :: ·) →
        splitVersion text = (n.chars, rest) := by
      intro rest htext
      apply (splitVersion_eq_iff n.chars_ne_nil).2 ⟨n.at_not_mem_tail, htext⟩
    cases hspelled with
    | bare =>
      rw [hsplit none (by simp)]
      simp [isPackageName_chars, PackageName.text]
    | blank =>
      rw [hsplit (some []) rfl]
      simp [isPackageName_chars, PackageName.text]
    | versioned h =>
      rw [hsplit (some _) rfl]
      simp [isPackageName_chars, PackageName.text, h]

/-! ### What is read as a package -/

/-- Whether a text spells no locator of another kind: it does not begin as a path, is no URL from
which packages are installed, and does not end as an archive. -/
@[mk_iff]
structure IsLeftOver [DomainNames] (text : List Char) : Prop where
  path : startsAsPath text = false
  url : url? text = none
  archive : isArchive text = false

/-- What is read as a package is what spells no locator of another kind, but a name. -/
theorem read_eq_ok_registry_iff [DomainNames] {raw name : String} {version : Option String} :
  read raw = .ok (.registry name version)
    ↔ IsLeftOver (Text.trimChars raw.toList)
      ∧ ∃ n : PackageName, n.text = name ∧ n.Spelled (Text.trimChars raw.toList) version
  := by
  rw [read_eq_ok_iff, ← readRegistry?_eq_some_iff]
  generalize Text.trimChars raw.toList = text
  constructor
  · rintro ⟨-, h⟩
    cases h with
    | registry hpath hurl harchive hname => exact ⟨⟨hpath, hurl, harchive⟩, hname⟩
  · rintro ⟨hleft, hname⟩
    constructor
    · rintro rfl
      cases hname
    · apply Spells.registry hleft.path hleft.url hleft.archive hname

/-- What cannot be read is what spells no locator of any kind. -/
theorem read_eq_error_iff [DomainNames] {raw rest : String} :
  read raw = .error rest
    ↔ rest = (if Text.trimChars raw.toList = [] then raw
        else String.ofList (Text.trimChars raw.toList))
      ∧ IsLeftOver (Text.trimChars raw.toList)
      ∧ readRegistry? (Text.trimChars raw.toList) = none
  := by
  rw [read]
  generalize Text.trimChars raw.toList = text
  dsimp only
  rw [← url?]
  split
  · next hnil =>
    subst hnil
    have hleft : IsLeftOver [] := ⟨rfl, rfl, rfl⟩
    have hname : readRegistry? [] = none := rfl
    simp [hleft, hname, eq_comm]
  split
  · next hpath => simp [hpath, isLeftOver_iff]
  next hpath =>
  split
  · next hurl => simp [hurl, isLeftOver_iff]
  next hurl =>
  split
  · next harchive => simp [harchive, isLeftOver_iff]
  next harchive =>
  have hleft : IsLeftOver text :=
    ⟨eq_false_of_ne_true hpath, hurl, eq_false_of_ne_true harchive⟩
  split
  · next hname => simp [hname]
  · next hname => simp [hname, hleft, eq_comm]

/-- A text is read as a package of a registry exactly if it spells no locator of another kind, but
the name of the package with or without a version.  This is the grammar `@scope/name` of names, but
for texts that begin with `@/`, which are accepted with an empty scope.  A text that is no locator of
any kind cannot be read, which is reported with the text between blanks, if there is any. -/
theorem packages_obey_grammar_unless_scope_empty [DomainNames] (raw : String) :
  (∀ name version, read raw = .ok (.registry name version)
      ↔ IsLeftOver (Text.trimChars raw.toList)
        ∧ ∃ n : PackageName, n.text = name ∧ n.Spelled (Text.trimChars raw.toList) version)
    ∧ (∀ name version, (read raw = .ok (.registry name version)
          ↔ IsLeftOver (Text.trimChars raw.toList) ∧ ∃ n : PackageName, n.IsComplete
            ∧ n.text = name ∧ n.Spelled (Text.trimChars raw.toList) version)
        ↔ ¬ (read raw = .ok (.registry name version)
          ∧ ['@', '/'] <+: Text.trimChars raw.toList))
    ∧ ∀ rest, read raw = .error rest
      ↔ rest = (if Text.trimChars raw.toList = [] then raw
          else String.ofList (Text.trimChars raw.toList))
        ∧ IsLeftOver (Text.trimChars raw.toList)
        ∧ ∀ (n : PackageName) version, ¬ n.Spelled (Text.trimChars raw.toList) version
  := by
  refine ⟨fun _ _ => read_eq_ok_registry_iff, ?_, ?_⟩
  · intro name version
    rw [read_eq_ok_registry_iff]
    constructor
    · rintro hgrammar ⟨hread, hbegin⟩
      obtain ⟨-, n, hcomplete, -, hspelled⟩ := hgrammar.1 hread
      apply (n.not_isComplete_iff hspelled).2 hbegin hcomplete
    · intro hempty
      constructor
      · rintro ⟨hleft, n, hname, hspelled⟩
        use hleft, n
        refine ⟨?_, hname, hspelled⟩
        by_contra hcomplete
        exact hempty ⟨⟨hleft, n, hname, hspelled⟩, (n.not_isComplete_iff hspelled).1 hcomplete⟩
      · rintro ⟨hleft, n, -, hname, hspelled⟩
        exact ⟨hleft, n, hname, hspelled⟩
  · intro rest
    have hnone : readRegistry? (Text.trimChars raw.toList) = none
        ↔ ∀ (n : PackageName) version, ¬ n.Spelled (Text.trimChars raw.toList) version := by
      rw [Option.eq_none_iff_forall_ne_some]
      constructor
      · intro h n version hspelled
        apply h _ (readRegistry?_eq_some_iff.2 ⟨n, rfl, hspelled⟩)
      · intro h l hname
        obtain ⟨name, version, rfl⟩ := eq_registry_of_named hname
        obtain ⟨n, -, hspelled⟩ := readRegistry?_eq_some_iff.1 hname
        apply h n version hspelled
    rw [read_eq_error_iff, hnone]

attribute [local instance] Url.codedNames

/-- A name in an empty scope is accepted, although it does not obey the grammar. -/
theorem empty_scope_is_accepted :
  read "@/foo" = .ok (.registry "@/foo" none)
    ∧ ¬ ∃ n : PackageName, n.IsComplete ∧ n.text = "@/foo"
      ∧ n.Spelled (Text.trimChars "@/foo".toList) none
  := by
  constructor
  · decide +kernel
  · rintro ⟨n, hcomplete, -, hspelled⟩
    have hbegin : ['@', '/'] <+: Text.trimChars "@/foo".toList := by decide +kernel
    apply (n.not_isComplete_iff hspelled).2 hbegin hcomplete

end Locator

end PluginHost

import PluginHost.Proofs.Operators
import PluginHost.Proofs.RangeReading

/-!
# Spellings of ranges

An alternative of a range can be spelled in several ways: with the letter `v` in front of its versions
or without it, and with other blanks between its words.  What the spellings have in common is their
outline (`Range.Spelling.outline`).  A plain spelling has the letter only in front of versions without
a sign that are not around a hyphen, and spaces around a hyphen (`Range.Spelling.IsPlain`).  The words of
bounds with blanks between them are joined as without blanks, and no hyphen between spaces is in them
(`Range.requirementText_boundsText`).
-/

namespace PluginHost.Version

open Text (Blank IsWord Trimmed Separate)
open Requirement (comma)

namespace Range

/-! ### Spellings -/

/-- Blanks that may be written in a range, perhaps none. -/
structure Blanks where
  chars : List Char
  isBlank : Blank chars

/-- Blanks between two words of a range. -/
structure Gap extends Blanks where
  ne_nil : chars ≠ []

/-- A version in a range: a word that begins with a digit or a wildcard and has no bars. -/
structure VersionWord where
  text : List Char
  isWord : IsWord text
  opens : ∃ c cs, text = c :: cs ∧ (Text.isDigit c = true ∨ Partial.IsWild c)
  ne_bar : ∀ c ∈ text, c ≠ '|'

/-- A version of the grammar of ranges is such a word. -/
def VersionWord.ofPartial (v : Partial) {limit : Nat} (h : v.Proper limit) : VersionWord where
  text := v.text
  isWord := Partial.isWord_text h
  opens := by
    obtain ⟨c, cs, htext, hc⟩ := v.exists_text
    exact ⟨c, cs, htext, .inl hc⟩
  ne_bar := (Term.Spells.bare v).ne_bar h

/-- A version as it is written, with the letter `v` in front or without it. -/
structure Mention where
  version : VersionWord
  marked : Bool

/-- The text of a version as it is written. -/
def Mention.text (m : Mention) : List Char :=
  if m.marked then 'v' :: m.version.text else m.version.text

/-- A version as it is written, with a sign and blanks in front or without them. -/
structure Bound where
  sign : Option (Sign × Blanks)
  mention : Mention

namespace Bound

/-- The text of a bound. -/
def text (b : Bound) : List Char :=
  match b.sign with
  | none => b.mention.text
  | some (sign, blanks) => sign.text ++ blanks.chars ++ b.mention.text

/-- The sign and the version of a bound. -/
def outline (b : Bound) : Option Sign × VersionWord := (b.sign.map Prod.fst, b.mention.version)

/-- Whether the letter `v` is written in front of a version only if there is no sign. -/
def IsPlain (b : Bound) : Prop := b.sign = none ∨ b.mention.marked = false

end Bound

/-- The text of bounds with blanks between them. -/
def boundsText (first : Bound) : List (Gap × Bound) → List Char
  | [] => first.text
  | (gap, second) :: others => first.text ++ gap.chars ++ boundsText second others

/-- All of some bounds, without the blanks between them. -/
def boundsOf (first : Bound) (others : List (Gap × Bound)) : List Bound :=
  first :: others.map Prod.snd

/-- What an alternative consists of, without the blanks and letters that make no difference. -/
inductive Outline where
  | between (low high : VersionWord)
  | bounds (bounds : List (Option Sign × VersionWord))

/-- An alternative as it is spelled, without the blanks around it. -/
inductive Core where
  | nothing
  | between (low : Mention) (before after : Gap) (high : Mention)
  | bounds (first : Bound) (others : List (Gap × Bound))

namespace Core

/-- The text of an alternative. -/
def text : Core → List Char
  | nothing => []
  | between low before after high =>
    low.text ++ before.chars ++ '-' :: (after.chars ++ high.text)
  | bounds first others => boundsText first others

/-- What an alternative consists of. -/
def outline : Core → Outline
  | nothing => .bounds []
  | between low _ _ high => .between low.version high.version
  | bounds first others => .bounds ((boundsOf first others).map Bound.outline)

/-- Whether an alternative is spelled plainly: the letter `v` is written only in front of versions
without a sign that are not around a hyphen, and the blanks next to a hyphen are spaces. -/
def IsPlain : Core → Prop
  | nothing => True
  | between low before after high => low.marked = false ∧ high.marked = false
    ∧ before.chars.getLast? = some ' ' ∧ after.chars.head? = some ' '
  | bounds first others => ∀ b ∈ boundsOf first others, b.IsPlain

end Core

/-- An alternative as it is spelled. -/
structure Spelling where
  before : Blanks
  core : Core
  after : Blanks

namespace Spelling

/-- The text of an alternative. -/
def text (s : Spelling) : String :=
  String.ofList (s.before.chars ++ s.core.text ++ s.after.chars)

/-- What an alternative consists of. -/
def outline (s : Spelling) : Outline := s.core.outline

/-- Whether an alternative is spelled plainly. -/
def IsPlain (s : Spelling) : Prop := s.core.IsPlain

/-- The text of a range with some alternatives. -/
def rangeText (spellings : List Spelling) : String :=
  "||".intercalate (spellings.map Spelling.text)

end Spelling

variable {rest : List Char}

/-! ### Versions as they are written -/

namespace Mention

variable (m : Mention)

theorem exists_text :
  ∃ c cs, m.text = c :: cs ∧ (c = 'v' ∨ Text.isDigit c = true ∨ Partial.IsWild c)
  := by
  rw [text]
  split
  · exact ⟨'v', _, rfl, .inl rfl⟩
  · obtain ⟨c, cs, htext, hc⟩ := m.version.opens
    exact ⟨c, cs, htext, .inr hc⟩

theorem isWord_text :
  IsWord m.text
  := by
  rw [text]
  split
  · constructor
    · apply List.cons_ne_nil
    · rw [List.forall_mem_cons]
      exact ⟨by decide, m.version.isWord.isBlank⟩
  · apply m.version.isWord

theorem isOperatorText_text :
  isOperatorText m.text = false
  := by
  obtain ⟨c, cs, htext, hc⟩ := m.exists_text
  rw [htext]
  obtain rfl | hdigit | rfl | rfl | rfl := hc
  · rfl
  · apply isOperatorText_of_digit hdigit
  all_goals rfl

/-- A version does not begin with a hyphen. -/
theorem head?_text :
  ∀ c ∈ m.text.head?, c ≠ '-'
  := by
  obtain ⟨c, cs, htext, hc⟩ := m.exists_text
  rw [htext]
  rintro _ ⟨⟩ rfl
  obtain ⟨⟨⟩⟩ | ⟨⟨⟩⟩ | ⟨⟨⟩⟩ | ⟨⟨⟩⟩ | ⟨⟨⟩⟩ := hc

theorem ne_bar :
  ∀ c ∈ m.text, c ≠ '|'
  := by
  rw [text]
  split
  · rw [List.forall_mem_cons]
    exact ⟨by decide, m.version.ne_bar⟩
  · apply m.version.ne_bar

/-- The letter `v` in front of a version without a sign makes no difference. -/
theorem comparatorText_text :
  comparatorText m.text = comparatorText m.version.text
  := by
  obtain ⟨c, cs, htext, hc⟩ := m.version.opens
  have hv : c ≠ 'v' := by
    rintro rfl
    obtain ⟨⟨⟩⟩ | ⟨⟨⟩⟩ | ⟨⟨⟩⟩ | ⟨⟨⟩⟩ := hc
  rw [text]
  split
  · rw [htext]
    simp [comparatorText, hv]
  · rfl

end Mention

/-! ### Bounds as they are written -/

namespace Bound

variable (b : Bound)

/-- The text of a bound without the blanks behind its sign. -/
def joined : List Char := ((b.sign.map Prod.fst).map Sign.text).getD [] ++ b.mention.text

theorem trimmed :
  Trimmed b.text ∧ b.text ≠ []
  := by
  have hmention := b.mention.isWord_text
  rw [text]
  split
  · exact ⟨hmention.trimmed, hmention.ne_nil⟩
  · next sign blanks hsign =>
    constructor
    · apply sign.isWord_text.trimmed.append hmention.trimmed sign.isWord_text.ne_nil hmention.ne_nil
    · simp [hmention.ne_nil]

theorem ne_bar :
  ∀ c ∈ b.text, c ≠ '|'
  := by
  rw [text]
  split
  · apply b.mention.ne_bar
  · next sign blanks hsign =>
    rw [List.forall_mem_append, List.forall_mem_append]
    have hchars : ∀ c ∈ sign.text, c ≠ '|' := fun c hc => (sign.plain_of_mem_text c hc).2
    exact ⟨⟨hchars, ne_bar_of_blank blanks.isBlank⟩, b.mention.ne_bar⟩

/-- A bound does not begin with a hyphen. -/
theorem head?_text (rest : List Char) :
  ∀ c ∈ (b.text ++ rest).head?, c ≠ '-'
  := by
  rw [List.head?_append_of_ne_nil _ b.trimmed.2, text]
  split
  · apply b.mention.head?_text
  · next sign blanks hsign =>
    obtain ⟨c, cs, htext, hc⟩ := sign.exists_text
    rw [htext]
    rintro _ ⟨⟩
    apply (ne_of_opens hc).2.1

/-- The words of a bound are joined, in front of a blank or the end. -/
theorem joinOperators_text (hrest : ∀ c ∈ rest.head?, Text.isBlank c = true) :
  joinOperators [] (Text.words (b.text ++ rest)) = b.joined :: joinOperators [] (Text.words rest)
  := by
  have hword := b.mention.isWord_text
  have hversion := b.mention.isOperatorText_text
  obtain ⟨sign, mention⟩ := b
  cases sign with
  | none => apply joinOperators_bare hword hversion hrest
  | some sign => apply joinOperators_signed sign.1 sign.2.isBlank hword hversion hrest

/-- A bound is in front of the first hyphen between spaces. -/
theorem cutFirst_text (rest : List Char) :
  Text.cutFirst hyphen (b.text ++ rest)
    = (Text.cutFirst hyphen rest).map fun (front, back) => (b.text ++ front, back)
  := by
  have hword := b.mention.isWord_text
  obtain ⟨sign, mention⟩ := b
  cases sign with
  | none => apply cutFirst_word hword
  | some sign => apply cutFirst_signed sign.1 sign.2.isBlank hword mention.head?_text

end Bound

/-- The text that stands for a bound in a requirement. -/
def comparatorOf : Option Sign × VersionWord → List Char
  | (none, version) => comparatorText version.text
  | (some sign, version) => sign.text ++ version.text

/-- A sign and what follows it stay as they are. -/
theorem comparatorText_signed (sign : Sign) (cs : List Char) :
  comparatorText (sign.text ++ cs) = sign.text ++ cs
  := comparatorText_operators sign.isWord_text.ne_nil sign.isOperatorText_text cs

/-- What stands for a bound that is written plainly does not depend on how it is written. -/
theorem comparatorText_joined {b : Bound} (h : b.IsPlain) :
  comparatorText b.joined = comparatorOf b.outline
  := by
  obtain ⟨sign, mention⟩ := b
  cases sign with
  | none => apply mention.comparatorText_text
  | some sign =>
    have hmarked : mention.marked = false := by simpa [Bound.IsPlain] using h
    have htext : mention.text = mention.version.text := by
      rw [Mention.text, hmarked]
      rfl
    change comparatorText (sign.1.text ++ mention.text) = sign.1.text ++ mention.version.text
    rw [comparatorText_signed, htext]

/-! ### Bounds with blanks between them -/

variable (first : Bound) (others : List (Gap × Bound))

theorem trimmed_boundsText :
  Trimmed (boundsText first others) ∧ boundsText first others ≠ []
  := by
  induction others generalizing first with
  | nil => apply first.trimmed
  | cons other others ih =>
    obtain ⟨hfirst, hfirst_ne⟩ := first.trimmed
    obtain ⟨hothers, hothers_ne⟩ := ih other.2
    constructor
    · apply hfirst.append hothers hfirst_ne hothers_ne
    · simp [boundsText, hfirst_ne]

theorem ne_bar_boundsText :
  ∀ c ∈ boundsText first others, c ≠ '|'
  := by
  induction others generalizing first with
  | nil => apply first.ne_bar
  | cons other others ih =>
    rw [boundsText, List.forall_mem_append, List.forall_mem_append]
    exact ⟨⟨first.ne_bar, ne_bar_of_blank other.1.isBlank⟩, ih other.2⟩

theorem joinOperators_boundsText :
  joinOperators [] (Text.words (boundsText first others))
    = (boundsOf first others).map Bound.joined
  := by
  induction others generalizing first with
  | nil =>
    have hend : ∀ c ∈ ([] : List Char).head?, Text.isBlank c = true := by simp
    have hjoined := first.joinOperators_text hend
    rw [List.append_nil] at hjoined
    rw [boundsText, hjoined, Text.words_of_blank Text.blank_nil]
    rfl
  | cons other others ih =>
    rw [boundsText, List.append_assoc,
      first.joinOperators_text (other.1.isBlank.head_append other.1.ne_nil _),
      Text.words_of_blanks other.1.isBlank, ih other.2]
    rfl

/-- There is no hyphen between spaces in bounds with blanks between them. -/
theorem cutFirst_boundsText :
  Text.cutFirst hyphen (boundsText first others) = none
  := by
  induction others generalizing first with
  | nil =>
    have hcut := first.cutFirst_text []
    rw [List.append_nil] at hcut
    rw [boundsText, hcut]
    rfl
  | cons other others ih =>
    have hhead : ∀ c ∈ (boundsText other.2 others).head?, c ≠ '-' := by
      cases others with
      | nil => simpa [boundsText] using other.2.head?_text []
      | cons third others =>
        rw [boundsText, List.append_assoc]
        apply other.2.head?_text
    rw [boundsText, List.append_assoc, first.cutFirst_text, cutFirst_blanks other.1.isBlank hhead,
      ih other.2]
    rfl

theorem requirementText_boundsText :
  requirementText (boundsText first others)
    = comma.intercalate ((boundsOf first others).map fun b => comparatorText b.joined)
  := by
  rw [requirementText, cutFirst_boundsText]
  change comma.intercalate _ = _
  rw [joinOperators_boundsText, List.map_map]
  rfl

/-! ### Alternatives as they are written -/

namespace Core

variable (core : Core)

theorem trimmed_text :
  Trimmed core.text
  := by
  cases core with
  | nothing => constructor <;> rintro c ⟨⟩
  | between low before after high =>
    have htrimmed := low.isWord_text.trimmed.append high.isWord_text.trimmed low.isWord_text.ne_nil
      high.isWord_text.ne_nil (before.chars ++ '-' :: after.chars)
    simpa [text] using htrimmed
  | bounds first others => apply (trimmed_boundsText first others).1

theorem text_ne_nil {core : Core} (h : core ≠ .nothing) :
  core.text ≠ []
  := by
  cases core with
  | nothing => cases h rfl
  | between low before after high => simp [text]
  | bounds first others => apply (trimmed_boundsText first others).2

theorem ne_bar :
  ∀ c ∈ core.text, c ≠ '|'
  := by
  cases core with
  | nothing => simp [text]
  | between low before after high =>
    simp only [text, List.forall_mem_append, List.forall_mem_cons]
    exact ⟨⟨low.ne_bar, ne_bar_of_blank before.isBlank⟩, by decide,
      ne_bar_of_blank after.isBlank, high.ne_bar⟩
  | bounds first others => apply ne_bar_boundsText

end Core

namespace Spelling

theorem trimChars_text (s : Spelling) :
  Text.trimChars s.text.toList = s.core.text
  := by
  rw [text, String.toList_ofList]
  apply Text.trimChars_surrounded s.before.isBlank s.after.isBlank s.core.trimmed_text

/-- The text of an alternative has no bars, so it can be told from what stands around it. -/
theorem separate_text (s : Spelling) :
  Separate s.text.toList
  := by
  have hbars : '|' ∉ s.text.toList := by
    rw [text, String.toList_ofList]
    simp only [List.mem_append]
    rintro ((hmem | hmem) | hmem)
    · apply ne_bar_of_blank s.before.isBlank '|' hmem rfl
    · apply s.core.ne_bar '|' hmem rfl
    · apply ne_bar_of_blank s.after.isBlank '|' hmem rfl
  constructor
  · intro hoccurs
    apply hbars (hoccurs.subset List.mem_cons_self)
  · intro hlast
    apply hbars (List.mem_of_getLast? hlast)

end Spelling

end Range

end PluginHost.Version

import PluginHost.Proofs.Spellings

/-!
# Ranges in other spellings

All plain spellings of an outline are read in the same way
(`Range.Spelling.toOption_readAlternative_of_plain`).  No other spelling can be read: behind a sign the
letter `v` stays, and a hyphen that is not between spaces is taken for a version
(`Range.Spelling.toOption_readAlternative_of_not_plain`).  So two spellings of a range get different
answers exactly if one of them is not plain where an alternative is tried (`respellings_agree_iff`).
-/

namespace PluginHost.Version

open Text (Blank IsWord Trimmed Separate)
open Requirement (comma)

namespace Range

/-! ### What cannot be read -/

/-- Texts with commas between them cannot be read as a requirement if one of them cannot. -/
theorem toOption_read_of_piece {texts : List (List Char)} {text : List Char} (hmem : text ∈ texts)
    (h : (Requirement.read text).toOption = none) :
  (Requirement.read (comma.intercalate texts)).toOption = none
  := by
  cases hread : Requirement.read (comma.intercalate texts) with
  | error e => rfl
  | ok requirement =>
    obtain ⟨parts, hparts, -⟩ := Requirement.exists_pieces (List.ne_nil_of_mem hmem) hread
    have hboth := hparts.imp fun other part hother =>
      show (Requirement.read other).toOption ≠ none ∧ Requirement.read other = .ok ⟨part⟩ by
        rw [hother]
        simp [Except.toOption]
    cases ((List.forall₂_and_left _ _).1 hboth).1 text hmem h

/-- A sign in front of the letter `v` cannot be read. -/
theorem toOption_read_signed (sign : Sign) (cs : List Char) :
  (Requirement.read (sign.text ++ 'v' :: cs)).toOption = none
  := by
  cases sign <;> rfl

/-- A hyphen alone cannot be read. -/
theorem toOption_read_hyphen :
  (Requirement.read (comparatorText ['-'])).toOption = none
  := rfl

section

variable {low high before after : List Char}

/-- A hyphen without a space on both sides does not separate two versions. -/
theorem cutFirst_of_no_spaces (hlow : IsWord low) (hhigh : IsWord high)
    (hversion : ∀ c ∈ high.head?, c ≠ '-') (hbefore : Blank before) (hne : before ≠ [])
    (hafter : Blank after) (h : ¬ (before.getLast? = some ' ' ∧ after.head? = some ' ')) :
  Text.cutFirst hyphen (low ++ before ++ '-' :: (after ++ high)) = none
  := by
  have hrest : Text.cutFirst hyphen ('-' :: (after ++ high)) = none := by
    have hcut := cutFirst_word hhigh []
    rw [List.append_nil] at hcut
    rw [Text.cutFirst_cons (by decide) hyphen_ne_nil, cutFirst_blanks hafter hversion, hcut]
    rfl
  obtain ⟨front, c, rfl⟩ := (List.eq_nil_or_concat' before).resolve_left hne
  rw [Blank, List.forall_mem_append, List.forall_mem_singleton] at hbefore
  have hhead : ∀ d ∈ (c :: '-' :: (after ++ high)).head?, d ≠ '-' := by
    rintro _ ⟨⟩ rfl
    cases hbefore.2
  -- The separator could start nowhere but at the last blank in front of the hyphen.
  have hlast : Text.cutFirst hyphen (c :: '-' :: (after ++ high)) = none := by
    by_cases hc : c = ' '
    · subst hc
      have hspace : (after ++ high).head? ≠ some ' ' := by
        intro hspace
        cases after with
        | nil => cases hhigh.isBlank ' ' (List.mem_of_mem_head? hspace)
        | cons d after => exact h ⟨by simp, hspace⟩
      have hnone : Text.dropStart hyphen (' ' :: '-' :: (after ++ high)) = none := by
        change Text.dropStart [' '] (after ++ high) = none
        rw [Option.eq_none_iff_forall_ne_some]
        intro rest hdrop
        rw [Text.dropStart_eq_some_iff.1 hdrop] at hspace
        apply hspace rfl
      rw [Text.cutFirst, hnone, hrest]
      rfl
    · have hsep : hyphen.head? ≠ some c := by
        rintro ⟨⟩
        apply hc rfl
      rw [Text.cutFirst_cons hsep hyphen_ne_nil, hrest]
      rfl
  have hassoc : low ++ (front ++ [c]) ++ '-' :: (after ++ high)
      = low ++ (front ++ c :: '-' :: (after ++ high)) := by simp
  rw [hassoc, cutFirst_word hlow, cutFirst_blanks hbefore.1 hhead, hlast]
  rfl

end

/-- Versions around a hyphen without a space on both sides become three comparators. -/
theorem requirementText_of_no_spaces {low high : Mention} {before after : Gap}
    (h : ¬ (before.chars.getLast? = some ' ' ∧ after.chars.head? = some ' ')) :
  requirementText (low.text ++ before.chars ++ '-' :: (after.chars ++ high.text))
    = comma.intercalate [comparatorText low.text, comparatorText ['-'], comparatorText high.text]
  := by
  -- The hyphen is a word of its own, and it is not an operator.
  have hhyphen : IsWord ['-'] := ⟨List.cons_ne_nil _ _, by simp; rfl⟩
  have hbehind : Text.words (['-'] ++ (after.chars ++ high.text)) = [['-'], high.text] := by
    rw [Text.words_cons hhyphen (after.isBlank.head_append after.ne_nil _),
      Text.words_of_blanks after.isBlank, Text.words_of_isWord high.isWord_text]
  have hwords : Text.words (low.text ++ before.chars ++ '-' :: (after.chars ++ high.text))
      = [low.text, ['-'], high.text] := by
    rw [List.append_assoc, Text.words_cons low.isWord_text
        (before.isBlank.head_append before.ne_nil _), Text.words_of_blanks before.isBlank]
    rw [List.singleton_append] at hbehind
    rw [hbehind]
  rw [requirementText, cutFirst_of_no_spaces low.isWord_text high.isWord_text high.head?_text
    before.isBlank before.ne_nil after.isBlank h]
  change comma.intercalate _ = _
  rw [hwords, joinOperators_word low.isOperatorText_text, joinOperators_word rfl,
    joinOperators_word high.isOperatorText_text]
  rfl

/-- Versions around a hyphen between spaces become two comparators. -/
theorem requirementText_of_spaces {low high : Mention} {before after : Gap}
    (h : before.chars.getLast? = some ' ' ∧ after.chars.head? = some ' ') :
  requirementText (low.text ++ before.chars ++ '-' :: (after.chars ++ high.text))
    = comma.intercalate [Sign.atLeast.text ++ low.text, Sign.atMost.text ++ high.text]
  := by
  obtain ⟨front, hfront⟩ := List.getLast?_eq_some_iff.1 h.1
  obtain ⟨back, hback⟩ := List.head?_eq_some_iff.1 h.2
  have hblank_front : Blank front := by
    intro c hc
    apply before.isBlank c
    simp [hfront, hc]
  have hblank_back : Blank back := by
    intro c hc
    apply after.isBlank c
    simp [hback, hc]
  have htext : low.text ++ before.chars ++ '-' :: (after.chars ++ high.text)
      = low.text ++ front ++ hyphen ++ back ++ high.text := by
    simp [hfront, hback, hyphen]
  rw [htext]
  apply requirementText_between low.isWord_text high.isWord_text hblank_front hblank_back

/-! ### How alternatives are read -/

/-- The requirement that an alternative stands for, if it can be read. -/
def Outline.requirement? : Outline → Option Requirement
  | between low high => (Requirement.read
      (comma.intercalate [Sign.atLeast.text ++ low.text, Sign.atMost.text ++ high.text])).toOption
  | bounds [] => some .any
  | bounds (b :: bs) => (Requirement.read (comma.intercalate ((b :: bs).map comparatorOf))).toOption

namespace Core

/-- A plain spelling is brought into a notation that depends on the outline only. -/
theorem toOption_read_of_plain {core : Core} (h : core.IsPlain) (hne : core ≠ .nothing) :
  (Requirement.read (requirementText core.text)).toOption = core.outline.requirement?
  := by
  cases core with
  | nothing => cases hne rfl
  | between low before after high =>
    obtain ⟨hlow, hhigh, hspaces⟩ := h
    rw [text, requirementText_of_spaces hspaces, Mention.text, Mention.text, hlow, hhigh]
    rfl
  | bounds first others =>
    have hjoined : (boundsOf first others).map (fun b => comparatorText b.joined)
        = ((boundsOf first others).map Bound.outline).map comparatorOf := by
      rw [List.map_map]
      apply List.map_congr_left
      intro b hb
      apply comparatorText_joined (h b hb)
    rw [text, requirementText_boundsText, hjoined]
    rfl

/-- No other spelling is brought into a notation that can be read. -/
theorem toOption_read_of_not_plain {core : Core} (h : ¬ core.IsPlain) :
  (Requirement.read (requirementText core.text)).toOption = none
  := by
  cases core with
  | nothing => cases h trivial
  | between low before after high =>
    rw [text]
    by_cases hspaces : before.chars.getLast? = some ' ' ∧ after.chars.head? = some ' '
    · rw [requirementText_of_spaces hspaces]
      cases hlow : low.marked with
      | true =>
        apply toOption_read_of_piece List.mem_cons_self
        rw [Mention.text, hlow]
        apply toOption_read_signed
      | false =>
        cases hhigh : high.marked with
        | true =>
          apply toOption_read_of_piece (List.mem_cons_of_mem _ List.mem_cons_self)
          rw [Mention.text, hhigh]
          apply toOption_read_signed
        | false => cases h ⟨hlow, hhigh, hspaces⟩
    · rw [requirementText_of_no_spaces hspaces]
      apply toOption_read_of_piece _ toOption_read_hyphen
      simp
  | bounds first others =>
    obtain ⟨b, hb, hplain⟩ : ∃ b ∈ boundsOf first others, ¬ b.IsPlain := by
      simpa [IsPlain] using h
    obtain ⟨hsign, hmarked⟩ := not_or.1 hplain
    obtain ⟨sign, hsign⟩ := Option.ne_none_iff_exists'.1 hsign
    rw [text, requirementText_boundsText]
    apply toOption_read_of_piece (List.mem_map_of_mem hb)
    have hjoined : b.joined = sign.1.text ++ 'v' :: b.mention.version.text := by
      simp [Bound.joined, hsign, Mention.text, hmarked]
    rw [hjoined, comparatorText_signed]
    apply toOption_read_signed

end Core

/-- An alternative that is not empty is read in the notation of requirements.  The wildcards, which
are read apart, would be read there in the same way. -/
theorem toOption_readAlternative {text : List Char} (h : Text.trimChars text ≠ []) :
  (readAlternative text).toOption = (Requirement.read (requirementText (Text.trimChars text))).toOption
  := by
  unfold readAlternative
  generalize Text.trimChars text = core at *
  dsimp only
  split
  · next hany =>
    have hmark : ∀ mark, Text.isBlank mark = false → Text.cutFirst hyphen [mark] = none →
        isOperatorText [mark] = false → comparatorText [mark] = [mark] →
        Requirement.read [mark] = .ok .any →
        Requirement.read (requirementText [mark]) = .ok .any := by
      intro mark hblank hcut hword htext hread
      have hmark : IsWord [mark] := ⟨List.cons_ne_nil _ _, by simpa using hblank⟩
      rw [requirementText, hcut]
      change Requirement.read (comma.intercalate _) = _
      rw [Text.words_of_isWord hmark, joinOperators_word hword]
      simpa [joinOperators, htext] using hread
    obtain rfl | rfl | rfl | rfl := hany
    · cases h rfl
    all_goals rw [hmark] <;> rfl
  · cases Requirement.read (requirementText core) <;> rfl

namespace Spelling

variable {s : Spelling} {v : Version}

/-- An alternative that is spelled plainly is read as its outline says. -/
theorem toOption_readAlternative_of_plain (h : s.IsPlain) :
  (readAlternative s.text.toList).toOption = s.outline.requirement?
  := by
  by_cases hnothing : s.core = .nothing
  · have htrim := s.trimChars_text
    rw [outline, hnothing] at *
    rw [readAlternative, htrim]
    rfl
  · have hne : Text.trimChars s.text.toList ≠ [] := by
      rw [s.trimChars_text]
      apply Core.text_ne_nil hnothing
    rw [toOption_readAlternative hne, s.trimChars_text]
    apply Core.toOption_read_of_plain h hnothing

/-- An alternative that is not spelled plainly cannot be read. -/
theorem toOption_readAlternative_of_not_plain (h : ¬ s.IsPlain) :
  (readAlternative s.text.toList).toOption = none
  := by
  have hnothing : s.core ≠ .nothing := by
    intro hnothing
    apply h
    rw [IsPlain, hnothing]
    trivial
  have hne : Text.trimChars s.text.toList ≠ [] := by
    rw [s.trimChars_text]
    apply Core.text_ne_nil hnothing
  rw [toOption_readAlternative hne, s.trimChars_text]
  apply Core.toOption_read_of_not_plain h

/-! ### Ranges -/

/-- Two plain spellings of an alternative get the same answer. -/
theorem answer?_congr {t : Spelling} (hs : s.IsPlain) (ht : t.IsPlain) (h : s.outline = t.outline) :
  answer? v s.text.toList = answer? v t.text.toList
  := by
  have hmap : ∀ result : Except RangeError Requirement,
      (result.map (·.admits v)).toOption = result.toOption.map (·.admits v) := by
    rintro (e | requirement) <;> rfl
  rw [answer?, answer?, hmap, hmap, toOption_readAlternative_of_plain hs,
    toOption_readAlternative_of_plain ht, h]

/-- There is no answer for an alternative that is not spelled plainly. -/
theorem answer?_of_not_plain (h : ¬ s.IsPlain) :
  answer? v s.text.toList = none
  := by
  have hread := toOption_readAlternative_of_not_plain h
  rw [answer?]
  cases hresult : readAlternative s.text.toList with
  | error e => rfl
  | ok requirement =>
    rw [hresult] at hread
    cases hread

/-- Whether each alternative that is not spelled plainly stands behind one with a property. -/
def Shielded (P : Spelling → Prop) (spellings : List Spelling) : Prop :=
  ∀ front s back, spellings = front ++ s :: back → ¬ s.IsPlain → ∃ other ∈ front, P other

theorem shielded_nil (P : Spelling → Prop) :
  Shielded P []
  := by
  intro front s back hsplit
  simp at hsplit

theorem shielded_cons_iff {P : Spelling → Prop} {spellings : List Spelling} :
  Shielded P (s :: spellings) ↔ s.IsPlain ∧ (P s ∨ Shielded P spellings)
  := by
  constructor
  · intro h
    constructor
    · by_contra hplain
      obtain ⟨other, hother, -⟩ := h [] s spellings rfl hplain
      cases hother
    · by_cases hs : P s
      · apply Or.inl hs
      · right
        rintro front t back rfl hplain
        obtain ⟨other, hother, hP⟩ := h (s :: front) t back rfl hplain
        obtain rfl | hother := List.mem_cons.1 hother
        · cases hs hP
        · exact ⟨other, hother, hP⟩
  · rintro ⟨hplain, hshielded⟩ front t back hsplit ht
    cases front with
    | nil =>
      obtain ⟨rfl, -⟩ := List.cons_eq_cons.1 hsplit
      cases ht hplain
    | cons first front =>
      obtain ⟨rfl, rfl⟩ := List.cons_eq_cons.1 hsplit
      obtain hs | hshielded := hshielded
      · exact ⟨s, List.mem_cons_self, hs⟩
      · obtain ⟨other, hother, hP⟩ := hshielded front t back rfl ht
        exact ⟨other, List.mem_cons_of_mem s hother, hP⟩

/-- Whether a version satisfies an alternative. -/
def IsMatch (v : Version) (s : Spelling) : Prop := answer? v s.text.toList = some true

/-- There is no answer if an alternative that is not spelled plainly is tried. -/
theorem toOption_anyAdmits_of_not_shielded {spellings : List Spelling}
    (h : ¬ Shielded (IsMatch v) spellings) :
  (anyAdmits v (spellings.map fun s => s.text.toList)).toOption = none
  := by
  induction spellings with
  | nil => cases h (shielded_nil _)
  | cons s spellings ih =>
    rw [shielded_cons_iff] at h
    rw [List.map_cons, toOption_anyAdmits_cons]
    by_cases hplain : s.IsPlain
    · obtain ⟨hmatch, hrest⟩ := not_or.1 (not_and.1 h hplain)
      cases hanswer : answer? v s.text.toList with
      | none => simp
      | some answer =>
        cases answer with
        | true => cases hmatch hanswer
        | false => simp [ih hrest]
    · simp [answer?_of_not_plain hplain]

/-- Two spellings get the same answer if they are plain up to an alternative that the version
satisfies. -/
theorem toOption_anyAdmits_congr {ones others : List Spelling} (hones : Shielded (IsMatch v) ones)
    (hothers : Shielded (IsMatch v) others) (h : ones.map outline = others.map outline) :
  (anyAdmits v (ones.map fun s => s.text.toList)).toOption
    = (anyAdmits v (others.map fun s => s.text.toList)).toOption
  := by
  induction ones generalizing others with
  | nil => rw [List.map_eq_nil_iff.1 h.symm]
  | cons s ones ih =>
    cases others with
    | nil => cases h
    | cons t others =>
      rw [shielded_cons_iff] at hones hothers
      obtain ⟨houtline, h⟩ := List.cons_eq_cons.1 h
      have hanswer := @answer?_congr s v t hones.1 hothers.1 houtline
      rw [List.map_cons, List.map_cons, toOption_anyAdmits_cons, toOption_anyAdmits_cons, hanswer]
      -- The others are tried only if the version does not satisfy the first one.
      split
      · next hfalse =>
        have hs : ¬ IsMatch v s := by simp [IsMatch, hanswer, hfalse]
        have ht : ¬ IsMatch v t := by simp [IsMatch, hfalse]
        apply ih (hones.2.resolve_left hs) (hothers.2.resolve_left ht) h
      · rfl

/-- The answer for a range is found from its alternatives. -/
theorem satisfies_rangeText {version : String} {spellings : List Spelling}
    (hread : read (Text.trimChars version.toList) = .ok v) (hne : spellings ≠ []) :
  satisfies (rangeText spellings) version = anyAdmits v (spellings.map fun s => s.text.toList)
  := by
  rw [satisfies_of_read hread, rangeText, alternatives_intercalate, List.map_map]
  · rfl
  · simpa using hne
  · intro text htext
    obtain ⟨s, -, rfl⟩ := List.mem_map.1 htext
    apply s.separate_text

end Spelling

end Range

open Range (Spelling)
open Range.Spelling (rangeText Shielded IsMatch)

/-- Two spellings of a range, with the letter `v` in front of versions or without it and with any blanks
between words, get the same answer exactly if there is none for both, or if in both each alternative that
is not spelled plainly stands behind one that the version satisfies.  So blanks and letters make a
difference only where the letter is written behind a sign or next to a hyphen, or a hyphen is not between
spaces. -/
theorem respellings_agree_iff (version : String) {ones others : List Spelling}
    (h : ones.map Spelling.outline = others.map Spelling.outline) :
  (satisfies (rangeText ones) version).toOption = (satisfies (rangeText others) version).toOption
    ↔ ((satisfies (rangeText ones) version).toOption = none
        ∧ (satisfies (rangeText others) version).toOption = none)
      ∨ Shielded (fun s => satisfies s.text version = .ok true) ones
        ∧ Shielded (fun s => satisfies s.text version = .ok true) others
  := by
  cases hread : read (Text.trimChars version.toList) with
  | error e => simp [toOption_satisfies_of_error hread]
  | ok v =>
    have hmatch : (fun s : Spelling => satisfies s.text version = .ok true) = IsMatch v := by
      funext s
      apply propext (satisfies_eq_true_iff hread s.separate_text)
    rw [hmatch]
    by_cases hne : ones = []
    · subst hne
      obtain rfl := List.map_eq_nil_iff.1 h.symm
      simp [Spelling.shielded_nil]
    · have hothers_ne : others ≠ [] := by
        rintro rfl
        apply hne (List.map_eq_nil_iff.1 h)
      rw [Spelling.satisfies_rangeText hread hne, Spelling.satisfies_rangeText hread hothers_ne]
      constructor
      · intro heq
        by_cases hones : Shielded (IsMatch v) ones
        · by_cases hothers : Shielded (IsMatch v) others
          · exact .inr ⟨hones, hothers⟩
          · have hnone := Spelling.toOption_anyAdmits_of_not_shielded hothers
            exact .inl ⟨heq.trans hnone, hnone⟩
        · have hnone := Spelling.toOption_anyAdmits_of_not_shielded hones
          exact .inl ⟨hnone, heq.symm.trans hnone⟩
      · rintro (⟨hones, hothers⟩ | ⟨hones, hothers⟩)
        · rw [hones, hothers]
        · apply Spelling.toOption_anyAdmits_congr hones hothers h

/-! ### Samples -/

namespace Range

/-- The version with a single number. -/
def VersionWord.sample (n : Nat) : VersionWord := .ofPartial (.major n) (Nat.lt_succ_self n)

def Blanks.none : Blanks := ⟨[], Text.blank_nil⟩

def Gap.space : Gap := ⟨⟨[' '], by decide⟩, by decide⟩

def Gap.tab : Gap := ⟨⟨['\t'], by decide⟩, by decide⟩

/-- A tab between spaces. -/
def Gap.mixed : Gap := ⟨⟨[' ', '\t', ' '], by decide⟩, by decide⟩

namespace Spelling

/-- The alternative `1` behind some blanks, with the letter `v` or without it. -/
def sampleBare (before : Blanks) (marked : Bool) : Spelling :=
  ⟨before, .bounds ⟨none, ⟨.sample 1, marked⟩⟩ [], .none⟩

/-- The alternative `3 - 4` with some blanks around the hyphen. -/
def sampleBetween (gap : Gap) : Spelling :=
  ⟨.none, .between ⟨.sample 3, false⟩ gap gap ⟨.sample 4, false⟩, .none⟩

/-- The alternative `^5`, with the letter `v` or without it. -/
def sampleSigned (marked : Bool) : Spelling :=
  ⟨.none, .bounds ⟨some (.caret, .none), ⟨.sample 5, marked⟩⟩ [], .none⟩

def samplePlain : List Spelling :=
  [sampleBare .none false, sampleBetween .space, sampleSigned false]

/-- Another spelling, which is not plain behind the second alternative. -/
def sampleOther : List Spelling :=
  [sampleBare Gap.tab.toBlanks true, sampleBetween .mixed, sampleSigned true]

theorem isPlain_sampleBare (before : Blanks) (marked : Bool) :
  (sampleBare before marked).IsPlain
  := by
  rintro b hb
  obtain rfl := List.mem_singleton.1 hb
  exact .inl rfl

theorem isPlain_sampleSigned :
  (sampleSigned false).IsPlain
  := by
  rintro b hb
  obtain rfl := List.mem_singleton.1 hb
  exact .inr rfl

end Spelling

end Range

open Range.Spelling (samplePlain sampleOther sampleBare sampleBetween sampleSigned)

/-- The letter `v` behind a sign makes no difference for a version that satisfies an alternative in
front of it. -/
theorem respellings_agree_iff_of_sample :
  samplePlain.map Spelling.outline = sampleOther.map Spelling.outline
    ∧ rangeText samplePlain = "1||3 - 4||^5" ∧ rangeText sampleOther = "\tv1||3 \t - \t 4||^v5"
    ∧ satisfies (rangeText samplePlain) "3.5.0" = .ok true
    ∧ (satisfies (rangeText samplePlain) "3.5.0").toOption
      = (satisfies (rangeText sampleOther) "3.5.0").toOption
  := by
  have houtlines : samplePlain.map Spelling.outline = sampleOther.map Spelling.outline := rfl
  refine ⟨houtlines, by decide +kernel, by decide +kernel, by decide +kernel, ?_⟩
  apply (respellings_agree_iff "3.5.0" houtlines).2
  right
  constructor
  · simp only [samplePlain, Spelling.shielded_cons_iff]
    have hbetween : (sampleBetween .space).IsPlain := ⟨rfl, rfl, rfl, rfl⟩
    exact ⟨Spelling.isPlain_sampleBare _ _, .inr ⟨hbetween, .inr
      ⟨Spelling.isPlain_sampleSigned, .inr (Spelling.shielded_nil _)⟩⟩⟩
  · simp only [sampleOther, Spelling.shielded_cons_iff]
    have hbetween : (sampleBetween .mixed).IsPlain := ⟨rfl, rfl, rfl, rfl⟩
    exact ⟨Spelling.isPlain_sampleBare _ _, .inr ⟨hbetween, .inl (by decide +kernel)⟩⟩

/-- The letter `v` behind a sign, and tabs around a hyphen, make a difference: there is an answer for
the plain spellings and none for the others. -/
theorem other_spellings_are_refused :
  (sampleSigned true).outline = (sampleSigned false).outline
    ∧ (sampleSigned false).text = "^5" ∧ (sampleSigned true).text = "^v5"
    ∧ satisfies "^5" "5.4.0" = .ok true ∧ (satisfies "^v5" "5.4.0").toOption = none
    ∧ (sampleBetween .tab).outline = (sampleBetween .space).outline
    ∧ (sampleBetween .space).text = "3 - 4" ∧ (sampleBetween .tab).text = "3\t-\t4"
    ∧ satisfies "3 - 4" "3.5.0" = .ok true ∧ (satisfies "3\t-\t4" "3.5.0").toOption = none
  := by
  refine ⟨rfl, by decide +kernel, by decide +kernel, by decide +kernel, by decide +kernel, rfl,
    by decide +kernel, by decide +kernel, by decide +kernel, by decide +kernel⟩

end PluginHost.Version

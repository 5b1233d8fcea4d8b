import PluginHost.Proofs.RangeNotation

/-!
# The meaning of ranges

The words of an alternative are joined into the texts of its terms
(`Range.joinOperators_of_spellsTerms`), and a hyphen between spaces stands nowhere but between two
versions (`Range.cutFirst_of_spellsTerms`).  So an alternative is read as the requirement with the
comparators that it stands for (`Range.readAlternative_spells`), and a release satisfies a range if
it satisfies one of the alternatives (`satisfies_means_some_alternative`).
-/

namespace PluginHost.Version

open Text (Blank IsWord Trimmed)
open Requirement (comma)

variable {text rest : List Char} {t : Term} {terms : List Term} {limit : Nat}

/-! ### The texts of signs and terms -/

namespace Sign

theorem isOperatorText_text (sign : Sign) :
  Range.isOperatorText sign.text = true
  := by
  cases sign <;> rfl

/-- A sign has neither blanks nor bars. -/
theorem plain_of_mem_text (sign : Sign) :
  ∀ c ∈ sign.text, Text.isBlank c = false ∧ c ≠ '|'
  := by
  have hall : sign.text.all (fun c => !Text.isBlank c && c != '|') = true := by
    cases sign <;> rfl
  simpa using hall

theorem isWord_text (sign : Sign) :
  IsWord sign.text
  := by
  constructor
  · cases sign <;> apply List.cons_ne_nil
  · intro c hc
    apply (sign.plain_of_mem_text c hc).1

end Sign

theorem ne_bar_of_blank {blanks : List Char} (h : Blank blanks) :
  ∀ c ∈ blanks, c ≠ '|'
  := by
  rintro c hc rfl
  cases h '|' hc

namespace Term

/-- A term has a version, which is a word. -/
theorem Spells.trimmed (h : t.Spells text) (ht : t.version.Proper limit) :
  Trimmed text ∧ text ≠ []
  := by
  have hversion : IsWord t.version.text := Partial.isWord_text ht
  cases h with
  | bare version => exact ⟨hversion.trimmed, hversion.ne_nil⟩
  | signed sign hblanks version =>
    constructor
    · apply sign.isWord_text.trimmed.append hversion.trimmed sign.isWord_text.ne_nil hversion.ne_nil
    · simp [hversion.ne_nil]

theorem Spells.exists_cons (h : t.Spells text) :
  ∃ c cs, text = c :: cs ∧ Opens c
  := by
  cases h with
  | bare version =>
    obtain ⟨c, cs, htext, hc⟩ := version.exists_text
    exact ⟨c, cs, htext, .inl hc⟩
  | signed sign hblanks version =>
    obtain ⟨c, cs, htext, hc⟩ := sign.exists_text
    rw [htext]
    exact ⟨c, _, rfl, hc⟩

/-- There is no bar in a term. -/
theorem Spells.ne_bar (h : t.Spells text) (ht : t.version.Proper limit) :
  ∀ c ∈ text, c ≠ '|'
  := by
  have hversion : ∀ c ∈ t.version.text, c ≠ '|' := by
    rintro c hc rfl
    have hchar := Partial.inVersion_of_text ht _ hc
    revert hchar
    unfold InVersion
    decide
  cases h with
  | bare version => apply hversion
  | signed sign hblanks version =>
    rw [List.forall_mem_append, List.forall_mem_append]
    have hsign : ∀ c ∈ sign.text, c ≠ '|' := fun c hc => (sign.plain_of_mem_text c hc).2
    exact ⟨⟨hsign, ne_bar_of_blank hblanks⟩, hversion⟩

end Term

namespace Alternative

/-- Terms begin as the first of them does. -/
theorem SpellsTerms.exists_cons (h : SpellsTerms text terms) :
  ∃ c cs, text = c :: cs ∧ Opens c
  := by
  cases h with
  | one h => apply h.exists_cons
  | cons h hblanks hne hrest =>
    obtain ⟨c, cs, rfl, hc⟩ := h.exists_cons
    exact ⟨c, _, rfl, hc⟩

theorem SpellsTerms.trimmed (h : SpellsTerms text terms)
    (hterms : ∀ t ∈ terms, t.version.Proper limit) :
  Trimmed text ∧ text ≠ []
  := by
  induction h with
  | @one text t h => apply h.trimmed (hterms t List.mem_cons_self)
  | @cons text blanks rest t terms h hblanks hne hrest ih =>
    obtain ⟨htext, htext_ne⟩ := h.trimmed (hterms t List.mem_cons_self)
    obtain ⟨hrest, hrest_ne⟩ := ih fun t ht => hterms t (List.mem_cons_of_mem _ ht)
    use htext.append hrest htext_ne hrest_ne blanks
    simp [htext_ne]

theorem SpellsTerms.ne_bar (h : SpellsTerms text terms)
    (hterms : ∀ t ∈ terms, t.version.Proper limit) :
  ∀ c ∈ text, c ≠ '|'
  := by
  induction h with
  | @one text t h => apply h.ne_bar (hterms t List.mem_cons_self)
  | @cons text blanks rest t terms h hblanks hne hrest ih =>
    rw [List.forall_mem_append, List.forall_mem_append]
    exact ⟨⟨h.ne_bar (hterms t List.mem_cons_self), ne_bar_of_blank hblanks⟩,
      ih fun t ht => hterms t (List.mem_cons_of_mem _ ht)⟩

variable {a : Alternative}

/-- Trimming takes all blanks around an alternative away. -/
theorem SpellsCore.trimmed (h : SpellsCore text a) (ha : a.Proper) :
  Trimmed text
  := by
  cases h with
  | nothing =>
    constructor <;> rintro c ⟨⟩
  | wildcard hmark =>
    obtain rfl | rfl | rfl := hmark
    all_goals constructor <;> rintro c ⟨⟩ <;> decide
  | @between low high before after hbefore hafter =>
    have hlow := Partial.isWord_text ha.1
    have hhigh := Partial.isWord_text ha.2
    have htrimmed := hlow.trimmed.append hhigh.trimmed hlow.ne_nil hhigh.ne_nil
      (before ++ [' ', '-', ' '] ++ after)
    simpa only [List.append_assoc] using htrimmed
  | all hterms => apply (hterms.trimmed ha.1).1

/-- An alternative without blanks around it is empty or a wildcard only if it admits every
release. -/
theorem SpellsCore.exists_cons (h : SpellsCore text a) (ha : a ≠ any) :
  ∃ c cs, text = c :: cs ∧ Opens c
  := by
  cases h with
  | nothing | wildcard hmark => cases ha rfl
  | between low high hbefore hafter =>
    obtain ⟨c, cs, htext, hc⟩ := low.exists_text
    rw [htext]
    exact ⟨c, _, rfl, .inl hc⟩
  | all hterms => apply hterms.exists_cons

/-- Such an alternative stands for terms. -/
theorem SpellsCore.bounding_ne_nil (h : SpellsCore text a) (ha : a ≠ any) :
  a.bounding ≠ []
  := by
  cases h with
  | nothing | wildcard hmark => cases ha rfl
  | between low high hbefore hafter => apply List.cons_ne_nil
  | all hterms =>
    cases hterms with
    | one h | cons h hblanks hne hrest => simp [bounding, Term.bounding_ne_nil]

/-- There is no bar in an alternative. -/
theorem Spells.ne_bar (h : Spells text a) (ha : a.Proper) :
  ∀ c ∈ text, c ≠ '|'
  := by
  obtain ⟨hbefore, hcore, hafter⟩ := h
  rw [List.forall_mem_append, List.forall_mem_append]
  refine ⟨⟨ne_bar_of_blank hbefore, ?_⟩, ne_bar_of_blank hafter⟩
  cases hcore with
  | nothing => simp
  | wildcard hmark =>
    rw [List.forall_mem_singleton]
    obtain rfl | rfl | rfl := hmark <;> decide
  | between low high hbefore hafter =>
    have hlow := (Term.Spells.bare low).ne_bar ha.1
    have hhigh := (Term.Spells.bare high).ne_bar ha.2
    simp only [List.forall_mem_append]
    exact ⟨⟨⟨⟨hlow, ne_bar_of_blank hbefore⟩, by simp⟩, ne_bar_of_blank hafter⟩, hhigh⟩
  | all hterms => apply hterms.ne_bar ha.1

end Alternative

namespace Range

/-! ### Words and operators -/

theorem isOperatorText_of_digit {c : Char} (h : Text.isDigit c = true) (cs : List Char) :
  isOperatorText (c :: cs) = false
  := by
  have hc : (c == '<' || c == '>' || c == '=' || c == '~' || c == '^') = false := by
    simp only [Bool.or_eq_false_iff, beq_eq_false_iff_ne]
    refine ⟨⟨⟨⟨?_, ?_⟩, ?_⟩, ?_⟩, ?_⟩ <;> rintro rfl <;> cases h
  simp [isOperatorText, hc]

/-- A word that is not an operator is a comparator, with the operators that are pending. -/
theorem joinOperators_word {word : List Char} (hword : isOperatorText word = false)
    (pending : List Char) (others : List (List Char)) :
  joinOperators pending (word :: others) = (pending ++ word) :: joinOperators [] others
  := by
  rw [joinOperators, hword]
  rfl

/-- A word without a sign, in front of a blank or the end, is a comparator. -/
theorem joinOperators_bare {word : List Char} (hword : IsWord word)
    (hversion : isOperatorText word = false) (hrest : ∀ c ∈ rest.head?, Text.isBlank c = true) :
  joinOperators [] (Text.words (word ++ rest)) = word :: joinOperators [] (Text.words rest)
  := by
  rw [Text.words_cons hword hrest]
  apply joinOperators_word hversion

/-- A sign and a word behind it are joined, whether there are blanks between them or not. -/
theorem joinOperators_signed (sign : Sign) {blanks word : List Char} (hblanks : Blank blanks)
    (hword : IsWord word) (hversion : isOperatorText word = false)
    (hrest : ∀ c ∈ rest.head?, Text.isBlank c = true) :
  joinOperators [] (Text.words (sign.text ++ blanks ++ word ++ rest))
    = (sign.text ++ word) :: joinOperators [] (Text.words rest)
  := by
  have hsign := sign.isWord_text
  -- A sign with blanks behind it is a word of its own, which waits for the version.
  by_cases hne : blanks = []
  · subst hne
    have hjoined : IsWord (sign.text ++ word) := by
      use List.append_ne_nil_of_left_ne_nil hsign.ne_nil _
      rw [List.forall_mem_append]
      exact ⟨hsign.isBlank, hword.isBlank⟩
    have hoperator : isOperatorText (sign.text ++ word) = false := by
      rw [isOperatorText, List.all_append, ← isOperatorText, ← isOperatorText, hversion,
        Bool.and_false]
    rw [List.append_nil]
    apply joinOperators_bare hjoined hoperator hrest
  · have hhead := hblanks.head_append hne (word ++ rest)
    rw [List.append_assoc, List.append_assoc, Text.words_cons hsign hhead,
      Text.words_of_blanks hblanks, Text.words_cons hword hrest, joinOperators,
      if_pos sign.isOperatorText_text]
    apply joinOperators_word hversion ([] ++ sign.text)

/-- The words of a term are joined into its text, in front of a blank or the end. -/
theorem joinOperators_of_spells (h : t.Spells text) (ht : t.version.Proper limit)
    (hrest : ∀ c ∈ rest.head?, Text.isBlank c = true) :
  joinOperators [] (Text.words (text ++ rest)) = t.text :: joinOperators [] (Text.words rest)
  := by
  have hword : IsWord t.version.text := Partial.isWord_text ht
  have hversion : isOperatorText t.version.text = false := by
    obtain ⟨c, cs, htext, hc⟩ := t.version.exists_text
    rw [htext]
    apply isOperatorText_of_digit hc
  cases h with
  | bare version => apply joinOperators_bare hword hversion hrest
  | signed sign hblanks version => apply joinOperators_signed sign hblanks hword hversion hrest

/-- The words of terms with blanks between them are joined into their texts. -/
theorem joinOperators_of_spellsTerms (h : Alternative.SpellsTerms text terms)
    (hterms : ∀ t ∈ terms, t.version.Proper limit) :
  joinOperators [] (Text.words text) = terms.map Term.text
  := by
  induction h with
  | @one text t h =>
    have hend : ∀ c ∈ ([] : List Char).head?, Text.isBlank c = true := by
      rintro c ⟨⟩
    have hwords := joinOperators_of_spells h (hterms t List.mem_cons_self) hend
    rw [List.append_nil] at hwords
    rw [hwords, Text.words]
    rfl
  | @cons text blanks rest t terms h hblanks hne hrest ih =>
    rw [List.append_assoc, joinOperators_of_spells h (hterms t List.mem_cons_self)
        (hblanks.head_append hne rest),
      Text.words_of_blanks hblanks, ih fun t ht => hterms t (List.mem_cons_of_mem _ ht)]
    rfl

/-! ### Hyphens -/

theorem hyphen_ne_nil : hyphen ≠ [] := by decide

/-- Blanks are in front of the first hyphen between spaces, if no hyphen follows at once. -/
theorem cutFirst_blanks {blanks : List Char} (h : Blank blanks)
    (hrest : ∀ c ∈ rest.head?, c ≠ '-') :
  Text.cutFirst hyphen (blanks ++ rest)
    = (Text.cutFirst hyphen rest).map fun (front, back) => (blanks ++ front, back)
  := by
  induction blanks with
  | nil => simp
  | cons c blanks ih =>
    have hblanks : Blank blanks := fun d hd => h d (List.mem_cons_of_mem c hd)
    -- A blank may be the space with which the separator starts, but no hyphen follows it.
    have hhead : ∀ d ∈ (blanks ++ rest).head?, d ≠ '-' := by
      cases blanks with
      | nil => apply hrest
      | cons b blanks =>
        rintro d ⟨⟩ rfl
        cases hblanks '-' List.mem_cons_self
    have hcut : Text.cutFirst hyphen (c :: (blanks ++ rest))
        = (Text.cutFirst hyphen (blanks ++ rest)).map fun (front, back) => (c :: front, back) := by
      by_cases hc : c = ' '
      · subst hc
        have hnone : Text.dropStart hyphen (' ' :: (blanks ++ rest)) = none := by
          rw [hyphen, Text.dropStart, if_pos rfl]
          cases hcs : blanks ++ rest with
          | nil => rfl
          | cons d cs =>
            rw [hcs] at hhead
            rw [Text.dropStart, if_neg (hhead d rfl).symm]
        rw [Text.cutFirst, hnone]
      · apply Text.cutFirst_cons _ hyphen_ne_nil
        rintro ⟨⟩
        apply hc rfl
    rw [List.cons_append, hcut, ih hblanks, Option.map_map]
    rfl

/-- A word is in front of the first hyphen between spaces. -/
theorem cutFirst_word {word : List Char} (h : IsWord word) (rest : List Char) :
  Text.cutFirst hyphen (word ++ rest)
    = (Text.cutFirst hyphen rest).map fun (front, back) => (word ++ front, back)
  := by
  apply Text.cutFirst_skip hyphen_ne_nil
  rintro c hc ⟨⟩
  cases h.isBlank _ hc

/-- A sign and a word behind it are in front of the first hyphen between spaces. -/
theorem cutFirst_signed (sign : Sign) {blanks word : List Char} (hblanks : Blank blanks)
    (hword : IsWord word) (hversion : ∀ c ∈ word.head?, c ≠ '-') (rest : List Char) :
  Text.cutFirst hyphen (sign.text ++ blanks ++ word ++ rest)
    = (Text.cutFirst hyphen rest).map fun (front, back) =>
      (sign.text ++ blanks ++ word ++ front, back)
  := by
  have hhead : ∀ c ∈ (word ++ rest).head?, c ≠ '-' := by
    rw [List.head?_append_of_ne_nil _ hword.ne_nil]
    apply hversion
  rw [List.append_assoc, List.append_assoc, cutFirst_word sign.isWord_text,
    cutFirst_blanks hblanks hhead, cutFirst_word hword, Option.map_map, Option.map_map]
  congr 1
  funext ⟨front, back⟩
  simp

/-- A term is in front of the first hyphen between spaces. -/
theorem cutFirst_of_spells (h : t.Spells text) (ht : t.version.Proper limit) (rest : List Char) :
  Text.cutFirst hyphen (text ++ rest)
    = (Text.cutFirst hyphen rest).map fun (front, back) => (text ++ front, back)
  := by
  have hword : IsWord t.version.text := Partial.isWord_text ht
  cases h with
  | bare version => apply cutFirst_word hword
  | signed sign hblanks version =>
    apply cutFirst_signed sign hblanks hword
    obtain ⟨c, cs, htext, hc⟩ := version.exists_text
    rw [htext]
    rintro d ⟨⟩ rfl
    cases hc

/-- There is no hyphen between spaces in terms with blanks between them. -/
theorem cutFirst_of_spellsTerms (h : Alternative.SpellsTerms text terms)
    (hterms : ∀ t ∈ terms, t.version.Proper limit) :
  Text.cutFirst hyphen text = none
  := by
  induction h with
  | @one text t h =>
    have hcut := cutFirst_of_spells h (hterms t List.mem_cons_self) []
    rw [List.append_nil] at hcut
    rw [hcut]
    rfl
  | @cons text blanks rest t terms h hblanks hne hrest ih =>
    have hhead : ∀ c ∈ rest.head?, c ≠ '-' := by
      obtain ⟨c, cs, rfl, hc⟩ := hrest.exists_cons
      rintro d ⟨⟩
      apply (ne_of_opens hc).2.1
    rw [List.append_assoc, cutFirst_of_spells h (hterms t List.mem_cons_self),
      cutFirst_blanks hblanks hhead, ih fun t ht => hterms t (List.mem_cons_of_mem _ ht)]
    rfl

/-! ### Alternatives and ranges -/

variable {a : Alternative}

/-- Two words around a hyphen between spaces become the bounds of what is between them. -/
theorem requirementText_between {low high before after : List Char} (hlow : IsWord low)
    (hhigh : IsWord high) (hbefore : Blank before) (hafter : Blank after) :
  requirementText (low ++ before ++ hyphen ++ after ++ high)
    = comma.intercalate [Sign.atLeast.text ++ low, Sign.atMost.text ++ high]
  := by
  have hcut : Text.cutFirst hyphen (low ++ before ++ hyphen ++ after ++ high)
      = some (low ++ before, after ++ high) := by
    have hhead : ∀ c ∈ (hyphen ++ (after ++ high)).head?, c ≠ '-' := by
      rintro c ⟨⟩
      decide
    rw [List.append_assoc, List.append_assoc, List.append_assoc, cutFirst_word hlow,
      cutFirst_blanks hbefore hhead, Text.cutFirst_sep hyphen_ne_nil]
    simp
  have hfront := Text.trimChars_surrounded Text.blank_nil hbefore hlow.trimmed
  have hback := Text.trimChars_surrounded hafter Text.blank_nil hhigh.trimmed
  rw [List.nil_append] at hfront
  rw [List.append_nil] at hback
  rw [requirementText, hcut]
  simp only [hfront, hback]
  simp [Sign.text, comma]

/-- An alternative that does not admit everything is brought into the notation of requirements as
the terms that it stands for. -/
theorem requirementText_of_spellsCore (h : Alternative.SpellsCore text a) (ha : a.Proper)
    (hany : a ≠ .any) :
  requirementText text = comma.intercalate (a.bounding.map Term.text)
  := by
  cases h with
  | nothing | wildcard hmark => cases hany rfl
  | between low high hbefore hafter =>
    apply requirementText_between (Partial.isWord_text ha.1) (Partial.isWord_text ha.2) hbefore hafter
  | @all text terms hterms =>
    have hjoined := joinOperators_of_spellsTerms hterms ha.1
    have htexts : (terms.map Term.text).map comparatorText
        = (terms.map fun t => t.bounding.map Term.text).map comma.intercalate := by
      rw [List.map_map, List.map_map]
      apply List.map_congr_left
      intro t ht
      apply comparatorText_text (ha.1 t ht)
    have hne : ∀ part ∈ terms.map fun t => t.bounding.map Term.text, part ≠ [] := by
      intro part hpart
      obtain ⟨t, -, rfl⟩ := List.mem_map.1 hpart
      simpa using t.bounding_ne_nil
    rw [requirementText, cutFirst_of_spellsTerms hterms ha.1]
    change comma.intercalate _ = _
    rw [hjoined, htexts, Text.intercalate_flatten comma hne, Alternative.bounding, List.map_flatMap,
      List.flatMap_def]

/-- An alternative is read as the requirement with the comparators that it stands for. -/
theorem readAlternative_spells (h : Alternative.Spells text a) (ha : a.Proper) :
  readAlternative text = .ok ⟨a.bounding.map Term.comparator⟩
  := by
  obtain ⟨hbefore, hcore, hafter⟩ := h
  rw [readAlternative, Text.trimChars_surrounded hbefore hafter (hcore.trimmed ha)]
  by_cases hany : a = .any
  · subst hany
    rw [if_pos]
    · rfl
    · cases hcore with
      | nothing => exact .inl rfl
      | wildcard hmark => obtain rfl | rfl | rfl := hmark <;> simp
  · obtain ⟨c, cs, htext, hc⟩ := hcore.exists_cons hany
    obtain ⟨hproper, hlength⟩ := Alternative.proper_bounding ha
    rw [if_neg, requirementText_of_spellsCore hcore ha hany,
      Requirement.read_intercalate (hcore.bounding_ne_nil hany) hproper hlength]
    · rfl
    · have hwild := (ne_of_opens hc).2.2
      rw [htext]
      rintro (⟨⟨⟩⟩ | ⟨⟨⟩⟩ | ⟨⟨⟩⟩ | ⟨⟨⟩⟩) <;> simp [Partial.IsWild] at hwild

/-- There is no bar in the texts of alternatives. -/
theorem ne_bar_of_forall₂ {texts : List (List Char)} {alternatives : List Alternative}
    (h : List.Forall₂ Alternative.Spells texts alternatives)
    (halternatives : ∀ a ∈ alternatives, a.Proper) :
  ∀ text ∈ texts, ∀ c ∈ text, c ≠ '|'
  := by
  induction h with
  | nil => simp
  | @cons text a texts alternatives ha h ih =>
    rw [List.forall_mem_cons]
    use ha.ne_bar (halternatives a List.mem_cons_self)
    apply ih fun b hb => halternatives b (List.mem_cons_of_mem a hb)

/-- A release satisfies one of the texts of alternatives if it satisfies one of these. -/
theorem anyAdmits_of_forall₂ {texts : List (List Char)} {alternatives : List Alternative}
    {r : Release} (h : List.Forall₂ Alternative.Spells texts alternatives)
    (halternatives : ∀ a ∈ alternatives, a.Proper) :
  anyAdmits r.version texts = .ok (decide (∃ a ∈ alternatives, a.Admits r))
  := by
  induction h with
  | nil => simp [anyAdmits]
  | @cons text a texts alternatives ha h ih =>
    have hread := readAlternative_spells ha (halternatives a List.mem_cons_self)
    have hothers := ih fun b hb => halternatives b (List.mem_cons_of_mem a hb)
    have hadmits : (Requirement.mk (a.bounding.map Term.comparator)).admits r.version = true
        ↔ a.Admits r := by
      rw [← a.admits_bounding]
      simp [Requirement.admits]
    rw [anyAdmits, hread, hothers]
    simp only [bind, Except.bind, hadmits]
    split
    · next h => simp [h, pure, Except.pure]
    · next h => simp [h]

end Range

/-- A range admits the releases that one of its alternatives admits: the intervals between the bounds
of its terms, whatever blanks, signs and omissions the terms are spelled with. -/
theorem satisfies_means_some_alternative {range : String} {alternatives : List Alternative}
    {r : Release} (h : Range.Spells range alternatives)
    (halternatives : ∀ a ∈ alternatives, a.Proper) (hr : r.Proper) :
  satisfies range (String.ofList r.text) = .ok (decide (∃ a ∈ alternatives, a.Admits r))
  := by
  obtain ⟨hne, texts, htext, htexts⟩ := h
  have hversion : Text.trimChars r.text = r.text := by
    have htrimmed := Text.trimChars_surrounded Text.blank_nil Text.blank_nil r.isWord_text.trimmed
    rw [List.nil_append, List.append_nil] at htrimmed
    apply htrimmed
  have hpieces : Range.alternatives range.toList = texts := by
    rw [Range.alternatives, htext]
    apply Text.splitOnText_intercalate (by simp)
    · rintro rfl
      cases htexts
      apply hne rfl
    · rintro text hmem c hc ⟨⟩
      apply Range.ne_bar_of_forall₂ htexts halternatives text hmem '|' hc rfl
  rw [satisfies, String.toList_ofList, hversion, Release.read_text hr, hpieces]
  apply Range.anyAdmits_of_forall₂ htexts halternatives

/-- The alternatives of `>= 1.2 1.x || 3 - 4.1 || ^0.0.3-rc`. -/
def sampleAlternatives : List Alternative :=
  [.all [⟨some .atLeast, .minor 1 2⟩, ⟨none, .anyMinor 1 'x'⟩], .between (.major 3) (.minor 4 1),
    .all [⟨some .caret, .full ⟨0, 0, 3⟩ [['r', 'c']] []⟩]]

theorem satisfies_means_some_alternative_of_sample :
  Range.Spells ">= 1.2 1.x || 3 - 4.1 || ^0.0.3-rc" sampleAlternatives
    ∧ (∀ a ∈ sampleAlternatives, a.Proper)
    ∧ satisfies ">= 1.2 1.x || 3 - 4.1 || ^0.0.3-rc" "4.1.7" = .ok true
    ∧ satisfies ">= 1.2 1.x || 3 - 4.1 || ^0.0.3-rc" "1.1.9" = .ok false
  := by
  have hnil := Text.blank_nil
  have hspace : Blank [' '] := by decide
  have hfirst : Alternative.SpellsTerms _ _ :=
    .cons (.signed .atLeast hspace (.minor 1 2)) hspace (by decide)
      (.one (.bare (.anyMinor 1 'x')))
  have hlast : Alternative.SpellsTerms _ _ :=
    .one (.signed .caret hnil (.full ⟨0, 0, 3⟩ [['r', 'c']] []))
  have htexts : List.Forall₂ Alternative.Spells _ sampleAlternatives :=
    .cons (.intro hnil (.all hfirst) hspace)
      (.cons (.intro hspace (.between (.major 3) (.minor 4 1) hnil hnil) hspace)
        (.cons (.intro hspace (.all hlast) hnil) .nil))
  have hspells : Range.Spells ">= 1.2 1.x || 3 - 4.1 || ^0.0.3-rc" sampleAlternatives := by
    refine ⟨by simp [sampleAlternatives], _, ?_, htexts⟩
    decide +kernel
  have hproper : ∀ a ∈ sampleAlternatives, a.Proper := by
    have hsegment : IsSegment .prerelease ['r', 'c'] := ⟨by decide, List.all_eq_true.1 rfl, by decide⟩
    simp [sampleAlternatives, Alternative.Proper, Partial.Proper, Partial.IsWild, Term.boundsOf,
      Term.bounds, hsegment]
    decide
  have hadmitted : Release.Proper ⟨4, 1, 7⟩ := by constructor <;> decide
  have hrefused : Release.Proper ⟨1, 1, 9⟩ := by constructor <;> decide
  have hyes := satisfies_means_some_alternative hspells hproper hadmitted
  have hno := satisfies_means_some_alternative hspells hproper hrefused
  have hyes_text : String.ofList (Release.text ⟨4, 1, 7⟩) = "4.1.7" := by decide +kernel
  have hno_text : String.ofList (Release.text ⟨1, 1, 9⟩) = "1.1.9" := by decide +kernel
  rw [hyes_text] at hyes
  rw [hno_text] at hno
  use hspells, hproper, hyes, hno

end PluginHost.Version

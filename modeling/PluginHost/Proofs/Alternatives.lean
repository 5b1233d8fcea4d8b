import Mathlib.Data.List.Infix
import Mathlib.Data.List.Perm.Basic
import PluginHost.Proofs.Blanks
import PluginHost.Version.Range

/-!
# The order of alternatives

The alternatives of a range are tried from the left, until a version satisfies one of them or one of
them cannot be read.  So the first alternative that the version does not fail to satisfy decides, and
the order of the alternatives makes no difference if the version satisfies none of them or if all of
them can be read.  If it satisfies one and another cannot be read then it depends on the order whether
there is an answer (`order_matters_iff`, `order_of_unreadable_matters`).
-/

namespace PluginHost

namespace Text

variable {cs : List Char}

/-- Whether a text can be told from what stands around it when texts are joined by double bars: there
is no double bar in it, and no bar at its end, which would run into the double bar behind the text. -/
structure Separate (cs : List Char) : Prop where
  noBars : ¬ ['|', '|'] <:+: cs
  last : cs.getLast? ≠ some '|'

instance (cs : List Char) : Decidable (Separate cs) :=
  decidable_of_iff (¬ ['|', '|'] <:+: cs ∧ cs.getLast? ≠ some '|')
    ⟨fun h => ⟨h.1, h.2⟩, fun h => ⟨h.1, h.2⟩⟩

/-- A separate text stays separate without its first character. -/
theorem Separate.tail {c : Char} (h : Separate (c :: cs)) :
  Separate cs
  := by
  constructor
  · intro hbars
    apply h.noBars (hbars.trans (List.suffix_cons c cs).isInfix)
  · intro hlast
    apply h.last
    rw [List.getLast?_cons, hlast]
    rfl

/-- A separate text is in front of the first double bar, if one follows. -/
theorem cutFirst_of_separate (h : Separate cs) (rest : List Char) :
  cutFirst ['|', '|'] (cs ++ ['|', '|'] ++ rest) = some (cs, rest)
  := by
  induction cs with
  | nil => apply cutFirst_sep (by simp)
  | cons c cs ih =>
    have hnone : dropStart ['|', '|'] (c :: (cs ++ ['|', '|'] ++ rest)) = none := by
      by_cases hc : c = '|'
      · subst hc
        cases cs with
        | nil => cases h.last rfl
        | cons d cs =>
          have hd : '|' ≠ d := by
            rintro rfl
            apply h.noBars
            exact ⟨[], cs, rfl⟩
          simp [dropStart, hd]
      · simp [dropStart, Ne.symm hc]
    rw [List.cons_append, List.cons_append, cutFirst, hnone, ih h.tail]
    rfl

/-- Separate texts that are joined by double bars are the pieces between these. -/
theorem splitOnText_of_separate {texts : List (List Char)} (hne : texts ≠ [])
    (h : ∀ text ∈ texts, Separate text) :
  splitOnText ['|', '|'] (by simp) (['|', '|'].intercalate texts) = texts
  := by
  induction texts with
  | nil => cases hne rfl
  | cons text others ih =>
    have htext := h text List.mem_cons_self
    have hothers : ∀ other ∈ others, Separate other :=
      fun other hother => h other (List.mem_cons_of_mem text hother)
    cases others with
    | nil =>
      rw [List.intercalate_singleton]
      apply splitOnText_of_absent _ htext.noBars
    | cons other others =>
      rw [splitOnText, List.intercalate_cons_cons]
      split
      · next hnone =>
        rw [cutFirst_of_separate htext] at hnone
        cases hnone
      · next hsome =>
        rw [cutFirst_of_separate htext] at hsome
        cases hsome
        rw [ih (List.cons_ne_nil _ _) hothers]

end Text

namespace Version

open Text (Separate)

namespace Range

variable {v : Version}

/-- Whether a version satisfies an alternative, if that can be read. -/
def answer? (v : Version) (alternative : List Char) : Option Bool :=
  ((readAlternative alternative).map (·.admits v)).toOption

/-- An alternative decides for a version unless it is read and the version fails to satisfy it. -/
theorem toOption_anyAdmits_cons (alternative : List Char) (rest : List (List Char)) :
  (anyAdmits v (alternative :: rest)).toOption
    = if answer? v alternative = some false then (anyAdmits v rest).toOption
      else answer? v alternative
  := by
  rw [anyAdmits, answer?]
  cases readAlternative alternative with
  | error e => rfl
  | ok requirement =>
    change (if requirement.admits v = true then Except.ok true else anyAdmits v rest).toOption
      = if some (requirement.admits v) = some false then (anyAdmits v rest).toOption
        else some (requirement.admits v)
    cases hadmits : requirement.admits v with
    | false => rfl
    | true => rfl

theorem toOption_anyAdmits_singleton (alternative : List Char) :
  (anyAdmits v [alternative]).toOption = answer? v alternative
  := by
  rw [toOption_anyAdmits_cons]
  split
  · next h =>
    rw [h]
    rfl
  · rfl

/-- If a version satisfies no alternative then there is an answer exactly if all of them can be
read. -/
theorem toOption_anyAdmits_of_no_match {alternatives : List (List Char)}
    (h : ∀ a ∈ alternatives, answer? v a ≠ some true) :
  (anyAdmits v alternatives).toOption
    = if ∃ a ∈ alternatives, answer? v a = none then none else some false
  := by
  induction alternatives with
  | nil => rfl
  | cons a alternatives ih =>
    have ha := h a List.mem_cons_self
    have hrest := ih fun b hb => h b (List.mem_cons_of_mem a hb)
    rw [toOption_anyAdmits_cons, hrest]
    cases hanswer : answer? v a with
    | none => simp [hanswer]
    | some b =>
      cases b with
      | false => simp [hanswer]
      | true => cases ha hanswer

/-- If all alternatives can be read then the answer is whether a version satisfies one of them. -/
theorem toOption_anyAdmits_of_readable {alternatives : List (List Char)}
    (h : ∀ a ∈ alternatives, answer? v a ≠ none) :
  (anyAdmits v alternatives).toOption
    = some (decide (∃ a ∈ alternatives, answer? v a = some true))
  := by
  induction alternatives with
  | nil => rfl
  | cons a alternatives ih =>
    have ha := h a List.mem_cons_self
    have hrest := ih fun b hb => h b (List.mem_cons_of_mem a hb)
    rw [toOption_anyAdmits_cons, hrest]
    cases hanswer : answer? v a with
    | none => cases ha hanswer
    | some b => cases b <;> simp [hanswer]

/-- The order of alternatives makes a difference for a version exactly if the version satisfies one of
them and another cannot be read. -/
theorem anyAdmits_perm_iff {texts : List String} :
  (∀ others : List String, others.Perm texts →
      (anyAdmits v (others.map String.toList)).toOption
        = (anyAdmits v (texts.map String.toList)).toOption)
    ↔ ¬ ((∃ text ∈ texts, answer? v text.toList = some true)
      ∧ ∃ text ∈ texts, answer? v text.toList = none)
  := by
  constructor
  · rintro h ⟨⟨one, hone, hmatch⟩, other, hother, hunread⟩
    have hfirst := h _ (List.perm_cons_erase hone).symm
    have hlast := h _ (List.perm_cons_erase hother).symm
    rw [List.map_cons, toOption_anyAdmits_cons, hmatch, if_neg (by simp)] at hfirst
    rw [List.map_cons, toOption_anyAdmits_cons, hunread, if_neg (by simp), ← hfirst] at hlast
    cases hlast
  · intro h others hperm
    have hmem : ∀ a, a ∈ others.map String.toList ↔ a ∈ texts.map String.toList :=
      fun a => (hperm.map _).mem_iff
    by_cases hmatch : ∃ text ∈ texts, answer? v text.toList = some true
    · have hread : ∀ a ∈ texts.map String.toList, answer? v a ≠ none := by
        rintro a ha hnone
        obtain ⟨text, htext, rfl⟩ := List.mem_map.1 ha
        apply h ⟨hmatch, text, htext, hnone⟩
      rw [toOption_anyAdmits_of_readable hread,
        toOption_anyAdmits_of_readable fun a ha => hread a ((hmem a).1 ha)]
      simp only [hmem]
    · have hfail : ∀ a ∈ texts.map String.toList, answer? v a ≠ some true := by
        rintro a ha hsome
        obtain ⟨text, htext, rfl⟩ := List.mem_map.1 ha
        apply hmatch ⟨text, htext, hsome⟩
      rw [toOption_anyAdmits_of_no_match hfail,
        toOption_anyAdmits_of_no_match fun a ha => hfail a ((hmem a).1 ha)]
      simp only [hmem]

end Range

variable {version : String}

/-- The alternatives of a range are the texts that it is joined of. -/
theorem alternatives_intercalate {texts : List String} (hne : texts ≠ [])
    (h : ∀ text ∈ texts, Separate text.toList) :
  Range.alternatives ("||".intercalate texts).toList = texts.map String.toList
  := by
  rw [String.toList_intercalate]
  apply Text.splitOnText_of_separate (by simpa using hne)
  intro text htext
  obtain ⟨s, hs, rfl⟩ := List.mem_map.1 htext
  apply h s hs

/-- There is no answer for a text that spells no version. -/
theorem toOption_satisfies_of_error {e : ReadError}
    (h : read (Text.trimChars version.toList) = .error e) (range : String) :
  (satisfies range version).toOption = none
  := by
  rw [satisfies, h]
  rfl

theorem satisfies_of_read {v : Version} (h : read (Text.trimChars version.toList) = .ok v)
    (range : String) :
  satisfies range version = Range.anyAdmits v (Range.alternatives range.toList)
  := by
  rw [satisfies, h]
  rfl

/-- The answer for a range of one alternative is the answer for the alternative. -/
theorem toOption_satisfies_single {v : Version} {text : String}
    (h : read (Text.trimChars version.toList) = .ok v) (htext : Separate text.toList) :
  (satisfies text version).toOption = Range.answer? v text.toList
  := by
  have hone := alternatives_intercalate (List.cons_ne_nil text [])
    (by simpa using htext)
  rw [satisfies_of_read h, ← Range.toOption_anyAdmits_singleton]
  rw [String.intercalate_singleton] at hone
  rw [hone]
  rfl

theorem satisfies_eq_true_iff {v : Version} {text : String}
    (h : read (Text.trimChars version.toList) = .ok v) (htext : Separate text.toList) :
  satisfies text version = .ok true ↔ Range.answer? v text.toList = some true
  := by
  rw [← toOption_satisfies_single h htext]
  cases satisfies text version <;> simp [Except.toOption]

/-- The order of alternatives makes a difference for a version exactly if the version satisfies one of
them and another cannot be read. -/
theorem order_matters_iff (version : String) {texts : List String}
    (h : ∀ text ∈ texts, Separate text.toList) :
  (∀ others : List String, others.Perm texts →
      (satisfies ("||".intercalate others) version).toOption
        = (satisfies ("||".intercalate texts) version).toOption)
    ↔ ¬ ((∃ text ∈ texts, satisfies text version = .ok true)
      ∧ ∃ text ∈ texts, (satisfies text version).toOption = none)
  := by
  have htrue : ∀ text, satisfies text version = .ok true
      ↔ (satisfies text version).toOption = some true := by
    intro text
    cases satisfies text version <;> simp [Except.toOption]
  simp only [htrue]
  cases hread : read (Text.trimChars version.toList) with
  | error e => simp [toOption_satisfies_of_error hread]
  | ok v =>
    by_cases hne : texts = []
    · subst hne
      simp
    · have hone : ∀ text ∈ texts, (satisfies text version).toOption = Range.answer? v text.toList :=
        fun text htext => toOption_satisfies_single hread (h text htext)
      have hjoined : ∀ others : List String, others.Perm texts →
          satisfies ("||".intercalate others) version
            = Range.anyAdmits v (others.map String.toList) := by
        intro others hperm
        rw [satisfies_of_read hread, alternatives_intercalate]
        · rintro rfl
          apply hne hperm.symm.eq_nil
        · intro text htext
          apply h text (hperm.mem_iff.1 htext)
      have hsome : ∀ answer, (∃ text ∈ texts, (satisfies text version).toOption = answer)
          ↔ ∃ text ∈ texts, Range.answer? v text.toList = answer := by
        intro answer
        apply exists_congr
        intro text
        apply and_congr_right
        intro htext
        rw [hone text htext]
      rw [hsome, hsome, ← Range.anyAdmits_perm_iff, hjoined texts (List.Perm.refl texts)]
      apply forall_congr'
      intro others
      apply imp_congr_right
      intro hperm
      rw [hjoined others hperm]

/-- The order makes no difference for a version that satisfies one of two alternatives that can be read,
and for one that satisfies none of two alternatives of which one cannot. -/
theorem order_matters_iff_of_sample :
  (∀ text ∈ ["2", "^1.2", "latest"], Separate text.toList)
    ∧ satisfies "2||^1.2" "1.5.0" = .ok true
    ∧ (satisfies "^1.2||2" "1.5.0").toOption = (satisfies "2||^1.2" "1.5.0").toOption
    ∧ (satisfies "2||latest" "1.5.0").toOption = none
    ∧ (satisfies "latest||2" "1.5.0").toOption = (satisfies "2||latest" "1.5.0").toOption
  := by
  have hreadable := (@order_matters_iff "1.5.0" ["2", "^1.2"] (by decide +kernel)).2
  have hunmatched := (@order_matters_iff "1.5.0" ["2", "latest"] (by decide +kernel)).2
  refine ⟨by decide +kernel, by decide +kernel, ?_, by decide +kernel, ?_⟩
  · apply hreadable _ ["^1.2", "2"] (List.Perm.swap _ _ _)
    have hread : ∀ text ∈ ["2", "^1.2"], (satisfies text "1.5.0").toOption ≠ none := by
      decide +kernel
    rintro ⟨-, text, htext, hnone⟩
    apply hread text htext hnone
  · apply hunmatched _ ["latest", "2"] (List.Perm.swap _ _ _)
    have hfail : ∀ text ∈ ["2", "latest"], satisfies text "1.5.0" ≠ .ok true := by
      decide +kernel
    rintro ⟨⟨text, htext, hmatch⟩, -⟩
    apply hfail text htext hmatch

/-- For a version that satisfies one of two alternatives, of which the other cannot be read, there is an
answer in the one order and none in the other. -/
theorem order_of_unreadable_matters :
  (∀ text ∈ ["1.0.0", "latest"], ¬ ['|', '|'] <:+: text.toList)
    ∧ ["latest", "1.0.0"].Perm ["1.0.0", "latest"]
    ∧ satisfies ("||".intercalate ["1.0.0", "latest"]) "1.0.0" = .ok true
    ∧ (satisfies ("||".intercalate ["latest", "1.0.0"]) "1.0.0").toOption = none
  := by
  refine ⟨by decide +kernel, List.Perm.swap _ _ _, by decide +kernel, by decide +kernel⟩

end Version

end PluginHost

import PluginHost.Proofs.Alternatives
import PluginHost.Proofs.RequirementPieces

/-!
# The operators of a range

The words of an alternative without a hyphen are versions and operators that stand alone.  An operator
is put in front of the version behind it, and what they spell together is read (`Range.Applied`).  So
an answer for the alternative rests on all of its words exactly if the last of them is not an operator;
operators behind the last version are left out, and the answer rests on the words in front of them
(`operators_applied_iff`, `operator_left_over_is_dropped`).
-/

namespace PluginHost.Version

namespace Range

/-! ### Operators in front of versions -/

/-- The comparators that words stand for, where each operator is applied to the version behind it: what
the operators and the version spell together is read as a requirement.  A version without operators is
brought into the notation of requirements first. -/
inductive Applied : List (List Char) → List Comparator → Prop
  | nil : Applied [] []
  | bare {word : List Char} {words : List (List Char)} {first others : List Comparator}
    (hword : isOperatorText word = false)
    (hread : Requirement.read (comparatorText word) = .ok ⟨first⟩) (hrest : Applied words others) :
    Applied (word :: words) (first ++ others)
  | signed {operators : List (List Char)} {word : List Char} {words : List (List Char)}
    {first others : List Comparator} (hne : operators ≠ [])
    (hoperators : ∀ operator ∈ operators, isOperatorText operator = true)
    (hword : isOperatorText word = false)
    (hread : Requirement.read (operators.flatten ++ word) = .ok ⟨first⟩)
    (hrest : Applied words others) :
    Applied (operators ++ word :: words) (first ++ others)

/-- There is a version behind every operator that is applied. -/
theorem Applied.last {words : List (List Char)} {comparators : List Comparator}
    (h : Applied words comparators) :
  ∀ word ∈ words.getLast?, isOperatorText word = false
  := by
  have hcons : ∀ {word : List Char} {words : List (List Char)}, isOperatorText word = false →
      (∀ last ∈ words.getLast?, isOperatorText last = false) →
      ∀ last ∈ (word :: words).getLast?, isOperatorText last = false := by
    intro word words hword hwords last hlast
    cases words with
    | nil =>
      cases hlast
      apply hword
    | cons other words =>
      rw [List.getLast?_cons_cons] at hlast
      apply hwords last hlast
  induction h with
  | nil => rintro word ⟨⟩
  | bare hword hread hrest ih => apply hcons hword ih
  | signed hne hoperators hword hread hrest ih =>
    rw [List.getLast?_append_of_ne_nil _ (List.cons_ne_nil _ _)]
    apply hcons hword ih

/-- A text that begins with an operator stays as it is. -/
theorem comparatorText_operators {operators : List Char} (hne : operators ≠ [])
    (h : isOperatorText operators = true) (word : List Char) :
  comparatorText (operators ++ word) = operators ++ word
  := by
  cases operators with
  | nil => cases hne rfl
  | cons c operators =>
    rw [isOperatorText, List.all_cons, Bool.and_eq_true] at h
    have hc : c ≠ 'v' ∧ Text.isDigit c = false := by
      have hsign := h.1
      simp only [Bool.or_eq_true, beq_iff_eq] at hsign
      rcases hsign with (((rfl | rfl) | rfl) | rfl) | rfl <;> decide
    rw [List.cons_append]
    unfold comparatorText
    split
    · next hcs =>
      cases hcs
      cases hc.1 rfl
    · simp [hc.2]

theorem isOperatorText_flatten {operators : List (List Char)}
    (h : ∀ operator ∈ operators, isOperatorText operator = true) :
  isOperatorText operators.flatten = true
  := by
  rw [isOperatorText, List.all_flatten, List.all_eq_true]
  apply h

/-- Words of which all comparators are read, with operators waiting in front of them, are applied up to
the operators behind the last version. -/
theorem exists_applied {operators words : List (List Char)} {parts : List (List Comparator)}
    (hoperators : ∀ operator ∈ operators, operator ≠ [] ∧ isOperatorText operator = true)
    (hwords : ∀ word ∈ words, word ≠ [])
    (h : List.Forall₂ (fun text part => Requirement.read text = .ok ⟨part⟩)
      ((joinOperators operators.flatten words).map comparatorText) parts) :
  ∃ front left, operators ++ words = front ++ left
    ∧ (∀ operator ∈ left, isOperatorText operator = true) ∧ Applied front parts.flatten
  := by
  -- the words that are taken for operators join those that are waiting
  induction words generalizing operators parts with
  | nil =>
    cases h
    use [], operators, List.append_nil _, fun operator hmem => (hoperators operator hmem).2
    apply Applied.nil
  | cons word words ih =>
    rw [List.forall_mem_cons] at hwords
    rw [joinOperators] at h
    cases hword : isOperatorText word with
    | true =>
      have hflatten : operators.flatten ++ word = (operators ++ [word]).flatten := by simp
      rw [hword, if_pos rfl, hflatten] at h
      have hmore : ∀ operator ∈ operators ++ [word],
          operator ≠ [] ∧ isOperatorText operator = true := by
        rw [List.forall_mem_append, List.forall_mem_singleton]
        exact ⟨hoperators, hwords.1, hword⟩
      simpa using ih hmore hwords.2 h
    | false =>
      rw [hword, if_neg Bool.false_ne_true, List.map_cons] at h
      obtain ⟨first, others, hfirst, hothers, rfl⟩ := List.forall₂_cons_left_iff.1 h
      obtain ⟨front, left, rfl, hleft, happlied⟩ := @ih [] others (by simp) hwords.2 hothers
      by_cases hnone : operators = []
      · subst hnone
        use word :: front, left, rfl, hleft
        apply happlied.bare hword hfirst
      · use operators ++ word :: front, left, by simp, hleft
        have hsigns : ∀ operator ∈ operators, isOperatorText operator = true :=
          fun operator hmem => (hoperators operator hmem).2
        have hflatten : operators.flatten ≠ [] := by
          obtain ⟨operator, hmem⟩ := List.exists_mem_of_ne_nil _ hnone
          intro hnil
          apply (hoperators operator hmem).1
          apply List.flatten_eq_nil_iff.1 hnil _ hmem
        rw [comparatorText_operators hflatten (isOperatorText_flatten hsigns)] at hfirst
        apply happlied.signed hnone hsigns hword hfirst

/-! ### Answers -/

/-- Whether an answer rests on all of the words: each of them is applied, and the answer is whether the
version that a text spells satisfies the comparators. -/
def AnsweredBy (words : List (List Char)) (version : String) (answer : Bool) : Prop :=
  ∃ v comparators, read (Text.trimChars version.toList) = .ok v ∧ Applied words comparators
    ∧ answer = (Requirement.mk comparators).admits v

/-- No comparators are applied in a text that admits every release. -/
theorem applied_of_wildcard {text : List Char}
    (h : text = [] ∨ text = ['*'] ∨ text = ['x'] ∨ text = ['X']) :
  Applied (Text.words text) []
  := by
  have hmark : ∀ mark, Text.isBlank mark = false → isOperatorText [mark] = false →
      Requirement.read (comparatorText [mark]) = .ok .any → Applied (Text.words [mark]) [] := by
    intro mark hblank hword hread
    have hmark : Text.IsWord [mark] := ⟨List.cons_ne_nil _ _, by simpa using hblank⟩
    rw [Text.words_of_isWord hmark]
    apply Applied.bare hword hread .nil
  obtain rfl | rfl | rfl | rfl := h
  · rw [Text.words_of_blank Text.blank_nil]
    apply Applied.nil
  all_goals apply hmark <;> rfl

/-- An alternative without a hyphen is read as the comparators of its words, up to the operators behind
the last version. -/
theorem exists_applied_of_readAlternative {text : List Char} {requirement : Requirement}
    (hhyphen : ¬ hyphen <:+: Text.trimChars text)
    (h : readAlternative text = .ok requirement) :
  ∃ front left, Text.words text = front ++ left
    ∧ (∀ operator ∈ left, isOperatorText operator = true) ∧ Applied front requirement.comparators
  := by
  rw [← Text.words_trimChars]
  unfold readAlternative at h
  dsimp only at h
  generalize Text.trimChars text = core at *
  split at h
  · next hany =>
    cases h
    use Text.words core, [], (List.append_nil _).symm, by simp
    apply applied_of_wildcard hany
  · cases hread : Requirement.read (requirementText core) with
    | error e =>
      rw [hread] at h
      cases h
    | ok found =>
      rw [hread] at h
      cases h
      have htext : requirementText core
          = Requirement.comma.intercalate ((joinOperators [] (Text.words core)).map comparatorText)
          := by
        unfold requirementText
        rw [Text.cutFirst_of_absent hhyphen]
        rfl
      rw [htext] at hread
      have hne : (joinOperators [] (Text.words core)).map comparatorText ≠ [] := by
        intro hnil
        rw [hnil] at hread
        cases hread
      obtain ⟨parts, hparts, hflatten⟩ := Requirement.exists_pieces hne hread
      rw [hflatten]
      apply @exists_applied [] _ _ (by simp) (Text.ne_nil_of_mem_words core) hparts

/-- An answer for a range of one alternative without a hyphen rests on the words in front of the operators
behind the last version. -/
theorem exists_answeredBy {range version : String} {answer : Bool}
    (hbars : ¬ ['|', '|'] <:+: range.toList)
    (hhyphen : ¬ hyphen <:+: Text.trimChars range.toList)
    (h : satisfies range version = .ok answer) :
  ∃ front left, Text.words range.toList = front ++ left
    ∧ (∀ operator ∈ left, isOperatorText operator = true) ∧ AnsweredBy front version answer
  := by
  cases hread : read (Text.trimChars version.toList) with
  | error e =>
    have hnone := toOption_satisfies_of_error hread range
    rw [h] at hnone
    cases hnone
  | ok v =>
    rw [satisfies_of_read hread, alternatives, Text.splitOnText_of_absent _ hbars] at h
    have hanswer := @toOption_anyAdmits_singleton v range.toList
    rw [h, answer?] at hanswer
    cases hrequirement : readAlternative range.toList with
    | error e =>
      rw [hrequirement] at hanswer
      cases hanswer
    | ok requirement =>
      rw [hrequirement] at hanswer
      cases hanswer
      obtain ⟨front, left, hwords, hleft, happlied⟩ :=
        exists_applied_of_readAlternative hhyphen hrequirement
      exact ⟨front, left, hwords, hleft, v, _, hread, happlied, rfl⟩

end Range

open Range in
/-- An answer for a range of one alternative without a hyphen rests on all words of the range exactly if
the last of them is not an operator.  In any case it rests on the words in front of the operators behind
the last version. -/
theorem operators_applied_iff {range version : String} {answer : Bool}
    (hbars : ¬ ['|', '|'] <:+: range.toList)
    (hhyphen : ¬ hyphen <:+: Text.trimChars range.toList)
    (h : satisfies range version = .ok answer) :
  (AnsweredBy (Text.words range.toList) version answer
      ↔ ∀ word ∈ (Text.words range.toList).getLast?, isOperatorText word = false)
    ∧ ∃ front left, Text.words range.toList = front ++ left
      ∧ (∀ operator ∈ left, isOperatorText operator = true) ∧ AnsweredBy front version answer
  := by
  have hfront := exists_answeredBy hbars hhyphen h
  refine ⟨⟨?_, ?_⟩, hfront⟩
  · rintro ⟨v, comparators, -, happlied, -⟩
    apply happlied.last
  · intro hlast
    obtain ⟨front, left, hwords, hleft, hanswered⟩ := hfront
    cases hend : left.getLast? with
    | none =>
      rw [List.getLast?_eq_none_iff.1 hend, List.append_nil] at hwords
      rw [hwords]
      apply hanswered
    | some operator =>
      -- an operator that is left is the last word
      exfalso
      have hword : operator ∈ (Text.words range.toList).getLast? := by
        rw [hwords, List.getLast?_append, hend]
        rfl
      have hoperator := hleft operator (List.mem_of_getLast? hend)
      rw [hlast operator hword] at hoperator
      cases hoperator

open Range in
/-- An answer rests on all words of a range with signs that stand alone. -/
theorem operators_applied_iff_of_sample :
  ¬ ['|', '|'] <:+: ">= 1.2 < 2".toList ∧ ¬ hyphen <:+: Text.trimChars ">= 1.2 < 2".toList
    ∧ satisfies ">= 1.2 < 2" "1.5.0" = .ok true
    ∧ AnsweredBy (Text.words ">= 1.2 < 2".toList) "1.5.0" true
  := by
  have hbars : ¬ ['|', '|'] <:+: ">= 1.2 < 2".toList := by decide +kernel
  have hhyphen : ¬ hyphen <:+: Text.trimChars ">= 1.2 < 2".toList := by decide +kernel
  have hanswer : satisfies ">= 1.2 < 2" "1.5.0" = .ok true := by decide +kernel
  use hbars, hhyphen, hanswer
  apply (operators_applied_iff hbars hhyphen hanswer).1.2
  decide +kernel

open Range in
/-- There is an answer for a range that ends with an operator, and it does not rest on that. -/
theorem operator_left_over_is_dropped :
  ¬ ['|', '|'] <:+: ">=1.0.0 <".toList ∧ ¬ hyphen <:+: Text.trimChars ">=1.0.0 <".toList
    ∧ Text.words ">=1.0.0 <".toList = [">=1.0.0".toList, ['<']] ∧ isOperatorText ['<'] = true
    ∧ satisfies ">=1.0.0 <" "1.5.0" = .ok true
    ∧ ¬ AnsweredBy (Text.words ">=1.0.0 <".toList) "1.5.0" true
  := by
  have hwords : Text.words ">=1.0.0 <".toList = [">=1.0.0".toList, ['<']] := by decide +kernel
  refine ⟨by decide +kernel, by decide +kernel, hwords, rfl, by decide +kernel, ?_⟩
  rintro ⟨v, comparators, -, happlied, -⟩
  rw [hwords] at happlied
  have hlast := happlied.last ['<'] rfl
  cases hlast

end PluginHost.Version

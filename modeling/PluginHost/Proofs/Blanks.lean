import Mathlib.Data.List.DropRight
import Mathlib.Tactic.Use
import PluginHost.Text.Blank
import PluginHost.Text.Split

/-!
# Texts between blanks and separators

Blanks around a text make no difference to its words (`Text.words_trimChars`) or to what is left when
it is trimmed (`Text.trimChars_surrounded`), and a text without blank characters is one word
(`Text.words_cons`).  A text is cut behind a beginning in which the separator
does not start (`Text.cutFirst_skip`).  So texts that are joined by a separator are the pieces
between its occurrences, if none of them has a character with which the separator starts
(`Text.splitOnText_intercalate`).
-/

namespace PluginHost.Text

variable {c : Char} {cs rest word before after : List Char}

/-! ### Runs of characters -/

variable {p : Char → Bool}

/-- Nothing behind a character that fails a test is in the run at the front. -/
theorem takeWhile_front (hrest : ∀ c ∈ rest.head?, p c = false) (before : List Char) :
  (before ++ rest).takeWhile p = before.takeWhile p
  := by
  induction before with
  | nil =>
    cases rest with
    | nil => rfl
    | cons c rest => simp [hrest c rfl]
  | cons c before ih => simp only [List.cons_append, List.takeWhile_cons, ih]

/-- What follows the run at the front of a text is in front of what begins with a character that fails
the test. -/
theorem dropWhile_front (hrest : ∀ c ∈ rest.head?, p c = false) (before : List Char) :
  (before ++ rest).dropWhile p = before.dropWhile p ++ rest
  := by
  induction before with
  | nil =>
    cases rest with
    | nil => rfl
    | cons c rest => simp [hrest c rfl]
  | cons c before ih =>
    simp only [List.cons_append, List.dropWhile_cons, ih]
    split <;> rfl

/-- A run of characters that satisfy a test ends in front of one that does not. -/
theorem takeWhile_run (hrun : ∀ c ∈ before, p c = true) (hrest : ∀ c ∈ rest.head?, p c = false) :
  (before ++ rest).takeWhile p = before
  := by
  rw [takeWhile_front hrest, List.takeWhile_eq_self_iff.2 hrun]

/-- Behind a run of characters that satisfy a test is what begins with one that does not. -/
theorem dropWhile_run (hrun : ∀ c ∈ before, p c = true) (hrest : ∀ c ∈ rest.head?, p c = false) :
  (before ++ rest).dropWhile p = rest
  := by
  rw [dropWhile_front hrest, List.dropWhile_eq_nil_iff.2 hrun, List.nil_append]

/-! ### Blanks -/

/-- Whether a text consists of blank characters. -/
def Blank (cs : List Char) : Prop := ∀ c ∈ cs, isBlank c = true

instance (cs : List Char) : Decidable (Blank cs) :=
  decidable_of_iff (cs.all isBlank = true) List.all_eq_true

theorem blank_nil :
  Blank []
  := by decide

/-- A text begins with a blank if there are blanks in front of it. -/
theorem Blank.head_append (h : Blank before) (hne : before ≠ []) (cs : List Char) :
  ∀ c ∈ (before ++ cs).head?, isBlank c = true
  := by
  intro c hc
  rw [List.head?_append_of_ne_nil _ hne] at hc
  apply h c (List.mem_of_mem_head? hc)

/-- Whether a text is not empty and has no blank characters. -/
structure IsWord (cs : List Char) : Prop where
  ne_nil : cs ≠ []
  isBlank : ∀ c ∈ cs, isBlank c = false

/-- Whether a text begins and ends with characters that are not blank, if it has any. -/
structure Trimmed (cs : List Char) : Prop where
  head : ∀ c ∈ cs.head?, isBlank c = false
  last : ∀ c ∈ cs.getLast?, isBlank c = false

/-- Trimming takes the blanks around a text away. -/
theorem trimChars_surrounded (hbefore : Blank before) (hafter : Blank after) (h : Trimmed cs) :
  trimChars (before ++ cs ++ after) = cs
  := by
  have hend : trimEndChars (cs ++ after) = cs := by
    rw [trimEndChars, List.reverse_append, dropWhile_run, List.reverse_reverse]
    · intro c hc
      apply hafter c (List.mem_reverse.1 hc)
    · rw [List.head?_reverse]
      apply h.last
  rw [trimChars, trimStartChars, List.append_assoc, List.dropWhile_append_of_pos hbefore]
  cases cs with
  | nil =>
    rw [List.nil_append, List.dropWhile_eq_nil_iff.2 hafter]
    rfl
  | cons c cs =>
    rw [List.cons_append, List.dropWhile_cons_of_neg (by simp [h.head c rfl])]
    apply hend

/-- A word begins and ends with characters that are not blank. -/
theorem IsWord.trimmed (h : IsWord word) :
  Trimmed word
  := by
  constructor
  · intro c hc
    apply h.isBlank c (List.mem_of_mem_head? hc)
  · intro c hc
    apply h.isBlank c (List.mem_of_getLast? hc)

/-- Two texts that begin and end with characters that are not blank do so with anything between
them. -/
theorem Trimmed.append {front back : List Char} (hfront : Trimmed front) (hback : Trimmed back)
    (hf : front ≠ []) (hb : back ≠ []) (between : List Char) :
  Trimmed (front ++ between ++ back)
  := by
  constructor
  · rw [List.append_assoc, List.head?_append_of_ne_nil _ hf]
    apply hfront.head
  · rw [List.getLast?_append_of_ne_nil _ hb]
    apply hback.last

/-! ### Words -/

theorem words_of_blank (h : Blank cs) :
  words cs = []
  := by
  rw [words]
  split
  · rfl
  · next hrest =>
    rw [List.dropWhile_eq_nil_iff.2 h] at hrest
    cases hrest

/-- The first word of a text is what follows its blanks up to the next one. -/
theorem words_of_dropWhile (h : cs.dropWhile isBlank = c :: rest) :
  words cs = (c :: rest).takeWhile (fun d => !isBlank d)
    :: words ((c :: rest).dropWhile fun d => !isBlank d)
  := by
  rw [words]
  split
  · next hnil =>
    rw [h] at hnil
    cases hnil
  · next hcons =>
    rw [h] at hcons
    cases hcons
    rfl

theorem words_of_blanks (h : Blank before) (cs : List Char) :
  words (before ++ cs) = words cs
  := by
  rw [words, words, List.dropWhile_append_of_pos h]

/-- A word in front of a text, with a blank between them, is the first one. -/
theorem words_cons (hword : IsWord word) (hcs : ∀ c ∈ cs.head?, isBlank c = true) :
  words (word ++ cs) = word :: words cs
  := by
  have hrun : ∀ c ∈ word, (!isBlank c) = true := by
    intro c hc
    simp [hword.isBlank c hc]
  have hrest : ∀ c ∈ cs.head?, (!isBlank c) = false := by
    intro c hc
    simp [hcs c hc]
  obtain ⟨c, others, rfl⟩ := List.exists_cons_of_ne_nil hword.ne_nil
  have hdrop : (c :: others ++ cs).dropWhile isBlank = c :: (others ++ cs) := by
    rw [List.cons_append, List.dropWhile_cons_of_neg]
    simp [hword.isBlank c List.mem_cons_self]
  rw [words_of_dropWhile hdrop, ← List.cons_append, takeWhile_run hrun hrest,
    dropWhile_run hrun hrest]

theorem words_of_isWord (hword : IsWord word) :
  words word = [word]
  := by
  have hwords := @words_cons [] word hword (by simp)
  rw [List.append_nil, words_of_blank blank_nil] at hwords
  apply hwords

/-- No word is empty. -/
theorem ne_nil_of_mem_words (cs : List Char) :
  ∀ word ∈ words cs, word ≠ []
  := by
  fun_induction words cs with
  | case1 cs h => simp
  | case2 cs c rest h ih =>
    have hc : isBlank c = false := by
      simpa [h] using List.head?_dropWhile_not isBlank cs
    rw [List.forall_mem_cons]
    exact ⟨by simp [hc], ih⟩

/-- Blanks behind a text make no difference to its words. -/
theorem words_append_blanks (h : Blank after) (cs : List Char) :
  words (cs ++ after) = words cs
  := by
  fun_induction words cs with
  | case1 cs hcs =>
    have hblank := List.dropWhile_eq_nil_iff.1 hcs
    apply words_of_blank
    rw [Blank, List.forall_mem_append]
    exact ⟨hblank, h⟩
  | case2 cs c rest hcs ih =>
    have hhead : ∀ d ∈ after.head?, (!isBlank d) = false := by
      intro d hd
      simp [h d (List.mem_of_mem_head? hd)]
    have hdrop : (cs ++ after).dropWhile isBlank = c :: (rest ++ after) := by
      rw [List.dropWhile_append, hcs]
      rfl
    rw [words_of_dropWhile hdrop, ← List.cons_append, takeWhile_front hhead, dropWhile_front hhead,
      ih]

/-- A text is what is left of it when it is trimmed, between the blanks that are taken away. -/
theorem exists_blanks (cs : List Char) :
  ∃ before after, cs = before ++ trimChars cs ++ after ∧ Blank before ∧ Blank after
  := by
  have hblank : ∀ text : List Char, Blank (text.takeWhile isBlank) := by
    intro text c hc
    apply List.mem_takeWhile_imp hc
  have hend : ∀ text : List Char,
      text = trimEndChars text ++ (text.reverse.takeWhile isBlank).reverse := by
    intro text
    rw [trimEndChars, ← List.reverse_append, List.takeWhile_append_dropWhile, List.reverse_reverse]
  use cs.takeWhile isBlank, ((trimStartChars cs).reverse.takeWhile isBlank).reverse
  refine ⟨?_, hblank cs, ?_⟩
  · rw [List.append_assoc, trimChars, ← hend, trimStartChars, List.takeWhile_append_dropWhile]
  · intro c hc
    apply hblank _ c (List.mem_reverse.1 hc)

/-- The words of a text are those of what is left when it is trimmed. -/
theorem words_trimChars (cs : List Char) :
  words (trimChars cs) = words cs
  := by
  obtain ⟨before, after, hcs, hbefore, hafter⟩ := exists_blanks cs
  conv_rhs => rw [hcs]
  rw [words_append_blanks hafter, words_of_blanks hbefore]

/-! ### Joining -/

/-- Texts in two lists are joined with a separator between the lists. -/
theorem intercalate_append (sep : List Char) {front back : List (List Char)} (hfront : front ≠ [])
    (hback : back ≠ []) :
  sep.intercalate (front ++ back) = sep.intercalate front ++ sep ++ sep.intercalate back
  := by
  induction front with
  | nil => cases hfront rfl
  | cons text others ih =>
    rw [List.cons_append]
    by_cases hothers : others = []
    · subst hothers
      rw [List.nil_append, List.intercalate_singleton, List.intercalate_cons_of_ne_nil hback]
    · rw [List.intercalate_cons_of_ne_nil (by simp [hothers]), ih hothers,
        List.intercalate_cons_of_ne_nil hothers]
      simp only [List.append_assoc]

/-- Lists of texts that are joined, and joined again, are joined all at once. -/
theorem intercalate_flatten (sep : List Char) {parts : List (List (List Char))}
    (h : ∀ part ∈ parts, part ≠ []) :
  sep.intercalate (parts.map sep.intercalate) = sep.intercalate parts.flatten
  := by
  induction parts with
  | nil => rfl
  | cons part others ih =>
    have hothers : ∀ part ∈ others, part ≠ [] := fun p hp => h p (List.mem_cons_of_mem part hp)
    rw [List.map_cons, List.flatten_cons]
    cases others with
    | nil => simp
    | cons other more =>
      have hother := hothers other List.mem_cons_self
      rw [List.intercalate_cons_of_ne_nil (by simp), ih hothers,
        intercalate_append sep (h part List.mem_cons_self) (by simp [hother])]

/-! ### Cutting -/

variable {sep : List Char}

/-- A separator at the front is where a text is cut first. -/
theorem cutFirst_sep (hsep : sep ≠ []) (rest : List Char) :
  cutFirst sep (sep ++ rest) = some ([], rest)
  := by
  cases sep with
  | nil => cases hsep rfl
  | cons c cs =>
    rw [List.cons_append, cutFirst, ← List.cons_append, dropStart_eq_some_iff.2 rfl]

/-- A character with which the separator does not start is in front of the first cut. -/
theorem cutFirst_cons (h : sep.head? ≠ some c) (hsep : sep ≠ []) (cs : List Char) :
  cutFirst sep (c :: cs) = (cutFirst sep cs).map fun (before, rest) => (c :: before, rest)
  := by
  cases sep with
  | nil => cases hsep rfl
  | cons d ds =>
    have hd : d ≠ c := by
      rintro rfl
      apply h rfl
    rw [cutFirst, dropStart, if_neg hd]

/-- A beginning in which the separator does not start is in front of the first cut. -/
theorem cutFirst_skip (hsep : sep ≠ []) (h : ∀ c ∈ before, sep.head? ≠ some c) (cs : List Char) :
  cutFirst sep (before ++ cs) = (cutFirst sep cs).map fun (front, rest) => (before ++ front, rest)
  := by
  induction before with
  | nil => simp
  | cons c before ih =>
    rw [List.cons_append, cutFirst_cons (h c List.mem_cons_self) hsep, ih, Option.map_map]
    · rfl
    · intro d hd
      apply h d (List.mem_cons_of_mem c hd)

theorem cutFirst_of_head (hsep : sep ≠ []) (h : ∀ c ∈ cs, sep.head? ≠ some c) :
  cutFirst sep cs = none
  := by
  have hskip := cutFirst_skip hsep h []
  rw [List.append_nil] at hskip
  rw [hskip, cutFirst]
  simp [hsep]

theorem cutFirst_of_absent (h : ¬ sep <:+: cs) :
  cutFirst sep cs = none
  := by
  cases hcut : cutFirst sep cs with
  | none => rfl
  | some cut =>
    exfalso
    apply h
    rw [eq_of_cutFirst hcut]
    apply List.infix_append

/-- A text in which the separator does not occur is one piece. -/
theorem splitOnText_of_absent (hsep : sep ≠ []) (h : ¬ sep <:+: cs) :
  splitOnText sep hsep cs = [cs]
  := by
  rw [splitOnText]
  split
  · rfl
  · next hcut =>
    rw [cutFirst_of_absent h] at hcut
    cases hcut

/-- Joined texts are the pieces, where the separator starts in none of them. -/
theorem splitOnText_intercalate (hsep : sep ≠ []) {texts : List (List Char)} (hne : texts ≠ [])
    (h : ∀ text ∈ texts, ∀ c ∈ text, sep.head? ≠ some c) :
  splitOnText sep hsep (sep.intercalate texts) = texts
  := by
  induction texts with
  | nil => cases hne rfl
  | cons text others ih =>
    have htext := h text List.mem_cons_self
    rw [splitOnText]
    cases others with
    | nil =>
      split
      · simp
      · next hcut =>
        rw [List.intercalate_singleton, cutFirst_of_head hsep htext] at hcut
        cases hcut
    | cons other others =>
      have hcut : cutFirst sep (sep.intercalate (text :: other :: others))
          = some (text, sep.intercalate (other :: others)) := by
        rw [List.intercalate_cons_cons, List.append_assoc, cutFirst_skip hsep htext,
          cutFirst_sep hsep]
        simp
      split
      · next hnone =>
        rw [hcut] at hnone
        cases hnone
      · next front rest hsome =>
        rw [hcut] at hsome
        cases hsome
        rw [ih (List.cons_ne_nil _ _)]
        intro piece hpiece
        apply h piece (List.mem_cons_of_mem text hpiece)

end PluginHost.Text

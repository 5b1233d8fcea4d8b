import Mathlib.Data.List.Chain
import Mathlib.Tactic.Use
import PluginHost.Proofs.Blanks
import PluginHost.Yaml.Printer

/-!
# Scalars that are read back

A text that is printed plainly or between quotes is read back from what is printed, up to the end
of its line.  Of a plain scalar no character means anything else (`FitsPlain.plainScalar_line`), between
single quotes no space is next to a break, where it would be lost (`singleQuoted_singleBody`), and
between double quotes every character but the space and those that stand for themselves is an escape
(`doubleQuoted_of_spaces`).
-/

namespace PluginHost.Yaml

variable {c d : Char} {cs rest more : List Char}

/-! ### Characters -/

/-- A character that is printed as it is is a space, ends a line, or is neither blank nor a break in
any spelling. -/
structure Printed (c : Char) : Prop where
  allowed : allowed c = true
  isBlank : isBlank c = (c == ' ')
  breaksLine : breaksLine c = isBreak c
  ne_return : c ≠ '\r'
  ne_nextLine : c ≠ '\u0085'
  ne_mark : c ≠ '\ufeff'

theorem printed_of_isPrintable (h : isPrintable c = true) :
  Printed c
  := by
  have hne : ∀ d : Char, isPrintable d = false → c ≠ d := by
    rintro d hd rfl
    cases h.symm.trans hd
  have htab : c ≠ '\t' := hne _ (by decide)
  have hreturn : c ≠ '\r' := hne _ (by decide)
  have hnext : c ≠ '\u0085' := hne _ (by decide)
  constructor
  · simp only [isPrintable, allowed, Bool.or_eq_true, Bool.and_eq_true, beq_iff_eq,
      decide_eq_true_eq, bne_iff_ne] at h ⊢
    omega
  · simp [isBlank, htab]
  · rw [breaksLine, beq_eq_false_iff_ne.2 hreturn, beq_eq_false_iff_ne.2 hnext, Bool.or_false,
      Bool.or_false]
  · apply hreturn
  · apply hnext
  · apply hne _ (by decide)

/-- No two neighbours satisfy two conditions exactly if no pair of them is found. -/
theorem hasPair_eq_false_iff {p q : Char → Bool} :
  hasPair p q cs = false ↔ cs.IsChain fun a b => ¬(p a = true ∧ q b = true)
  := by
  induction cs with
  | nil => simp [hasPair]
  | cons a cs ih =>
    cases cs with
    | nil => simp [hasPair]
    | cons b cs =>
      rw [hasPair, Bool.or_eq_false_iff, ih, List.isChain_cons_cons]
      simp

/-- Whether a text is printed without escapes: it has no character that is not printed as it is, and
no space in front of a break. -/
structure Unescaped (cs : List Char) : Prop where
  printable : ∀ c ∈ cs, isPrintable c = true
  noSpaceBefore : cs.IsChain fun a b => ¬((a == ' ') = true ∧ breaksLine b = true)

theorem needsEscapes_eq_false_iff :
  needsEscapes cs = false ↔ Unescaped cs
  := by
  rw [needsEscapes, Bool.or_eq_false_iff, hasPair_eq_false_iff, List.any_eq_false]
  constructor
  · rintro ⟨hprintable, hchain⟩
    exact ⟨by simpa using hprintable, hchain⟩
  · rintro ⟨hprintable, hchain⟩
    exact ⟨by simpa using hprintable, hchain⟩

theorem Unescaped.printed (h : Unescaped cs) :
  ∀ c ∈ cs, Printed c
  := fun c hc => printed_of_isPrintable (h.printable c hc)

/-- A white character separates words. -/
theorem separates_of_isWhite (h : isWhite c = true) :
  separates c = true
  := by
  rcases Bool.or_eq_true_iff.1 h with h | h
  · simp [separates, h]
  · simp [separates, breaksLine, h]

/-! ### Plain scalars -/

/-- Where words do not end at a colon, none ends at the colon in front of more text. -/
theorem endsWord_eq_false (h : atSeparator cs = false) (rest : List Char) :
  endsWord (cs ++ rest) = false
  := by
  cases cs with
  | nil => cases h
  | cons c cs =>
    have hc : separates c = false := h
    apply eq_false_of_ne_true
    intro hends
    have hwhite : isWhite c = true := hends
    rw [separates_of_isWhite hwhite] at hc
    cases hc

/-- A text on one line without indicators is read up to where a plain scalar ends, if it does not end
with a space. -/
theorem plainLine_of_fits (hprinted : ∀ c ∈ cs, Printed c) (hbreak : ∀ c ∈ cs, isBreak c = false)
    (hlast : cs.getLast? ≠ some ' ') {afterSeparator afterBlank : Bool}
    (hafter : afterBlank = true → afterSeparator = true)
    (hindicator : hasIndicator afterSeparator cs = false)
    (hstop : ∀ afterBlank, plainLine false afterBlank rest = some ([], rest)) :
  plainLine false afterBlank (cs ++ rest) = some (cs, rest)
  := by
  induction cs generalizing afterSeparator afterBlank with
  | nil => apply hstop
  | cons c cs ih =>
    obtain ⟨hc, hcs⟩ := List.forall_mem_cons.1 hprinted
    obtain ⟨hcbreak, hcsbreak⟩ := List.forall_mem_cons.1 hbreak
    simp only [hasIndicator, Bool.or_eq_false_iff] at hindicator
    obtain ⟨⟨hcolon, hsign⟩, hrest⟩ := hindicator
    rw [List.cons_append, plainLine, hcbreak, if_neg Bool.false_ne_true]
    by_cases hblank : isBlank c = true
    · -- A space is not the last character, so something is read after it.
      obtain rfl : c = ' ' := by simpa [hc.isBlank] using hblank
      cases cs with
      | nil => cases hlast rfl
      | cons d cs =>
        rw [if_pos hblank, ih hcs hcsbreak (by simpa using hlast) (fun _ => rfl) hrest]
    · have hnosign : (afterBlank && c == '#') = false := by
        cases afterBlank with
        | false => rfl
        | true => simpa [hafter rfl] using hsign
      have hnocolon : (c == ':' && endsWord (cs ++ rest)) = false := by
        by_cases hc : c = ':'
        · have hseparator : atSeparator cs = false := by simpa [hc] using hcolon
          rw [endsWord_eq_false hseparator, Bool.and_false]
        · simp [hc]
      have hnext : cs.getLast? ≠ some ' ' := by
        cases cs with
        | nil => simp
        | cons d cs => simpa using hlast
      rw [if_neg hblank, hnosign, hnocolon, ih hcs hcsbreak hnext (by simp) hrest]
      rfl

/-- Whether a text begins, at the start of a line, with something else than blanks, a break, a comment
or a byte order mark. -/
def StartsLine (more : List Char) : Prop :=
  ∀ c ∈ more.head?, isWhite c = false ∧ c ≠ '#' ∧ c ≠ '\ufeff'

/-- A plain scalar ends where a line begins outside the margin. -/
theorem plainMore_of_startsLine (h : StartsLine more) {margin : Nat} (hmargin : 0 < margin)
    (n : Nat) :
  plainMore false margin (n + 1) ('\n' :: more) = some ([], true, more)
  := by
  have hgap : plainGap margin 0 more = some ([], 0, more) := by
    cases more with
    | nil => rfl
    | cons c cs =>
      obtain ⟨hwhite, -⟩ := h c rfl
      simp only [isWhite, isBlank, Bool.or_eq_false_iff] at hwhite
      obtain ⟨⟨hspace, htab⟩, hbreak⟩ := hwhite
      simp [plainGap, hspace, htab, hbreak]
  have hnext : ('\n' :: more).dropWhile isBlank = '\n' :: more := rfl
  have hbreak : isBreak '\n' = true := rfl
  simp [plainMore, hnext, plainGap, hbreak, hgap, hmargin]

/-- What is known of a text that is printed plainly. -/
structure FitsPlain (cs : List Char) : Prop extends Unescaped cs where
  noBreak : ∀ c ∈ cs, breaksLine c = false
  head : cs.head? ≠ some ' '
  last : cs.getLast? ≠ some ' '
  begins : startsIndicated cs = false
  noIndicator : hasIndicator false cs = false

theorem FitsPlain.of_fits (h : fitsPlain cs = true) :
  FitsPlain cs
  := by
  simp only [fitsPlain, fitsSingle, Bool.and_eq_true, Bool.not_eq_true', needsEscapes_eq_false_iff,
    bne_iff_ne, List.any_eq_false, Bool.not_eq_true] at h
  obtain ⟨⟨⟨⟨⟨⟨hunescaped, -⟩, hbreak⟩, hhead⟩, hlast⟩, hbegins⟩, hindicator⟩ := h
  exact ⟨hunescaped, hbreak, hhead, hlast, hbegins, hindicator⟩

theorem FitsPlain.plainLine_eq (h : FitsPlain cs)
    (hstop : ∀ afterBlank, plainLine false afterBlank rest = some ([], rest)) :
  plainLine false false (cs ++ rest) = some (cs, rest)
  := by
  have hbreak : ∀ c ∈ cs, isBreak c = false := by
    intro c hc
    rw [← (h.printed c hc).breaksLine]
    apply h.noBreak c hc
  apply plainLine_of_fits h.printed hbreak h.last id h.noIndicator hstop

/-- A text that is printed plainly is read back up to the end of its line. -/
theorem FitsPlain.plainScalar_line (h : FitsPlain cs) (hstart : StartsLine more) {margin : Nat}
    (hmargin : 0 < margin) :
  plainScalar false margin (cs ++ '\n' :: more) = some (cs, true, more)
  := by
  have hline : plainLine false false (cs ++ '\n' :: more) = some (cs, '\n' :: more) :=
    h.plainLine_eq fun _ => rfl
  simp [plainScalar, hline, plainMore_of_startsLine hstart hmargin]

/-- A key that is printed plainly is read back up to the colon after it. -/
theorem FitsPlain.plainScalar_key (h : FitsPlain cs) (hends : endsWord rest = true) (margin : Nat) :
  plainScalar false margin (cs ++ ':' :: rest) = some (cs, false, ':' :: rest)
  := by
  have hstop : ∀ afterBlank, plainLine false afterBlank (':' :: rest) = some ([], ':' :: rest) := by
    intro afterBlank
    have hbreak : isBreak ':' = false := rfl
    have hblank : isBlank ':' = false := rfl
    simp [plainLine, hbreak, hblank, hends]
  have hline := h.plainLine_eq hstop
  have hmore : ∀ n, plainMore false margin (n + 1) (':' :: rest) = some ([], false, ':' :: rest) := by
    intro n
    rfl
  simp [plainScalar, hline, hmore]

/-! ### Single quotes -/

variable {white : List Char} {afterBreak : Bool}

/-- Spaces alone stand for themselves. -/
theorem foldWhite_of_spaces (h : ∀ c ∈ white, c = ' ') :
  foldWhite white = white
  := by
  have hnone : white.filter isBreak = [] := by
    rw [List.filter_eq_nil_iff]
    intro c hc
    rw [h c hc]
    decide
  rw [foldWhite, hnone]
  rfl

theorem atLineStart_of_spaces (h : ∀ c ∈ white, c = ' ') :
  atLineStart white = false
  := by
  rw [atLineStart, Option.any_eq_false]
  intro c hc
  rw [h c (List.mem_of_getLast? hc)]
  decide

theorem singleQuoted_white (hc : isWhite c = true) (white cs : List Char) :
  singleQuoted white (c :: cs) = singleQuoted (white ++ [c]) cs
  := by
  rw [singleQuoted.eq_def]
  simp [hc]

theorem singleQuoted_char (hc : isWhite c = false) (hquote : c ≠ '\'')
    (hstart : atLineStart white = false) (cs : List Char) :
  singleQuoted white (c :: cs)
    = (singleQuoted [] cs).map fun p => (foldWhite white ++ c :: p.1, p.2)
  := by
  rw [singleQuoted.eq_def]
  simp [hc, hstart, hquote]

theorem singleQuoted_quote (hstart : atLineStart white = false) (cs : List Char) :
  singleQuoted white ('\'' :: '\'' :: cs)
    = (singleQuoted [] cs).map fun p => (foldWhite white ++ '\'' :: p.1, p.2)
  := by
  have hquote : isWhite '\'' = false := rfl
  rw [singleQuoted.eq_def]
  simp [hquote, hstart]

theorem singleQuoted_close (hstart : atLineStart white = false) (hrest : rest.head? ≠ some '\'') :
  singleQuoted white ('\'' :: rest) = some (foldWhite white, rest)
  := by
  have hquote : isWhite '\'' = false := rfl
  rw [singleQuoted.eq_def]
  simp only [hquote, hstart, Bool.false_and, if_false, Bool.false_eq_true, beq_self_eq_true, if_true]
  split
  · cases hrest rfl
  · rfl

/-- A character between single quotes, where a quote is written twice. -/
def quoted (c : Char) : List Char := if c == '\'' then ['\'', '\''] else [c]

/-- The white characters before a place between single quotes: spaces, or breaks, which indentation
follows. -/
inductive Pending : Bool → List Char → Prop where
  | spaces {white : List Char} (h : ∀ c ∈ white, c = ' ') : Pending false white
  | breaks {white : List Char} (hne : white ≠ [])
      (h : ∀ c ∈ white, c = '\u2028' ∨ c = '\u2029') : Pending true white

/-- The indentation that follows a break. -/
def indentAfter (afterBreak : Bool) : List Char := if afterBreak then indentation else []

/-- With the indentation after them, such characters do not end in a break and stand for themselves. -/
theorem Pending.indented (h : Pending afterBreak white) :
  atLineStart (white ++ indentAfter afterBreak) = false
    ∧ foldWhite (white ++ indentAfter afterBreak) = white
  := by
  cases h with
  | spaces h =>
    rw [indentAfter, if_neg Bool.false_ne_true, List.append_nil]
    exact ⟨atLineStart_of_spaces h, foldWhite_of_spaces h⟩
  | breaks hne h =>
    have hall : white.filter isBreak = white := by
      rw [List.filter_eq_self]
      intro c hc
      rcases h c hc with rfl | rfl <;> rfl
    have hfilter : (white ++ indentation).filter isBreak = white := by
      rw [List.filter_append, hall]
      apply List.append_nil
    obtain ⟨c, more, rfl⟩ := List.exists_cons_of_ne_nil hne
    have hfold : foldBreaks (c :: more) = c :: more := by
      rcases h c List.mem_cons_self with rfl | rfl <;> simp [foldBreaks]
    constructor
    · rw [indentAfter, if_pos rfl, atLineStart, List.getLast?_append]
      rfl
    · rw [indentAfter, if_pos rfl, foldWhite, hfilter]
      simpa using hfold

theorem Pending.singleQuoted_indented (h : Pending afterBreak white) (cs : List Char) :
  singleQuoted white (indentAfter afterBreak ++ cs)
    = singleQuoted (white ++ indentAfter afterBreak) cs
  := by
  have hspace : isWhite ' ' = true := rfl
  cases afterBreak with
  | false => simp [indentAfter]
  | true => simp [indentAfter, indentation, singleQuoted_white hspace]

theorem Pending.singleQuoted_quoted (h : Pending afterBreak white) (hc : isWhite c = false)
    (cs : List Char) :
  singleQuoted white (indentAfter afterBreak ++ (quoted c ++ cs))
    = (singleQuoted [] cs).map fun p => (white ++ c :: p.1, p.2)
  := by
  obtain ⟨hstart, hfold⟩ := h.indented
  rw [h.singleQuoted_indented]
  by_cases hquote : c = '\''
  · subst hquote
    have hread := singleQuoted_quote hstart cs
    rw [hfold] at hread
    apply hread
  · rw [quoted, if_neg (by simpa using hquote), List.singleton_append,
      singleQuoted_char hc hquote hstart, hfold]

theorem Pending.singleQuoted_close (h : Pending afterBreak white) (hrest : rest.head? ≠ some '\'') :
  singleQuoted white (indentAfter afterBreak ++ '\'' :: rest) = some (white, rest)
  := by
  obtain ⟨hstart, hfold⟩ := h.indented
  rw [h.singleQuoted_indented, Yaml.singleQuoted_close hstart hrest, hfold]

/-- Whether two characters are not a space and a break, in either order: such a space would be lost
between single quotes. -/
def LosesNone (a b : Char) : Prop :=
  ¬((a == ' ') = true ∧ breaksLine b = true) ∧ ¬(breaksLine a = true ∧ (b == ' ') = true)

/-- A break in a text is in front of the rest with the breaks before it, none of which is a space. -/
theorem Pending.concat_break (h : Pending afterBreak white) (hc : Printed c) (hfeed : c ≠ '\n')
    (hbreak : breaksLine c = true) (hchain : (white ++ c :: cs).IsChain LosesNone) :
  Pending true (white ++ [c])
  := by
  have hseparator : c = '\u2028' ∨ c = '\u2029' := by
    rw [hc.breaksLine, isBreak] at hbreak
    simpa [hfeed] using hbreak
  obtain ⟨-, -, hneighbours⟩ := List.isChain_append.1 hchain
  apply Pending.breaks (by simp)
  intro d hd
  rcases List.mem_append.1 hd with hd | hd
  · cases h with
    | breaks hne h => apply h d hd
    | spaces h =>
      -- The last of the spaces would stand in front of the break.
      have hne : white ≠ [] := List.ne_nil_of_mem hd
      have hlast : white.getLast hne = ' ' := h _ (List.getLast_mem hne)
      have hloses := (hneighbours _ (List.getLast?_eq_some_getLast hne) c rfl).1
      simp [hlast, hbreak] at hloses
  · rw [List.mem_singleton.1 hd]
    apply hseparator

/-- A space in a text is in front of the rest with the spaces before it, none of which is a break. -/
theorem Pending.concat_space (h : Pending afterBreak white)
    (hchain : (white ++ ' ' :: cs).IsChain LosesNone) :
  afterBreak = false ∧ Pending false (white ++ [' '])
  := by
  obtain ⟨-, -, hneighbours⟩ := List.isChain_append.1 hchain
  cases h with
  | spaces h =>
    refine ⟨rfl, .spaces ?_⟩
    intro d hd
    rcases List.mem_append.1 hd with hd | hd
    · apply h d hd
    · apply List.mem_singleton.1 hd
  | breaks hne h =>
    have hloses := (hneighbours _ (List.getLast?_eq_some_getLast hne) ' ' rfl).2
    rcases h _ (List.getLast_mem hne) with hlast | hlast
    all_goals
      rw [hlast] at hloses
      cases hloses (by decide)

/-- What is printed between single quotes is read up to the closing one, after white characters that
stand for themselves. -/
theorem Pending.singleQuoted_of_chain (hprinted : ∀ c ∈ cs, Printed c) (hfeed : '\n' ∉ cs)
    (h : Pending afterBreak white) (hchain : (white ++ cs).IsChain LosesNone)
    (hrest : rest.head? ≠ some '\'') :
  singleQuoted white (indentLines quoted afterBreak cs
      ++ (indentAfter (cs.getLast?.elim afterBreak breaksLine) ++ '\'' :: rest))
    = some (white ++ cs, rest)
  := by
  induction cs generalizing white afterBreak with
  | nil =>
    rw [List.append_nil]
    apply h.singleQuoted_close hrest
  | cons c cs ih =>
    obtain ⟨hc, hcs⟩ := List.forall_mem_cons.1 hprinted
    obtain ⟨hcfeed, hcsfeed⟩ := not_or.1 (mt List.mem_cons.2 hfeed)
    have hlast : (c :: cs).getLast?.elim afterBreak breaksLine
        = cs.getLast?.elim (breaksLine c) breaksLine := by
      rw [List.getLast?_cons]
      cases cs.getLast? <;> rfl
    rw [hlast, indentLines]
    by_cases hbreak : breaksLine c = true
    · rw [if_pos hbreak, List.cons_append, hbreak,
        singleQuoted_white (by simp [isWhite, ← hc.breaksLine, hbreak]),
        ih hcs hcsfeed (h.concat_break hc (Ne.symm hcfeed) hbreak hchain) (by simpa using hchain)]
      simp
    · rw [if_neg hbreak]
      obtain hbreak := eq_false_of_ne_true hbreak
      by_cases hspace : c = ' '
      · subst hspace
        obtain ⟨rfl, hspaces⟩ := h.concat_space hchain
        have hread := ih hcs hcsfeed hspaces (by simpa using hchain)
        have hwhite : isWhite ' ' = true := rfl
        rw [hbreak]
        simpa [quoted, singleQuoted_white hwhite] using hread
      · have hwhite : isWhite c = false := by
          simp [isWhite, hc.isBlank, hspace, ← hc.breaksLine, hbreak]
        have hread := h.singleQuoted_quoted hwhite (indentLines quoted false cs
          ++ (indentAfter (cs.getLast?.elim false breaksLine) ++ '\'' :: rest))
        have hchain' : ([] ++ cs).IsChain LosesNone := by
          have hsuffix : cs <:+ white ++ c :: cs := ⟨white ++ [c], by simp⟩
          apply hchain.suffix hsuffix
        rw [ih hcs hcsfeed (.spaces (by simp)) hchain'] at hread
        rw [hbreak]
        simpa [indentAfter] using hread

/-- What follows the opening quote of a text that is printed between single quotes. -/
def singleBody (cs : List Char) : List Char :=
  indentLines quoted false cs ++ (indentAfter (endsLine cs) ++ ['\''])

theorem printSingle_eq (cs : List Char) :
  printSingle cs = '\'' :: singleBody cs
  := by
  rw [printSingle, singleBody, List.append_assoc]
  rfl

/-- A text without line feeds that fits single quotes is read from what is printed for it. -/
theorem singleQuoted_singleBody (hfits : fitsSingle cs = true) (hfeed : '\n' ∉ cs)
    (hrest : rest.head? ≠ some '\'') :
  singleQuoted [] (singleBody cs ++ rest) = some (cs, rest)
  := by
  simp only [fitsSingle, Bool.and_eq_true, Bool.not_eq_true', needsEscapes_eq_false_iff,
    hasPair_eq_false_iff] at hfits
  obtain ⟨hunescaped, hafter⟩ := hfits
  have hchain : ([] ++ cs).IsChain LosesNone := by
    rw [List.nil_append, List.isChain_iff_getElem]
    intro i hi
    exact ⟨List.isChain_iff_getElem.1 hunescaped.noSpaceBefore i hi,
      List.isChain_iff_getElem.1 hafter i hi⟩
  have hends : cs.getLast?.elim false breaksLine = endsLine cs := by
    rw [endsLine]
    cases cs.getLast? <;> rfl
  have hread := (Pending.spaces (by simp)).singleQuoted_of_chain hunescaped.printed hfeed hchain hrest
  rw [hends] at hread
  simpa [singleBody] using hread

/-! ### Hexadecimal digits -/

theorem digitValue?_capital :
  ∀ d < 16, Text.digitValue? 16 (Nat.digitChar d).toUpper = some d
  := by decide

/-- A number in hexadecimal capitals is read as the number, whatever zeros are in front. -/
theorem numberIn?_capitalHex (width n : Nat) :
  Text.numberIn? 16 (Text.capitalHex width n).toList = some n
  := by
  have hzeros : ∀ k, (List.replicate k '0').foldlM
      (fun n c => (Text.digitValue? 16 c).map (n * 16 + ·)) 0 = some 0 := by
    intro k
    have hzero : Text.digitValue? 16 '0' = some 0 := by decide
    induction k with
    | zero => rfl
    | succ k ih => simpa [List.replicate_succ, hzero] using ih
  have hdigits : ((Nat.toDigits 16 n).map Char.toUpper).foldlM
      (fun n c => (Text.digitValue? 16 c).map (n * 16 + ·)) 0 = some n := by
    induction n using Nat.strongRecOn with
    | ind n ih =>
      by_cases hn : n < 16
      · simp [Nat.toDigits_of_lt_base hn, digitValue?_capital n hn]
      · rw [Nat.toDigits_of_base_le (by decide) (Nat.le_of_not_lt hn), List.map_append,
          List.foldlM_append, ih (n / 16) (by omega)]
        simp [digitValue?_capital _ (Nat.mod_lt n (by decide))]
        omega
  have hne : (Text.capitalHex width n).toList ≠ [] := by
    simp [Text.capitalHex]
  rw [Text.numberIn?, if_neg (by simpa using hne), Text.capitalHex, String.toList_ofList,
    List.foldlM_append, hzeros]
  apply hdigits

/-- A number that has no more digits than a width is filled up to the width. -/
theorem length_capitalHex {width n : Nat} (h : (Nat.toDigits 16 n).length ≤ width) :
  (Text.capitalHex width n).toList.length = width
  := by
  simp [Text.capitalHex]
  omega

/-! ### Double quotes -/

theorem doubleQuoted_space (white cs : List Char) :
  doubleQuoted ⟨false, white⟩ (' ' :: cs) = doubleQuoted ⟨false, white ++ [' ']⟩ cs
  := by
  rw [doubleQuoted.eq_def]
  rfl

/-- A character that is read after spaces in front of the rest, between double quotes. -/
def Spelled (text : List Char) (c : Char) : Prop :=
  ∀ (white : List Char) (cs : List Char), (∀ d ∈ white, d = ' ') →
    doubleQuoted ⟨false, white⟩ (text ++ cs)
      = (doubleQuoted Gap.none cs).map fun p => (white ++ c :: p.1, p.2)

theorem gapText_of_spaces (h : ∀ c ∈ white, c = ' ') :
  Gap.text ⟨false, white⟩ = white
  := foldWhite_of_spaces h

theorem gapStart_of_spaces (h : ∀ c ∈ white, c = ' ') :
  Gap.atLineStart ⟨false, white⟩ = false
  := by
  rw [Gap.atLineStart, atLineStart_of_spaces h]
  apply ite_self

/-- A character that is no indicator between double quotes spells itself. -/
theorem spelled_char (hwhite : isWhite c = false) (hquote : c ≠ '"') (hescape : c ≠ '\\') :
  Spelled [c] c
  := by
  intro white cs h
  rw [List.singleton_append, doubleQuoted]
  · simp [hwhite, hquote, hescape, gapText_of_spaces h, gapStart_of_spaces h]
  all_goals simp [hescape]

/-- A letter after a backslash spells the character that it is the escape of. -/
theorem spelled_letter {l : Char} (hescaped : escaped? l = some c) (hbreak : isBreak l = false) :
  Spelled ['\\', l] c
  := by
  intro white cs h
  have hx : l ≠ 'x' := by rintro rfl; cases hescaped
  have hu : l ≠ 'u' := by rintro rfl; cases hescaped
  have hU : l ≠ 'U' := by rintro rfl; cases hescaped
  rw [List.cons_append, List.singleton_append, doubleQuoted]
  · simp [hbreak, hescaped, gapText_of_spaces h]
    cases doubleQuoted Gap.none cs <;> rfl
  all_goals simp [hx, hu, hU]

/-- The letter of an escape is read as the character that has it. -/
theorem spelled_of_letter? {l : Char} (h : letter? c = some l) :
  Spelled ['\\', l] c
  := by
  unfold letter? at h
  split at h
  all_goals
    cases h
  all_goals exact spelled_letter rfl rfl

/-- The number of a character is that of no surrogate, and not too large. -/
theorem toNat_valid (c : Char) :
  c.toNat < 0xD800 ∨ 0xDFFF < c.toNat ∧ c.toNat < 0x110000
  := by
  have hvalid := c.valid
  simp only [UInt32.isValidChar, Nat.isValidChar] at hvalid
  exact hvalid

theorem numbered?_of_toNat {digits : List Char} (h : Text.numberIn? 16 digits = some c.toNat) :
  numbered? digits = some c
  := by
  have hvalid := toNat_valid c
  rw [numbered?, h, Option.bind_some, if_neg (by omega), Char.ofNat_toNat]

theorem spelled_two {digits : List Char} (hlength : digits.length = 2)
    (h : numbered? digits = some c) :
  Spelled ('\\' :: 'x' :: digits) c
  := by
  match digits, hlength with
  | [a, b], _ =>
    intro white cs hwhite
    simp only [List.cons_append, List.nil_append, doubleQuoted, h, gapText_of_spaces hwhite]
    cases doubleQuoted Gap.none cs <;> rfl

theorem spelled_four {digits : List Char} (hlength : digits.length = 4)
    (h : numbered? digits = some c) :
  Spelled ('\\' :: 'u' :: digits) c
  := by
  match digits, hlength with
  | [a, b, d, e], _ =>
    intro white cs hwhite
    simp only [List.cons_append, List.nil_append, doubleQuoted, h, gapText_of_spaces hwhite]
    cases doubleQuoted Gap.none cs <;> rfl

theorem spelled_eight {digits : List Char} (hlength : digits.length = 8)
    (h : numbered? digits = some c) :
  Spelled ('\\' :: 'U' :: digits) c
  := by
  match digits, hlength with
  | [a, b, d, e, f, g, i, j], _ =>
    intro white cs hwhite
    simp only [List.cons_append, List.nil_append, doubleQuoted, h, gapText_of_spaces hwhite]
    cases doubleQuoted Gap.none cs <;> rfl

/-- An escape is read as the character that it is printed for. -/
theorem spelled_escape (c : Char) :
  Spelled (escape c) c
  := by
  have hnumber : ∀ width, numbered? (Text.capitalHex width c.toNat).toList = some c :=
    fun width => numbered?_of_toNat (numberIn?_capitalHex width c.toNat)
  have hdigits : ∀ width, 0 < width → c.toNat < 16 ^ width →
      (Nat.toDigits 16 c.toNat).length ≤ width :=
    fun width hwidth h => (Nat.length_toDigits_le_iff (by decide) hwidth).2 h
  have hvalid := toNat_valid c
  rw [escape]
  split
  · next hletter => apply spelled_of_letter? hletter
  · dsimp only
    split
    · apply spelled_two (length_capitalHex (hdigits 2 (by decide) (by omega))) (hnumber 2)
    · split
      · apply spelled_four (length_capitalHex (hdigits 4 (by decide) (by omega))) (hnumber 4)
      · apply spelled_eight (length_capitalHex (hdigits 8 (by decide) (by omega))) (hnumber 8)

/-- Every character but a space is read from what is printed for it between double quotes. -/
theorem spelled_printDoubleChar (hspace : c ≠ ' ') :
  Spelled (printDoubleChar c) c
  := by
  rw [printDoubleChar]
  split
  · apply spelled_escape
  · next h =>
    simp only [Bool.or_eq_true, Bool.not_eq_true', beq_iff_eq, not_or, Bool.not_eq_true,
      Bool.not_eq_false] at h
    obtain ⟨⟨⟨hprintable, hbreak⟩, hquote⟩, hescape⟩ := h
    have hprinted := printed_of_isPrintable hprintable
    apply spelled_char _ hquote hescape
    simp [isWhite, hprinted.isBlank, hspace, ← hprinted.breaksLine, hbreak]

/-- What is printed between double quotes is read up to the closing one, after spaces. -/
theorem doubleQuoted_of_spaces (hwhite : ∀ c ∈ white, c = ' ') (cs rest : List Char) :
  doubleQuoted ⟨false, white⟩ (cs.flatMap printDoubleChar ++ '"' :: rest) = some (white ++ cs, rest)
  := by
  induction cs generalizing white with
  | nil =>
    have hquote : isWhite '"' = false := rfl
    rw [List.flatMap_nil, List.nil_append, doubleQuoted]
    · simp [hquote, gapText_of_spaces hwhite, gapStart_of_spaces hwhite]
    all_goals simp
  | cons c cs ih =>
    rw [List.flatMap_cons, List.append_assoc]
    by_cases hspace : c = ' '
    · subst hspace
      have hspaces : ∀ c ∈ white ++ [' '], c = ' ' := by
        intro c hc
        rcases List.mem_append.1 hc with hc | hc
        · apply hwhite c hc
        · apply List.mem_singleton.1 hc
      have hprint : printDoubleChar ' ' = [' '] := rfl
      rw [hprint, List.singleton_append, doubleQuoted_space, ih hspaces]
      simp
    · have hrest : doubleQuoted Gap.none (cs.flatMap printDoubleChar ++ '"' :: rest)
          = some (cs, rest) := ih (by simp)
      rw [spelled_printDoubleChar hspace white _ hwhite, hrest]
      rfl

/-! ### Notations -/

/-- The notations that a text is printed in, with what is printed. -/
inductive Written (cs : List Char) : ScalarStyle → List Char → Prop where
  | plain (h : FitsPlain cs) (hambiguous : isAmbiguous cs = false) : Written cs .plain (cs ++ ['\n'])
  | single (h : fitsSingle cs = true) (hfeed : '\n' ∉ cs) :
    Written cs .singleQuoted (printSingle cs ++ ['\n'])
  | literal (h : fitsLiteral cs = true) (hfeed : '\n' ∈ cs) : Written cs .literal (printLiteral cs)
  | double : Written cs .doubleQuoted (printDouble cs ++ ['\n'])

/-- Every text is printed in one of the notations, as far as it fits that. -/
theorem written (cs : List Char) :
  Written cs (scalarStyle cs) (printScalar cs)
  := by
  rw [printScalar]
  by_cases hfeed : '\n' ∈ cs
  · by_cases hfits : fitsLiteral cs = true
    · have hstyle : scalarStyle cs = .literal := by simp [scalarStyle, hfeed, hfits]
      rw [hstyle]
      exact .literal hfits hfeed
    · have hstyle : scalarStyle cs = .doubleQuoted := by simp [scalarStyle, hfeed, hfits]
      rw [hstyle]
      exact .double
  · by_cases hplain : (!isAmbiguous cs && fitsPlain cs) = true
    · have hstyle : scalarStyle cs = .plain := by simp [scalarStyle, hfeed, hplain]
      obtain ⟨hambiguous, hfits⟩ := Bool.and_eq_true_iff.1 hplain
      rw [hstyle]
      exact .plain (.of_fits hfits) (by simpa using hambiguous)
    · by_cases hfits : fitsSingle cs = true
      · have hstyle : scalarStyle cs = .singleQuoted := by simp [scalarStyle, hfeed, hplain, hfits]
        rw [hstyle]
        exact .single hfits hfeed
      · have hstyle : scalarStyle cs = .doubleQuoted := by simp [scalarStyle, hfeed, hplain, hfits]
        rw [hstyle]
        exact .double

theorem ne_nil_of_isAmbiguous (h : isAmbiguous cs = false) :
  cs ≠ []
  := by
  rintro rfl
  cases h

end PluginHost.Yaml

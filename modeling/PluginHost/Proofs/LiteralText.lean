import Mathlib.Data.List.DropRight
import PluginHost.Proofs.ScalarText

/-!
# Scalars line by line

A text that is printed line by line is read back from its lines (`blockScalar_literalBody`): the
indentation is found again, or told if the text itself begins with white characters, and the
header tells what happens to the breaks at the end.
-/

namespace PluginHost.Yaml

variable {c : Char} {cs rest more : List Char} {lines : List Line}

/-! ### Lines -/

/-- Whether a line has an end, and no break before it. -/
structure Ended (l : Line) : Prop where
  content : ∀ c ∈ l.1, isBreak c = false
  ending : ∃ b, l.2 = some b ∧ isBreak b = true

/-- The text of lines is the text of the first in front of that of the others. -/
theorem textOf_cons (content : List Char) (b : Char) (lines : List Line) :
  textOf ((content, some b) :: lines) = content ++ b :: textOf lines
  := by simp [textOf]

/-- A text that ends with a break, if it is not empty, consists of lines that have ends. -/
theorem exists_lines (h : ∀ c ∈ cs.getLast?, isBreak c = true) :
  ∃ lines, (∀ l ∈ lines, Ended l) ∧ textOf lines = cs
  := by
  induction cs with
  | nil => exact ⟨[], by simp, rfl⟩
  | cons c cs ih =>
    have hlast : ∀ d ∈ cs.getLast?, isBreak d = true := by
      intro d hd
      apply h d
      rw [Option.mem_def] at hd
      rw [List.getLast?_cons, hd]
      rfl
    obtain ⟨lines, hlines, htext⟩ := ih hlast
    by_cases hc : isBreak c = true
    · refine ⟨([], some c) :: lines, ?_, by rw [textOf_cons, htext]; rfl⟩
      apply List.forall_mem_cons.2 ⟨⟨by simp, c, rfl, hc⟩, hlines⟩
    · cases lines with
      | nil =>
        -- The text would be the one character, which is no break.
        obtain rfl : cs = [] := by simpa [textOf] using htext.symm
        cases hc (h c rfl)
      | cons l lines =>
        obtain ⟨content, ending⟩ := l
        obtain ⟨hl, hlines⟩ := List.forall_mem_cons.1 hlines
        refine ⟨(c :: content, ending) :: lines, ?_, ?_⟩
        · refine List.forall_mem_cons.2 ⟨⟨?_, hl.ending⟩, hlines⟩
          exact List.forall_mem_cons.2 ⟨eq_false_of_ne_true hc, hl.content⟩
        · rw [← htext]
          rfl

/-- A line is read in front of others. -/
theorem linesOf_line {content : List Char} (hcontent : ∀ c ∈ content, isBreak c = false) {b : Char}
    (hb : isBreak b = true) (rest : List Char) :
  linesOf (content ++ b :: rest) = (content, some b) :: linesOf rest
  := by
  induction content with
  | nil => rw [List.nil_append, linesOf, if_pos hb]
  | cons c content ih =>
    obtain ⟨hc, hcontent⟩ := List.forall_mem_cons.1 hcontent
    rw [List.cons_append, linesOf, hc, if_neg Bool.false_ne_true, ih hcontent]

/-- Lines that have ends are read in front of what follows them. -/
theorem linesOf_textOf (h : ∀ l ∈ lines, Ended l) (rest : List Char) :
  linesOf (textOf lines ++ rest) = lines ++ linesOf rest
  := by
  induction lines with
  | nil => rfl
  | cons l lines ih =>
    obtain ⟨hl, hlines⟩ := List.forall_mem_cons.1 h
    obtain ⟨content, ending⟩ := l
    obtain ⟨b, rfl, hb⟩ := hl.ending
    rw [textOf_cons, List.append_assoc, List.cons_append, linesOf_line hl.content hb, ih hlines,
      List.cons_append]

/-- A character that is no break begins the first line. -/
theorem exists_linesOf_cons (hc : isBreak c = false) (cs : List Char) :
  ∃ content ending lines, linesOf (c :: cs) = (c :: content, ending) :: lines
  := by
  rw [linesOf, hc, if_neg Bool.false_ne_true]
  cases linesOf cs with
  | nil => exact ⟨[], none, [], rfl⟩
  | cons l lines => exact ⟨l.1, l.2, lines, rfl⟩

/-! ### Indentation -/

/-- A line as it is printed, with indentation if it is not empty. -/
def indentLine (l : Line) : Line := ((if l.1.isEmpty then [] else indentation) ++ l.1, l.2)

theorem Ended.indentLine {l : Line} (h : Ended l) :
  Ended (indentLine l)
  := by
  refine ⟨?_, h.ending⟩
  intro c hc
  rcases List.mem_append.1 hc with hc | hc
  · split at hc
    · cases hc
    · have hspaces : ∀ c ∈ indentation, isBreak c = false := by
        simp [indentation, isBreak]
      apply hspaces c hc
  · apply h.content c hc

/-- The characters of a text without indentation, but with their places in the lines. -/
abbrev indented (atStart : Bool) (cs : List Char) : List Char :=
  indentLines (fun c => [c]) atStart cs

theorem indented_cons (atStart : Bool) (c : Char) (cs : List Char) :
  indented atStart (c :: cs)
    = if breaksLine c then c :: indented true cs
      else (if atStart then indentation else []) ++ c :: indented false cs
  := by
  rw [indented, indentLines, List.append_assoc]
  rfl

theorem indented_false_append {content : List Char} (h : ∀ c ∈ content, breaksLine c = false)
    (rest : List Char) :
  indented false (content ++ rest) = content ++ indented false rest
  := by
  induction content with
  | nil => rfl
  | cons c content ih =>
    obtain ⟨hc, hcontent⟩ := List.forall_mem_cons.1 h
    rw [List.cons_append, indented_cons, hc, ih hcontent]
    rfl

theorem indented_break {b : Char} (h : breaksLine b = true) (atStart : Bool) (rest : List Char) :
  indented atStart (b :: rest) = b :: indented true rest
  := by rw [indented_cons, if_pos h]

/-- The text of lines is printed as the text of the lines with indentation. -/
theorem indented_textOf (h : ∀ l ∈ lines, Ended l)
    (hspelling : ∀ c ∈ textOf lines, breaksLine c = isBreak c) :
  indented true (textOf lines) = textOf (lines.map indentLine)
  := by
  induction lines with
  | nil => rfl
  | cons l lines ih =>
    obtain ⟨hl, hlines⟩ := List.forall_mem_cons.1 h
    obtain ⟨content, ending⟩ := l
    obtain ⟨b, rfl, hb⟩ := hl.ending
    rw [textOf_cons] at hspelling
    have hcontent : ∀ c ∈ content, breaksLine c = false := by
      intro c hc
      rw [hspelling c (by simp [hc]), hl.content c hc]
    have hbreak : breaksLine b = true := by rw [hspelling b (by simp), hb]
    have hrest := ih hlines fun c hc => hspelling c (by simp [hc])
    rw [textOf_cons, List.map_cons, indentLine, textOf_cons, ← hrest]
    cases content with
    | nil => rw [List.nil_append, indented_break hbreak]; rfl
    | cons c content =>
      obtain ⟨hc, hcontent⟩ := List.forall_mem_cons.1 hcontent
      rw [List.cons_append, indented_cons, hc, indented_false_append hcontent,
        indented_break hbreak]
      simp

/-- Of printed lines the indentation is taken away, up to a line that has none. -/
theorem takeBlock_lines (h : ∀ l ∈ lines, Ended l) (hstart : StartsLine more) :
  takeBlock 2 (lines.map indentLine ++ linesOf more) = some (lines, linesOf more)
  := by
  induction lines with
  | nil =>
    cases more with
    | nil => rfl
    | cons c cs =>
      obtain ⟨hwhite, -⟩ := hstart c rfl
      simp only [isWhite, isBlank, Bool.or_eq_false_iff, beq_eq_false_iff_ne] at hwhite
      obtain ⟨⟨hspace, htab⟩, hbreak⟩ := hwhite
      obtain ⟨content, ending, others, hlines⟩ := exists_linesOf_cons hbreak cs
      simp [hlines, takeBlock, hspace, htab]
  | cons l lines ih =>
    obtain ⟨hl, hlines⟩ := List.forall_mem_cons.1 h
    obtain ⟨content, ending⟩ := l
    obtain ⟨b, rfl, -⟩ := hl.ending
    cases content with
    | nil => simp [indentLine, takeBlock, ih hlines]
    | cons c content => simp [indentLine, indentation, takeBlock, ih hlines]

/-- The indentation is that of the first line, if it begins with a character that is not blank. -/
theorem detectIndent_lines {content : List Char} {ending : Option Char} (hc : isBlank c = false)
    (lines : List Line) :
  detectIndent 1 0 (indentLine (c :: content, ending) :: lines) = some 2
  := by
  simp only [isBlank, Bool.or_eq_false_iff, beq_eq_false_iff_ne] at hc
  simp [indentLine, indentation, detectIndent, hc]

/-! ### Breaks at the end -/

/-- A text with what is done to the breaks at its end. -/
def chomp (chomping : Chomping) (cs : List Char) : List Char :=
  cs.rdropWhile isBreak ++ match chomping with
    | .strip => []
    | .clip => (cs.rtakeWhile isBreak).take 1
    | .keep => cs.rtakeWhile isBreak

theorem chomp_keep (cs : List Char) :
  chomp .keep cs = cs
  := by simp [chomp]

theorem chomp_of_breaks (h : ∀ c ∈ cs, isBreak c = true) (chomping : Chomping) :
  chomp chomping cs = match chomping with
    | .strip => []
    | .clip => cs.take 1
    | .keep => cs
  := by
  have hdrop : cs.rdropWhile isBreak = [] := List.rdropWhile_eq_nil_iff.2 h
  have htake : cs.rtakeWhile isBreak = cs := List.rtakeWhile_eq_self_iff.2 h
  cases chomping <;> simp [chomp, hdrop, htake]

/-- What ends with a character that is no break stays in front of what is done to the rest. -/
theorem chomp_append (hlast : ∃ c ∈ cs.getLast?, isBreak c = false) (chomping : Chomping)
    (rest : List Char) :
  chomp chomping (cs ++ rest) = cs ++ chomp chomping rest
  := by
  have hhead : ∀ c ∈ cs.reverse.head?, isBreak c = false := by
    obtain ⟨c, hc, hbreak⟩ := hlast
    intro d hd
    rw [List.head?_reverse] at hd
    obtain rfl := Option.mem_unique hc hd
    apply hbreak
  have hdrop : (cs ++ rest).rdropWhile isBreak = cs ++ rest.rdropWhile isBreak := by
    rw [List.rdropWhile, List.reverse_append, Text.dropWhile_front hhead, List.reverse_append,
      List.reverse_reverse, List.rdropWhile]
  have htake : (cs ++ rest).rtakeWhile isBreak = rest.rtakeWhile isBreak := by
    rw [List.rtakeWhile, List.reverse_append, Text.takeWhile_front hhead, List.rtakeWhile]
  unfold chomp
  rw [hdrop, htake, List.append_assoc]

/-- A text does not end with a break behind a line that is not empty. -/
theorem exists_last_append {content : List Char} (hne : content ≠ [])
    (hcontent : ∀ c ∈ content, isBreak c = false) (front : List Char) :
  ∃ c ∈ (front ++ content).getLast?, isBreak c = false
  := by
  refine ⟨content.getLast hne, ?_, hcontent _ (List.getLast_mem hne)⟩
  rw [List.getLast?_append_of_ne_nil _ hne]
  apply List.getLast?_eq_some_getLast

/-- The text of lines behind a line, where the breaks between stay as they are. -/
theorem joinLines_eq_chomp (h : ∀ l ∈ lines, Ended l) {breaks : List Char}
    (hbreaks : ∀ c ∈ breaks, isBreak c = true) (chomping : Chomping) (before : List Char) :
  joinLines false chomping before breaks lines = chomp chomping (breaks ++ textOf lines)
  := by
  induction lines generalizing before breaks with
  | nil =>
    have hnone : textOf [] = [] := rfl
    rw [hnone, List.append_nil, chomp_of_breaks hbreaks]
    cases chomping <;> rfl
  | cons l lines ih =>
    obtain ⟨hl, hlines⟩ := List.forall_mem_cons.1 h
    obtain ⟨content, ending⟩ := l
    obtain ⟨b, rfl, hb⟩ := hl.ending
    rw [textOf_cons]
    cases content with
    | nil =>
      have hmore : ∀ c ∈ breaks ++ [b], isBreak c = true := by
        intro c hc
        rcases List.mem_append.1 hc with hc | hc
        · apply hbreaks c hc
        · rw [List.mem_singleton.1 hc, hb]
      simpa [joinLines] using ih hlines hmore before
    | cons c content =>
      have hlast := exists_last_append (List.cons_ne_nil c content) hl.content breaks
      have hbreak : ∀ d ∈ [b], isBreak d = true := by simpa using hb
      have hrest := ih hlines hbreak (c :: content)
      rw [← List.append_assoc, chomp_append hlast, joinLines]
      · simpa [betweenLines] using hrest
      · simp

/-- The breaks at the front of lines, and the lines behind them. -/
theorem leadingBreaks_spec (h : ∀ l ∈ lines, Ended l) :
  textOf lines = (leadingBreaks lines).1 ++ textOf (leadingBreaks lines).2
    ∧ (∀ c ∈ (leadingBreaks lines).1, isBreak c = true)
    ∧ (∀ l ∈ (leadingBreaks lines).2, Ended l)
    ∧ ∀ l ∈ (leadingBreaks lines).2.head?, l.1 ≠ []
  := by
  induction lines with
  | nil => simp [leadingBreaks]
  | cons l lines ih =>
    obtain ⟨hl, hlines⟩ := List.forall_mem_cons.1 h
    obtain ⟨content, ending⟩ := l
    obtain ⟨b, rfl, hb⟩ := hl.ending
    cases content with
    | nil =>
      obtain ⟨htext, hbreaks, hrest, hhead⟩ := ih hlines
      refine ⟨?_, ?_, hrest, hhead⟩
      · simpa [leadingBreaks, textOf_cons] using htext
      · exact List.forall_mem_cons.2 ⟨hb, hbreaks⟩
    | cons c content =>
      refine ⟨rfl, by simp [leadingBreaks], h, by simp [leadingBreaks]⟩

/-- The text of a block scalar is that of its lines, with what the header says of the breaks at the end;
if there is nothing but breaks, they are kept or none of them is. -/
theorem blockText_eq_chomp (h : ∀ l ∈ lines, Ended l) {chomping : Chomping}
    (hcontent : chomping = .keep ∨ ∃ c ∈ textOf lines, isBreak c = false) :
  blockText false chomping lines = chomp chomping (textOf lines)
  := by
  obtain ⟨htext, hbreaks, hrest, hhead⟩ := leadingBreaks_spec h
  rw [blockText]
  split
  · next breaks hleading =>
    rw [hleading] at htext hbreaks
    have hall : textOf lines = breaks := htext.trans (List.append_nil breaks)
    rcases hcontent with rfl | ⟨c, hc, hbreak⟩
    · rw [if_pos rfl, chomp_keep, hall]
    · rw [hall] at hc
      simp [hbreaks c hc] at hbreak
  · next breaks content ending rest hleading =>
    rw [hleading] at htext hbreaks hrest hhead
    obtain ⟨hl, hothers⟩ := List.forall_mem_cons.1 hrest
    obtain ⟨b, rfl, hb⟩ := hl.ending
    have hne : content ≠ [] := hhead _ rfl
    have hlast := exists_last_append hne hl.content breaks
    have hbreak : ∀ d ∈ [b], isBreak d = true := by simpa using hb
    rw [htext, textOf_cons, ← List.append_assoc, chomp_append hlast]
    congr 1
    apply joinLines_eq_chomp hothers hbreak

/-! ### Headers -/

/-- What the header of a text says of the breaks at the end. -/
def literalChomping (cs : List Char) : Chomping :=
  if !endsLine cs then .strip
  else if cs.dropLast.isEmpty || endsLine cs.dropLast then .keep
  else .clip

/-- The indentation that the header of a text tells. -/
def literalIncrement (cs : List Char) : Option Nat :=
  if cs.head?.any fun c => c == ' ' || breaksLine c then some 2 else none

/-- What follows the indicator in the header of a text. -/
def headerBody (cs : List Char) : List Char := (literalHeader cs).tail

/-- The header of a text is read up to the end of its line. -/
theorem blockHeader_headerBody (cs rest : List Char) :
  blockHeader (headerBody cs ++ '\n' :: rest)
    = some (⟨literalChomping cs, literalIncrement cs⟩, rest)
  := by
  rw [headerBody, literalHeader, List.tail_cons, literalChomping, literalIncrement]
  split <;> split
  all_goals try split
  all_goals rfl

/-! ### Printed texts -/

/-- A text with the end of its last line. -/
def ended (cs : List Char) : List Char := cs ++ if endsLine cs then [] else ['\n']

theorem indented_concat {b : Char} (hb : breaksLine b = true) (atStart : Bool) (cs : List Char) :
  indented atStart (cs ++ [b]) = indented atStart cs ++ [b]
  := by
  induction cs generalizing atStart with
  | nil => rw [List.nil_append, indented_break hb]; rfl
  | cons c cs ih =>
    rw [List.cons_append, indented_cons, indented_cons, ih, ih]
    split
    · rfl
    · rw [List.append_assoc, List.cons_append]

theorem indented_ended (cs : List Char) :
  indented true (ended cs) = indented true cs ++ if endsLine cs then [] else ['\n']
  := by
  rw [ended]
  split
  · rw [List.append_nil, List.append_nil]
  · apply indented_concat rfl

/-- What follows the indicator of a text that is printed line by line. -/
def literalBody (cs : List Char) : List Char := headerBody cs ++ '\n' :: indented true (ended cs)

theorem printLiteral_eq (cs : List Char) :
  printLiteral cs = '|' :: literalBody cs
  := by
  rw [literalBody, indented_ended]
  rfl

/-- The last character of a printed text that does not end a line is no break. -/
theorem exists_last (hprinted : ∀ c ∈ cs, Printed c) (hne : cs ≠ []) (hends : endsLine cs = false) :
  ∃ c ∈ cs.getLast?, isBreak c = false
  := by
  refine ⟨cs.getLast hne, List.getLast?_eq_some_getLast hne, ?_⟩
  rw [endsLine, List.getLast?_eq_some_getLast hne] at hends
  rw [← (hprinted _ (List.getLast_mem hne)).breaksLine]
  apply hends

/-- A text does not end a line, or ends one with more than one break or nothing before it, or with a
break after something else. -/
theorem literalChomping_cases (cs : List Char) :
  (literalChomping cs = .strip ∧ endsLine cs = false)
    ∨ (literalChomping cs = .keep ∧ endsLine cs = true)
    ∨ (literalChomping cs = .clip ∧ endsLine cs = true ∧ cs.dropLast ≠ []
      ∧ endsLine cs.dropLast = false)
  := by
  rw [literalChomping]
  cases endsLine cs with
  | false => exact .inl ⟨rfl, rfl⟩
  | true =>
    right
    rw [if_neg (by decide)]
    split
    · exact .inl ⟨rfl, rfl⟩
    · next h =>
      simp only [Bool.or_eq_true, List.isEmpty_iff, not_or, Bool.not_eq_true] at h
      exact .inr ⟨rfl, rfl, h⟩

/-- What the header says of the breaks at the end gives the text without the end that is printed after
it. -/
theorem chomp_ended (hprinted : ∀ c ∈ cs, Printed c) (hne : cs ≠ []) :
  chomp (literalChomping cs) (ended cs) = cs
  := by
  rw [ended]
  rcases literalChomping_cases cs with ⟨h, hends⟩ | ⟨h, hends⟩ | ⟨h, hends, hfront, hfrontends⟩
  · have hfeed : ∀ c ∈ ['\n'], isBreak c = true := List.forall_mem_singleton.2 rfl
    rw [h, hends, if_neg Bool.false_ne_true, chomp_append (exists_last hprinted hne hends),
      chomp_of_breaks hfeed, List.append_nil]
  · rw [h, hends, if_pos rfl, List.append_nil, chomp_keep]
  · have hsplit : cs.dropLast ++ [cs.getLast hne] = cs := List.dropLast_append_getLast hne
    have hlast : ∀ c ∈ [cs.getLast hne], isBreak c = true := by
      intro c hc
      rw [endsLine, List.getLast?_eq_some_getLast hne] at hends
      rw [List.mem_singleton.1 hc, ← (hprinted _ (List.getLast_mem hne)).breaksLine]
      apply hends
    have hprinted' : ∀ c ∈ cs.dropLast, Printed c :=
      fun c hc => hprinted c (List.dropLast_subset cs hc)
    have hchomp : chomp .clip (cs.dropLast ++ [cs.getLast hne])
        = cs.dropLast ++ [cs.getLast hne] := by
      rw [chomp_append (exists_last hprinted' hfront hfrontends), chomp_of_breaks hlast]
      rfl
    rw [hsplit] at hchomp
    rw [h, hends, if_pos rfl, List.append_nil, hchomp]

/-- The breaks at the end are kept, or there is something else in a text that is printed. -/
theorem keep_or_content (hprinted : ∀ c ∈ cs, Printed c) (hne : cs ≠ []) :
  literalChomping cs = .keep ∨ ∃ c ∈ cs, isBreak c = false
  := by
  rcases literalChomping_cases cs with ⟨-, hends⟩ | ⟨h, -⟩ | ⟨-, -, hfront, hends⟩
  · right
    obtain ⟨c, hc, hbreak⟩ := exists_last hprinted hne hends
    exact ⟨c, List.mem_of_getLast? hc, hbreak⟩
  · exact .inl h
  · right
    obtain ⟨c, hc, hbreak⟩ := exists_last (fun c hc => hprinted c (List.dropLast_subset cs hc)) hfront
      hends
    exact ⟨c, List.dropLast_subset cs (List.mem_of_getLast? hc), hbreak⟩

theorem printed_ended (hprinted : ∀ c ∈ cs, Printed c) :
  ∀ c ∈ ended cs, Printed c
  := by
  intro c hc
  rcases List.mem_append.1 hc with hc | hc
  · apply hprinted c hc
  · split at hc
    · cases hc
    · rw [List.mem_singleton.1 hc]
      exact printed_of_isPrintable rfl

/-- A text with the end of its last line ends with a break. -/
theorem isBreak_of_ended (hprinted : ∀ c ∈ cs, Printed c) :
  ∀ c ∈ (ended cs).getLast?, isBreak c = true
  := by
  intro c hc
  rw [← (printed_ended hprinted c (List.mem_of_getLast? hc)).breaksLine]
  rw [ended] at hc
  split at hc
  · next hends =>
    rw [List.append_nil] at hc
    rw [endsLine, hc] at hends
    apply hends
  · rw [List.getLast?_concat] at hc
    cases hc
    rfl

/-- What is printed line by line ends with a break. -/
theorem exists_literalBody (hprinted : ∀ c ∈ cs, Printed c) :
  ∃ front b, literalBody cs = front ++ [b] ∧ isBreak b = true
  := by
  rcases List.eq_nil_or_concat' (ended cs) with hnil | ⟨front, b, hended⟩
  · rw [literalBody, hnil]
    exact ⟨headerBody cs, '\n', rfl, rfl⟩
  · have hb : isBreak b = true := isBreak_of_ended hprinted b (by rw [hended]; simp)
    have hspelling : breaksLine b = true := by
      rw [(printed_ended hprinted b (by rw [hended]; simp)).breaksLine, hb]
    rw [literalBody, hended, indented_concat hspelling]
    exact ⟨headerBody cs ++ '\n' :: indented true front, b, by simp, hb⟩

/-- Without an indentation in the header it is found in the first line, which does not begin with a
blank. -/
theorem detectIndent_ended (hprinted : ∀ c ∈ cs, Printed c) (hne : cs ≠ [])
    (hincrement : literalIncrement cs = none) (htext : textOf lines = ended cs)
    (hlines : ∀ l ∈ lines, Ended l) (more : List Line) :
  detectIndent 1 0 (lines.map indentLine ++ more) = some 2
  := by
  obtain ⟨c, rest, rfl⟩ := List.exists_cons_of_ne_nil hne
  have hc : (c == ' ' || breaksLine c) = false := by
    apply eq_false_of_ne_true
    intro hwhite
    simp [literalIncrement, hwhite] at hincrement
  obtain ⟨hspace, hbreak⟩ := Bool.or_eq_false_iff.1 hc
  have hprinted := hprinted c List.mem_cons_self
  cases lines with
  | nil => simp [textOf, ended] at htext
  | cons l lines =>
    obtain ⟨content, ending⟩ := l
    obtain ⟨b, rfl, hb⟩ := (hlines _ List.mem_cons_self).ending
    rw [textOf_cons, ended, List.cons_append] at htext
    cases content with
    | nil =>
      obtain ⟨rfl, -⟩ := List.cons.inj htext
      rw [← hprinted.breaksLine, hbreak] at hb
      cases hb
    | cons d content =>
      obtain ⟨rfl, -⟩ := List.cons.inj htext
      apply detectIndent_lines
      rw [hprinted.isBlank, hspace]

/-- A text that is printed line by line is read back. -/
theorem blockScalar_literalBody (hfits : fitsLiteral cs = true) (hne : cs ≠ [])
    (hstart : StartsLine more) :
  blockScalar false 1 (literalBody cs ++ more) = some (cs, more)
  := by
  simp only [fitsLiteral, Bool.and_eq_true, Bool.not_eq_true', needsEscapes_eq_false_iff] at hfits
  have hprinted := hfits.1.printed
  obtain ⟨lines, hlines, htext⟩ := exists_lines (isBreak_of_ended hprinted)
  have hbody : indented true (ended cs) = textOf (lines.map indentLine) := by
    rw [← htext]
    apply indented_textOf hlines
    rw [htext]
    intro c hc
    apply (printed_ended hprinted c hc).breaksLine
  have hindented : ∀ l ∈ lines.map indentLine, Ended l := by
    intro _ hmem
    obtain ⟨l, hl, rfl⟩ := List.mem_map.1 hmem
    apply (hlines l hl).indentLine
  have hcontent : literalChomping cs = .keep ∨ ∃ c ∈ textOf lines, isBreak c = false := by
    rcases keep_or_content hprinted hne with hkeep | ⟨c, hc, hbreak⟩
    · exact .inl hkeep
    · right
      exact ⟨c, by simp [htext, ended, hc], hbreak⟩
  have hblock := takeBlock_lines hlines hstart
  have hread : blockText false (literalChomping cs) lines = cs := by
    rw [blockText_eq_chomp hlines hcontent, htext, chomp_ended hprinted hne]
  rw [literalBody, List.append_assoc, List.cons_append, blockScalar, blockHeader_headerBody, hbody]
  simp only [Option.bind_eq_bind, Option.bind_some, linesOf_textOf hindented]
  cases hincrement : literalIncrement cs with
  | none =>
    simp [detectIndent_ended hprinted hne hincrement htext hlines, hblock, hread, textOf_linesOf]
  | some n =>
    obtain rfl : n = 2 := by
      rw [literalIncrement] at hincrement
      split at hincrement
      · cases hincrement
        rfl
      · cases hincrement
    simp [hblock, hread, textOf_linesOf]

end PluginHost.Yaml

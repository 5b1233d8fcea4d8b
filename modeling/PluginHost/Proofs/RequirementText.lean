import PluginHost.Proofs.RangeBounds

/-!
# The text of requirements

The text of a term is its sign and its version without blanks between them.  In front of a comma or
the end it is read as the comparator of the term (`Requirement.readComparator_text`), and so the
texts of several terms with commas between them are read as the requirement with their
comparators (`Requirement.read_intercalate`).
-/

namespace PluginHost.Version

open Text (digits)

/-! ### The characters of versions -/

theorem between_of_isDigit {c : Char} (h : Text.isDigit c = true) :
  48 ≤ c.toNat ∧ c.toNat ≤ 57
  := by
  simpa [Text.isDigit, Char.le_def, UInt32.le_iff_toNat_le] using h

theorem between_of_isIdentifierChar {c : Char} (h : isIdentifierChar c = true) :
  45 ≤ c.toNat ∧ c.toNat ≤ 122
  := by
  simp only [isIdentifierChar, Bool.or_eq_true, Bool.and_eq_true, decide_eq_true_eq, Char.le_def,
    UInt32.le_iff_toNat_le, beq_iff_eq] at h
  obtain ((h | h) | h) | rfl := h
  · obtain ⟨hlow, hhigh⟩ := h
    change 97 ≤ c.toNat at hlow
    change c.toNat ≤ 122 at hhigh
    omega
  · obtain ⟨hlow, hhigh⟩ := h
    change 65 ≤ c.toNat at hlow
    change c.toNat ≤ 90 at hhigh
    omega
  · have hdigit := between_of_isDigit h
    omega
  · decide

/-- What holds of the mark, of points and of the characters of all identifiers holds of a marked
part. -/
theorem forall_mem_marked {P : Char → Prop} {mark : Char} {segments : List (List Char)}
    (hmark : P mark) (hpoint : P '.') (h : ∀ s ∈ segments, ∀ c ∈ s, P c) :
  ∀ c ∈ marked mark segments, P c
  := by
  have hjoined : ∀ c ∈ ['.'].intercalate segments, P c := by
    induction segments with
    | nil => simp
    | cons s others ih =>
      have hothers := ih fun t ht => h t (List.mem_cons_of_mem s ht)
      cases others with
      | nil =>
        rw [List.intercalate_singleton]
        apply h s List.mem_cons_self
      | cons other others =>
        rw [List.intercalate_cons_cons, List.forall_mem_append, List.forall_mem_append,
          List.forall_mem_singleton]
        exact ⟨⟨h s List.mem_cons_self, hpoint⟩, hothers⟩
  rw [marked]
  split
  · simp
  · rw [List.forall_mem_cons]
    use hmark

/-- A marked part begins with its mark, if it is not empty. -/
theorem head?_marked {mark : Char} {segments : List (List Char)} {rest : List Char} :
  ∀ c ∈ (marked mark segments ++ rest).head?, c = mark ∨ c ∈ rest.head?
  := by
  intro c hc
  rw [marked] at hc
  split at hc
  · right
    apply hc
  · left
    cases hc
    rfl

/-- Whether a character is one that texts of versions may have: one from the asterisk to the last
of the small letters. -/
def InVersion (c : Char) : Prop := 42 ≤ c.toNat ∧ c.toNat ≤ 122

theorem inVersion_of_digits {n : Nat} :
  ∀ c ∈ digits n, InVersion c
  := by
  intro c hc
  have hdigit := between_of_isDigit (Text.isDigit_of_mem_digits hc)
  constructor <;> omega

theorem inVersion_of_marked {part : Part} {mark : Char} {segments : List (List Char)}
    (hmark : InVersion mark) (h : ∀ s ∈ segments, IsSegment part s) :
  ∀ c ∈ marked mark segments, InVersion c
  := by
  apply forall_mem_marked hmark
  · constructor <;> decide
  · intro s hs c hc
    have hchar := between_of_isIdentifierChar ((h s hs).chars c hc)
    constructor <;> omega

theorem inVersion_point :
  InVersion '.'
  := by
  constructor <;> decide

theorem Release.inVersion_of_text (r : Release) :
  ∀ c ∈ r.text, InVersion c
  := by
  rw [text, List.forall_mem_append, List.forall_mem_cons, List.forall_mem_append,
    List.forall_mem_cons]
  exact ⟨inVersion_of_digits, inVersion_point, inVersion_of_digits, inVersion_point,
    inVersion_of_digits⟩

/-- A text of a version has no other characters. -/
theorem Partial.inVersion_of_text {limit : Nat} {v : Partial} (h : v.Proper limit) :
  ∀ c ∈ v.text, InVersion c
  := by
  have hwild : ∀ mark, IsWild mark → InVersion mark := by
    rintro mark (rfl | rfl | rfl)
    all_goals constructor <;> decide
  cases v with
  | major a => apply inVersion_of_digits
  | minor a b =>
    rw [text, List.forall_mem_append, List.forall_mem_cons]
    exact ⟨inVersion_of_digits, inVersion_point, inVersion_of_digits⟩
  | full r prerelease build =>
    obtain ⟨-, -, -, hprerelease, hbuild⟩ := h
    rw [text, List.forall_mem_append, List.forall_mem_append]
    use r.inVersion_of_text
    constructor
    · apply inVersion_of_marked _ hprerelease
      constructor <;> decide
    · apply inVersion_of_marked _ hbuild
      constructor <;> decide
  | anyMinor a mark =>
    rw [text, List.forall_mem_append, List.forall_mem_cons, List.forall_mem_singleton]
    exact ⟨inVersion_of_digits, inVersion_point, hwild mark h.2⟩
  | anyPatch a b mark =>
    rw [text, List.forall_mem_append, List.forall_mem_cons, List.forall_mem_append,
      List.forall_mem_cons, List.forall_mem_singleton]
    exact ⟨inVersion_of_digits, inVersion_point, inVersion_of_digits, inVersion_point,
      hwild mark h.2.2⟩

theorem isBlank_of_inVersion {c : Char} (h : InVersion c) :
  Text.isBlank c = false
  := by
  obtain ⟨hlow, hhigh⟩ := h
  simp [Text.isBlank]
  omega

theorem exists_digits_append (n : Nat) (rest : List Char) :
  ∃ c cs, digits n ++ rest = c :: cs ∧ Text.isDigit c = true
  := by
  obtain ⟨c, cs, hdigits, hc⟩ := Text.exists_digits n
  rw [hdigits]
  exact ⟨c, _, rfl, hc⟩

/-- The text of a release begins with a digit. -/
theorem Release.exists_text (r : Release) :
  ∃ c cs, r.text = c :: cs ∧ Text.isDigit c = true
  := exists_digits_append _ _

/-- The text of a version begins with a digit. -/
theorem Partial.exists_text (v : Partial) :
  ∃ c cs, v.text = c :: cs ∧ Text.isDigit c = true
  := by
  cases v with
  | major a => apply Text.exists_digits
  | minor a b | anyMinor a mark | anyPatch a b mark => apply exists_digits_append
  | full r prerelease build =>
    rw [text, Release.text, List.append_assoc]
    apply exists_digits_append

/-- The text of a release is a word. -/
theorem Release.isWord_text (r : Release) :
  Text.IsWord r.text
  := by
  constructor
  · obtain ⟨c, cs, htext, -⟩ := r.exists_text
    rw [htext]
    apply List.cons_ne_nil
  · intro c hc
    apply isBlank_of_inVersion (r.inVersion_of_text c hc)

/-- The text of a version is a word. -/
theorem Partial.isWord_text {limit : Nat} {v : Partial} (h : v.Proper limit) :
  Text.IsWord v.text
  := by
  constructor
  · obtain ⟨c, cs, htext, -⟩ := v.exists_text
    rw [htext]
    apply List.cons_ne_nil
  · intro c hc
    apply isBlank_of_inVersion (Partial.inVersion_of_text h c hc)

/-! ### Terms -/

/-- Whether a term can begin with a character: with a digit or the first character of a sign. -/
def Opens (c : Char) : Prop := Text.isDigit c = true ∨ ∃ sign : Sign, sign.text.head? = some c

theorem ne_of_opens {c : Char} (h : Opens c) :
  c ≠ ' ' ∧ c ≠ '-' ∧ ¬Partial.IsWild c
  := by
  unfold Partial.IsWild
  obtain hdigit | ⟨sign, hsign⟩ := h
  · refine ⟨?_, ?_, ?_⟩
    · rintro rfl
      cases hdigit
    · rintro rfl
      cases hdigit
    · rintro (rfl | rfl | rfl) <;> cases hdigit
  · cases sign <;> cases hsign <;> decide

/-- The text of a sign begins a term. -/
theorem Sign.exists_text (sign : Sign) :
  ∃ c cs, sign.text = c :: cs ∧ Opens c
  := by
  cases hsign : sign.text with
  | nil => cases sign <;> cases hsign
  | cons c cs => exact ⟨c, cs, rfl, .inr ⟨sign, by rw [hsign]; rfl⟩⟩

/-- The text of a term, without blanks behind the sign. -/
def Term.text (t : Term) : List Char := (t.sign.map Sign.text).getD [] ++ t.version.text

theorem Term.exists_text (t : Term) :
  ∃ c cs, t.text = c :: cs ∧ Opens c
  := by
  obtain ⟨sign, v⟩ := t
  cases sign with
  | none =>
    obtain ⟨c, cs, htext, hc⟩ := v.exists_text
    exact ⟨c, cs, htext, .inl hc⟩
  | some sign =>
    obtain ⟨c, cs, htext, hc⟩ := sign.exists_text
    have happend : Term.text ⟨some sign, v⟩ = sign.text ++ v.text := rfl
    rw [happend, htext]
    exact ⟨c, _, rfl, hc⟩

namespace Requirement

variable {part : Part} {rest : List Char} {n : Nat}

/-! ### Reading a comparator -/

/-- Whether a text is empty or begins with a comma. -/
def AtEnd (rest : List Char) : Prop := ∀ c ∈ rest.head?, c = ','

theorem skipSpaces_of_head {cs : List Char} (h : ∀ c ∈ cs.head?, c ≠ ' ') :
  skipSpaces cs = cs
  := by
  cases cs with
  | nil => rfl
  | cons c cs =>
    apply List.dropWhile_cons_of_neg
    simpa using h c rfl

theorem readPlace_end (h : AtEnd rest) (afterWild : Bool) :
  readPlace part afterWild rest = .ok (.missing, rest)
  := by
  cases rest with
  | nil => rfl
  | cons c rest =>
    obtain rfl := h c rfl
    rfl

theorem readPlace_wild {mark : Char} (h : Partial.IsWild mark) (afterWild : Bool)
    (rest : List Char) :
  readPlace part afterWild ('.' :: mark :: rest) = .ok (.wild, rest)
  := by
  obtain rfl | rfl | rfl := h <;> rfl

theorem readWildcard_of_digit {c : Char} (h : Text.isDigit c = true) (cs : List Char) :
  readWildcard (c :: cs) = none
  := by
  have hdigit := between_of_isDigit h
  rw [readWildcard, if_neg]
  rintro (rfl | rfl | rfl) <;> revert hdigit <;> decide

theorem readPlace_digits (hn : n < numberEnd) (hrest : ∀ c ∈ rest.head?, Text.isDigit c = false) :
  readPlace part false ('.' :: (digits n ++ rest)) = .ok (.number n, rest)
  := by
  obtain ⟨c, cs, hdigits, hc⟩ := Text.exists_digits n
  have hnumber : readNumber part (digits n ++ rest) = .ok (n, rest) := readNumber_digits hn hrest
  rw [readPlace, hdigits, List.cons_append, readWildcard_of_digit hc, ← List.cons_append, ← hdigits,
    hnumber]
  rfl

/-- A sign in front of a digit is read as its operator. -/
theorem readOperator_text {c : Char} (h : Text.isDigit c = true) (cs : List Char)
    (sign : Option Sign) :
  readOperator ((sign.map Sign.text).getD [] ++ c :: cs) = (sign.map Sign.operator, c :: cs)
  := by
  have hnone : readOperator (c :: cs) = (none, c :: cs) := by
    unfold readOperator
    split
    case h_8 => rfl
    all_goals
      next hcs =>
        cases hcs
        exact absurd h (by decide)
  cases sign with
  | none => apply hnone
  | some sign =>
    cases sign with
    | greater | less =>
      have hc : c ≠ '=' := by
        rintro rfl
        cases h
      simp [Sign.text, Sign.operator, readOperator, hc]
    | _ => rfl

variable {prerelease build : List (List Char)}

/-- A prerelease is read in front of build metadata and the end. -/
theorem readMarked_prerelease (hprerelease : ∀ s ∈ prerelease, IsSegment .prerelease s)
    (h : AtEnd rest) :
  readMarked '-' .prerelease (marked '-' prerelease ++ (marked '+' build ++ rest))
    = .ok (prerelease.map identifierOf, marked '+' build ++ rest)
  := by
  apply readMarked_marked hprerelease
  intro c hc
  obtain rfl | hc := head?_marked c hc
  · decide
  · rw [h c hc]
    decide

theorem readMarked_build (hbuild : ∀ s ∈ build, IsSegment .build s) (h : AtEnd rest) :
  readMarked '+' .build (marked '+' build ++ rest) = .ok (build.map identifierOf, rest)
  := by
  apply readMarked_marked hbuild
  intro c hc
  rw [h c hc]
  decide

theorem not_isDigit_end (h : AtEnd rest) :
  ∀ c ∈ rest.head?, Text.isDigit c = false
  := by
  intro c hc
  rw [h c hc]
  rfl

/-- A number ends in front of a prerelease, build metadata and the end. -/
theorem not_isDigit_marked (h : AtEnd rest) :
  ∀ c ∈ (marked '-' prerelease ++ (marked '+' build ++ rest)).head?, Text.isDigit c = false
  := by
  intro c hc
  obtain rfl | hc := head?_marked c hc
  · rfl
  obtain rfl | hc := head?_marked c hc
  · rfl
  · apply not_isDigit_end h c hc

/-- The text of a term is read as its comparator. -/
theorem readComparator_text {t : Term} (ht : t.version.Proper numberEnd) (h : AtEnd rest) :
  ∃ part, readComparator (t.text ++ rest) = .ok (t.comparator, part, rest)
  := by
  have hdigit := not_isDigit_end h
  have hpoint := not_isDigit_point
  have hspace : skipSpaces rest = rest := by
    apply skipSpaces_of_head
    intro c hc
    rw [h c hc]
    decide
  obtain ⟨sign, v⟩ := t
  obtain ⟨c, cs, htext, hc⟩ := v.exists_text
  have hoperator : readOperator (Term.text ⟨sign, v⟩ ++ rest)
      = (sign.map Sign.operator, v.text ++ rest) := by
    rw [Term.text, htext, List.append_assoc]
    apply readOperator_text hc
  have hskip : skipSpaces (v.text ++ rest) = v.text ++ rest := by
    apply skipSpaces_of_head
    rw [htext]
    rintro d ⟨⟩ rfl
    cases hc
  rw [readComparator]
  simp only [hoperator, hskip, bind, Except.bind, pure, Except.pure]
  cases v with
  | major a =>
    simp only [Partial.text, readNumber_digits ht hdigit, readPlace_end h]
    rw [hspace]
    cases sign <;> exact ⟨_, rfl⟩
  | minor a b =>
    simp only [Partial.text, List.append_assoc, List.cons_append, readNumber_digits ht.1 (hpoint _),
      readPlace_digits ht.2 hdigit, readPlace_end h]
    rw [hspace]
    cases sign <;> exact ⟨_, rfl⟩
  | anyMinor a mark =>
    simp only [Partial.text, List.append_assoc, List.cons_append, readNumber_digits ht.1 (hpoint _),
      readPlace_wild ht.2, readPlace_end h, List.nil_append]
    rw [hspace]
    cases sign <;> exact ⟨_, rfl⟩
  | anyPatch a b mark =>
    simp only [Partial.text, List.append_assoc, List.cons_append, readNumber_digits ht.1 (hpoint _),
      readPlace_digits ht.2.1 (hpoint _), readPlace_wild ht.2.2, List.nil_append]
    rw [hspace]
    cases sign <;> exact ⟨_, rfl⟩
  | full r prerelease build =>
    obtain ⟨hmajor, hminor, hpatch, hprerelease, hbuild⟩ := ht
    have hwild : (Place.number r.minor == Place.wild) = false := rfl
    simp only [Partial.text, Release.text, List.append_assoc, List.cons_append, hwild,
      readNumber_digits hmajor (hpoint _), readPlace_digits hminor (hpoint _),
      readPlace_digits hpatch (not_isDigit_marked h)]
    simp only [Place.number?, Option.isSome_some, if_true, readMarked_prerelease hprerelease h,
      readMarked_build hbuild h]
    rw [hspace]
    cases sign <;> exact ⟨_, rfl⟩

/-! ### Reading several comparators -/

/-- A comma and a space. -/
def comma : List Char := [',', ' ']

/-- Terms with commas between them begin as the first of them does. -/
theorem exists_intercalate (t : Term) (others : List Term) :
  ∃ c cs, comma.intercalate ((t :: others).map Term.text) = c :: cs ∧ Opens c
  := by
  obtain ⟨c, cs, htext, hc⟩ := t.exists_text
  cases others with
  | nil => exact ⟨c, cs, by simpa using htext, hc⟩
  | cons other others =>
    rw [List.map_cons, List.map_cons, List.intercalate_cons_cons, htext]
    exact ⟨c, _, rfl, hc⟩

/-- The texts of terms with commas between them are read as their comparators. -/
theorem readComparators_intercalate {terms : List Term} (hne : terms ≠ [])
    (h : ∀ t ∈ terms, t.version.Proper numberEnd) {count : Nat} (hcount : terms.length ≤ count) :
  readComparators count (comma.intercalate (terms.map Term.text))
    = .ok (terms.map Term.comparator)
  := by
  induction terms generalizing count with
  | nil => cases hne rfl
  | cons t others ih =>
    cases count with
    | zero => cases hcount
    | succ count =>
      have ht := h t List.mem_cons_self
      cases others with
      | nil =>
        have hend : AtEnd [] := by
          rintro c ⟨⟩
        obtain ⟨part, hread⟩ := readComparator_text ht hend
        rw [List.append_nil] at hread
        rw [List.map_singleton, List.intercalate_singleton, readComparators, hread]
        rfl
      | cons other others =>
        have hothers := ih (List.cons_ne_nil _ _)
          (fun t ht => h t (List.mem_cons_of_mem _ ht)) (Nat.le_of_succ_le_succ hcount)
        obtain ⟨c, cs, htext, hc⟩ := exists_intercalate other others
        have hspace : c ≠ ' ' := (ne_of_opens hc).1
        have hskip : skipSpaces (' ' :: c :: cs) = c :: cs := by
          rw [skipSpaces, List.dropWhile_cons_of_pos (by rfl)]
          apply skipSpaces_of_head
          rintro d ⟨⟩
          apply hspace
        have hend : AtEnd (',' :: ' ' :: c :: cs) := by
          rintro d ⟨⟩
          rfl
        obtain ⟨part, hread⟩ := readComparator_text ht hend
        rw [List.map_cons, List.map_cons, List.intercalate_cons_cons, ← List.map_cons, htext,
          List.append_assoc, readComparators, comma, List.cons_append, List.singleton_append, hread]
        rw [htext] at hothers
        simp only [hskip, hothers]
        rfl

/-- The texts of terms with commas between them are read as the requirement with their
comparators. -/
theorem read_intercalate {terms : List Term} (hne : terms ≠ [])
    (h : ∀ t ∈ terms, t.version.Proper numberEnd) (hcount : terms.length ≤ maxComparators) :
  read (comma.intercalate (terms.map Term.text)) = .ok ⟨terms.map Term.comparator⟩
  := by
  obtain ⟨t, others, rfl⟩ := List.exists_cons_of_ne_nil hne
  obtain ⟨c, cs, htext, hc⟩ := exists_intercalate t others
  obtain ⟨hspace, -, hwild⟩ := ne_of_opens hc
  have hcomparators := readComparators_intercalate hne h hcount
  have hskip : skipSpaces (c :: cs) = c :: cs := by
    apply skipSpaces_of_head
    rintro d ⟨⟩
    apply hspace
  have hnone : readWildcard (c :: cs) = none := by
    rw [readWildcard, if_neg]
    rintro (rfl | rfl | rfl)
    all_goals simp [Partial.IsWild] at hwild
  rw [htext] at hcomparators ⊢
  rw [read, hskip, hnone]
  simp only [hcomparators]
  rfl

end Requirement

end PluginHost.Version

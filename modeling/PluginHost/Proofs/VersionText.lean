import PluginHost.Proofs.Blanks
import PluginHost.Version.Reader

/-!
# The text of versions

Decimal digits are read back as their number, wherever no digit follows
(`Version.readNumber_digits`), and so are identifiers between points, in a prerelease or in
build metadata (`Version.readMarked_marked`).  A `Release` has three numbers only, and is read
back from its text (`Version.Release.read_text`).
-/

namespace PluginHost

namespace Text

/-! ### Digits -/

/-- The digits of a number. -/
def digits (n : Nat) : List Char := (decimal n).toList

theorem digits_eq (n : Nat) :
  digits n = Nat.toDigits 10 n
  := String.toList_ofList

theorem digits_of_lt {n : Nat} (h : n < 10) :
  digits n = [Nat.digitChar n]
  := by
  rw [digits_eq, Nat.toDigits_of_lt_base h]

/-- The last digit comes off the end. -/
theorem digits_of_ge {n : Nat} (h : 10 ≤ n) :
  digits n = digits (n / 10) ++ [Nat.digitChar (n % 10)]
  := by
  rw [digits_eq, digits_eq, Nat.toDigits_of_base_le (by decide) h]

theorem digitValue?_digitChar :
  ∀ d < 10, digitValue? 10 (Nat.digitChar d) = some d
  := by decide

theorem digitValue?_of_not_isDigit {c : Char} (h : isDigit c = false) :
  digitValue? 10 c = none
  := by
  have hc : ¬('0' ≤ c ∧ c ≤ '9') := by
    simpa [isDigit] using h
  rw [digitValue?, hexValue?, if_neg hc]
  split
  · simp
  · split
    · simp
    · rfl

theorem isDigit_digitChar :
  ∀ d < 10, isDigit (Nat.digitChar d) = true
  := by decide

/-- Every digit of a number is one. -/
theorem isDigit_of_mem_digits {n : Nat} {c : Char} (h : c ∈ digits n) :
  isDigit c = true
  := by
  induction n using Nat.strongRecOn with
  | ind n ih =>
    by_cases hn : n < 10
    · rw [digits_of_lt hn, List.mem_singleton] at h
      rw [h]
      apply isDigit_digitChar n hn
    · rw [digits_of_ge (Nat.le_of_not_lt hn)] at h
      rcases List.mem_append.1 h with h | h
      · apply ih (n / 10) (by omega) h
      · rw [List.mem_singleton.1 h]
        apply isDigit_digitChar _ (Nat.mod_lt n (by decide))

/-- A number has a digit. -/
theorem exists_digits (n : Nat) :
  ∃ c cs, digits n = c :: cs ∧ isDigit c = true
  := by
  obtain ⟨c, cs, h⟩ := List.exists_cons_of_ne_nil (l := digits n) <| by
    rw [digits_eq]
    apply Nat.toDigits_ne_nil
  use c, cs, h
  apply isDigit_of_mem_digits (n := n)
  rw [h]
  apply List.mem_cons_self

/-- The digits of a number spell it. -/
theorem numberIn?_digits (n : Nat) :
  numberIn? 10 (digits n) = some n
  := by
  have hvalue : (digits n).foldlM (fun n c => (digitValue? 10 c).map (n * 10 + ·)) 0 = some n := by
    induction n using Nat.strongRecOn with
    | ind n ih =>
      by_cases hn : n < 10
      · simp [digits_of_lt hn, digitValue?_digitChar n hn]
      · rw [digits_of_ge (Nat.le_of_not_lt hn), List.foldlM_append, ih (n / 10) (by omega)]
        simp [digitValue?_digitChar _ (Nat.mod_lt n (by decide))]
        omega
  obtain ⟨c, cs, h, -⟩ := exists_digits n
  rw [h] at hvalue ⊢
  apply hvalue

end Text

namespace Version

variable {part : Part} {n : Nat} {rest : List Char}

/-! ### Numbers -/

theorem continueNumber_first {c : Char} {d : Nat} (hc : Text.digitValue? 10 c = some d)
    (rest : List Char) :
  continueNumber part none (c :: rest) = continueNumber part (some d) rest
  := by
  rw [continueNumber.eq_def]
  simp only [hc]

theorem continueNumber_next {c : Char} {d : Nat} (hc : Text.digitValue? 10 c = some d)
    (hn : n ≠ 0) (hend : n * 10 + d < numberEnd) (rest : List Char) :
  continueNumber part (some n) (c :: rest) = continueNumber part (some (n * 10 + d)) rest
  := by
  rw [continueNumber.eq_def]
  simp only [hc, hn, hend, if_true, if_false]

/-- A number that has been read ends in front of what is no digit. -/
theorem continueNumber_end (hrest : ∀ c ∈ rest.head?, Text.isDigit c = false) :
  continueNumber part (some n) rest = .ok (n, rest)
  := by
  cases rest with
  | nil => rfl
  | cons c rest =>
    rw [continueNumber.eq_def]
    simp only [Text.digitValue?_of_not_isDigit (hrest c rfl)]

/-- Digits are read as their number, which is continued behind them. -/
theorem continueNumber_digits (hn : n < numberEnd) (rest : List Char) :
  continueNumber part none (Text.digits n ++ rest) = continueNumber part (some n) rest
  := by
  induction n using Nat.strongRecOn generalizing rest with
  | ind n ih =>
    by_cases hsmall : n < 10
    · rw [Text.digits_of_lt hsmall]
      apply continueNumber_first (Text.digitValue?_digitChar n hsmall)
    · have hvalue : n / 10 * 10 + n % 10 = n := by omega
      rw [Text.digits_of_ge (Nat.le_of_not_lt hsmall), List.append_assoc,
        ih (n / 10) (by omega) (by omega), List.singleton_append,
        continueNumber_next (Text.digitValue?_digitChar _ (Nat.mod_lt n (by decide))) (by omega)
          (by omega), hvalue]

/-- A number is read from its digits, where no digit follows. -/
theorem readNumber_digits (hn : n < numberEnd)
    (hrest : ∀ c ∈ rest.head?, Text.isDigit c = false) :
  readNumber part (Text.digits n ++ rest) = .ok (n, rest)
  := by
  rw [readNumber, continueNumber_digits hn, continueNumber_end hrest]

/-- A point is no digit, so that a number ends in front of it. -/
theorem not_isDigit_point (cs : List Char) :
  ∀ c ∈ ('.' :: cs).head?, Text.isDigit c = false
  := by
  rintro c ⟨⟩
  rfl

/-! ### Identifiers -/

/-- Whether a text can stand between points in a part of a version: it consists of letters, digits
and hyphens, and in a prerelease it is no number with a zero in front. -/
structure IsSegment (part : Part) (segment : List Char) : Prop where
  ne_nil : segment ≠ []
  chars : ∀ c ∈ segment, isIdentifierChar c = true
  zero : ¬(part = .prerelease ∧ segment.all Text.isDigit ∧ 1 < segment.length
    ∧ segment.head? = some '0')

variable {segment : List Char} {first : Bool}

/-- The last identifier is read where none follows. -/
theorem readSegments_last (h : IsSegment part segment)
    (hrest : ∀ c ∈ rest.head?, isIdentifierChar c = false ∧ c ≠ '.') :
  readSegments part first (segment ++ rest) = .ok ([identifierOf segment], rest)
  := by
  have hend : ∀ c ∈ rest.head?, isIdentifierChar c = false := fun c hc => (hrest c hc).1
  rw [readSegments, Text.takeWhile_run h.chars hend]
  simp only [List.isEmpty_iff, h.ne_nil, if_false, if_neg h.zero]
  split
  · next more hmore =>
    rw [Text.dropWhile_run h.chars hend] at hmore
    cases (hrest '.' (by rw [hmore]; rfl)).2 rfl
  · rw [Text.dropWhile_run h.chars hend]

/-- An identifier in front of a point is read before those behind it. -/
theorem readSegments_point (h : IsSegment part segment) (more : List Char) :
  readSegments part first (segment ++ '.' :: more)
    = do
      let (identifiers, rest) ← readSegments part false more
      return (identifierOf segment :: identifiers, rest)
  := by
  have hend : ∀ c ∈ ('.' :: more).head?, isIdentifierChar c = false := by
    rintro c ⟨⟩
    decide
  rw [readSegments, Text.takeWhile_run h.chars hend]
  simp only [List.isEmpty_iff, h.ne_nil, if_false, if_neg h.zero]
  split
  · next others hothers =>
    rw [Text.dropWhile_run h.chars hend] at hothers
    cases hothers
    rfl
  · next hpoint =>
    rw [Text.dropWhile_run h.chars hend] at hpoint
    cases hpoint more rfl

/-- Identifiers between points are read, where none follows. -/
theorem readSegments_intercalate {segments : List (List Char)} (hne : segments ≠ [])
    (h : ∀ segment ∈ segments, IsSegment part segment)
    (hrest : ∀ c ∈ rest.head?, isIdentifierChar c = false ∧ c ≠ '.') (first : Bool) :
  readSegments part first (['.'].intercalate segments ++ rest)
    = .ok (segments.map identifierOf, rest)
  := by
  induction segments generalizing first with
  | nil => cases hne rfl
  | cons segment others ih =>
    have hsegment := h segment List.mem_cons_self
    cases others with
    | nil =>
      rw [List.intercalate_singleton]
      apply readSegments_last hsegment hrest
    | cons other others =>
      have hothers := ih (List.cons_ne_nil _ _)
        (fun s hs => h s (List.mem_cons_of_mem segment hs)) false
      rw [List.intercalate_cons_cons, List.append_assoc, List.append_assoc, List.singleton_append,
        readSegments_point hsegment, hothers]
      rfl

/-- Identifiers behind a mark, or nothing if there are none. -/
def marked (mark : Char) (segments : List (List Char)) : List Char :=
  if segments = [] then [] else mark :: ['.'].intercalate segments

/-- Identifiers behind a mark are read, where nothing follows that could belong to them. -/
theorem readMarked_marked {mark : Char} {segments : List (List Char)}
    (h : ∀ segment ∈ segments, IsSegment part segment)
    (hrest : ∀ c ∈ rest.head?, isIdentifierChar c = false ∧ c ≠ '.' ∧ c ≠ mark) :
  readMarked mark part (marked mark segments ++ rest) = .ok (segments.map identifierOf, rest)
  := by
  by_cases hne : segments = []
  · subst hne
    cases rest with
    | nil => rfl
    | cons c rest =>
      rw [marked, if_pos rfl, List.nil_append, readMarked, if_neg (hrest c rfl).2.2]
      rfl
  · have hsegments := readSegments_intercalate hne h
      (fun c hc => ⟨(hrest c hc).1, (hrest c hc).2.1⟩) true
    rw [marked, if_neg hne, List.cons_append, readMarked, if_pos rfl, hsegments]
    simp [bind, Except.bind, hne]

/-! ### Releases -/

/-- A version without a prerelease. -/
structure Release where
  major : Nat
  minor : Nat
  patch : Nat
  deriving DecidableEq, Repr

namespace Release

/-- A release as a version. -/
def version (r : Release) : Version := ⟨r.major, r.minor, r.patch, []⟩

@[simp]
theorem major_version (r : Release) :
  r.version.major = r.major
  := rfl

@[simp]
theorem minor_version (r : Release) :
  r.version.minor = r.minor
  := rfl

@[simp]
theorem patch_version (r : Release) :
  r.version.patch = r.patch
  := rfl

@[simp]
theorem prerelease_version (r : Release) :
  r.version.prerelease = []
  := rfl

/-- The text of a release. -/
def text (r : Release) : List Char :=
  Text.digits r.major ++ '.' :: (Text.digits r.minor ++ '.' :: Text.digits r.patch)

/-- Whether all numbers of a release are small enough. -/
structure Proper (r : Release) : Prop where
  major : r.major < numberEnd
  minor : r.minor < numberEnd
  patch : r.patch < numberEnd

/-- A release is read back from its text. -/
theorem read_text {r : Release} (h : r.Proper) :
  read r.text = .ok r.version
  := by
  have hend : ∀ c ∈ ([] : List Char).head?, Text.isDigit c = false := by
    rintro c ⟨⟩
  have hpatch : readNumber .patch (Text.digits r.patch ++ []) = .ok (r.patch, []) :=
    readNumber_digits h.patch hend
  rw [List.append_nil] at hpatch
  obtain ⟨c, cs, hdigits, -⟩ := Text.exists_digits r.major
  have hne : r.text.isEmpty = false := by
    rw [text, hdigits]
    rfl
  rw [read, hne, text]
  simp only [bind, Except.bind, readNumber_digits h.major (not_isDigit_point _),
    readNumber_digits h.minor (not_isDigit_point _), hpatch, readPoint, readMarked]
  rfl

end Release

end Version

end PluginHost

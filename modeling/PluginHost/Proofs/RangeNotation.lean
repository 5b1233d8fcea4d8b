import PluginHost.Proofs.RequirementText
import PluginHost.Version.Range

/-!
# Ranges in the notation of requirements

A version without a sign is told apart by the numbers and wildcards in front of its prerelease
(`Range.comparatorText_bare`).  So the text of a term is brought into the texts of the terms that it
stands for, with commas between them (`Range.comparatorText_text`).
-/

namespace PluginHost.Version

open Text (digits)
open Requirement (comma)

namespace Range

/-! ### The notation of requirements -/

theorem not_mem_digits {c : Char} (h : Text.isDigit c = false) (n : Nat) :
  c ∉ digits n
  := by
  intro hc
  rw [Text.isDigit_of_mem_digits hc] at h
  cases h

/-- The numbers of a text are read back. -/
theorem numbersOf?_digits {a : Nat} (ha : a < numberEnd) :
  numbersOf? (digits a) = some [a]
  := by
  rw [numbersOf?, Text.splitOn_of_not_mem (not_mem_digits rfl a)]
  simp [Text.numberIn?_digits, Option.filter, ha]

/-- The number after one that is not the greatest. -/
theorem numberAfter_of_lt {n : Nat} (h : n < numberEnd - 1) :
  numberAfter n = n + 1
  := Nat.mod_eq_of_lt (Nat.add_lt_of_lt_sub h)

/-- Numbers in front of a point are read before those behind it. -/
theorem numbersOf?_point {a : Nat} {rest : List Char} {others : List Nat} (ha : a < numberEnd)
    (hrest : numbersOf? rest = some others) :
  numbersOf? (digits a ++ '.' :: rest) = some (a :: others)
  := by
  rw [numbersOf?] at hrest ⊢
  rw [Text.splitOn_append, Text.splitOn_of_not_mem (not_mem_digits rfl a), List.singleton_append,
    List.mapM_cons, hrest]
  simp [Text.numberIn?_digits, Option.filter, ha]

/-- Whether a text consists of digits and points. -/
def IsNumeric (cs : List Char) : Prop := ∀ c ∈ cs, Text.isDigit c = true ∨ c = '.'

theorem isNumeric_digits (n : Nat) :
  IsNumeric (digits n)
  := by
  intro c hc
  left
  apply Text.isDigit_of_mem_digits hc

theorem isNumeric_point {front back : List Char} (hfront : IsNumeric front)
    (hback : IsNumeric back) :
  IsNumeric (front ++ '.' :: back)
  := by
  rw [IsNumeric, List.forall_mem_append, List.forall_mem_cons]
  exact ⟨hfront, .inr rfl, hback⟩

/-- What a version without a sign is brought into, by the numbers that it has. -/
def numbersText (cs : List Char) : List Nat → List Char
  | [major] =>
    (">=" ++ Text.decimal major ++ ".0.0, <" ++ Text.decimal (numberAfter major) ++ ".0.0").toList
  | [major, minor] =>
    (">=" ++ Text.decimal major ++ "." ++ Text.decimal minor ++ ".0, <"
      ++ Text.decimal major ++ "." ++ Text.decimal (numberAfter minor) ++ ".0").toList
  | _ => '=' :: cs

/-- A version without a sign is told apart by what is in front of a prerelease and build
metadata. -/
theorem comparatorText_bare {core : List Char} (prerelease build : List (List Char))
    (hcore : ∀ c ∈ core, c ≠ '+' ∧ c ≠ '-')
    (hhead : ∃ c cs, core = c :: cs ∧ Text.isDigit c = true)
    (hprerelease : ∀ s ∈ prerelease, IsSegment .prerelease s) :
  comparatorText (core ++ (marked '-' prerelease ++ marked '+' build))
    = if core.any fun c => c == 'x' || c == 'X' || c == '*' then core ++ marked '-' prerelease
      else ((numbersOf? core).map (numbersText (core ++ marked '-' prerelease))).getD
        (core ++ marked '-' prerelease)
  := by
  have hmark : ∀ mark segments, ∀ c ∈ (marked mark segments).head?, (c != mark) = false := by
    intro mark segments c hc
    rw [← List.append_nil (marked _ _)] at hc
    obtain rfl | ⟨⟨⟩⟩ := head?_marked c hc
    apply bne_self_eq_false
  have hbuild : (core ++ (marked '-' prerelease ++ marked '+' build)).takeWhile (· != '+')
      = core ++ marked '-' prerelease := by
    rw [← List.append_assoc]
    apply Text.takeWhile_run _ (hmark _ _)
    rw [List.forall_mem_append]
    constructor
    · intro c hc
      simpa using (hcore c hc).1
    · apply forall_mem_marked (P := fun c => (c != '+') = true) (by decide) (by decide)
      intro s hs c hc
      have hchar := (hprerelease s hs).chars c hc
      rw [bne_iff_ne]
      rintro rfl
      cases hchar
  have hcut : (core ++ marked '-' prerelease).takeWhile (· != '-') = core := by
    apply Text.takeWhile_run _ (hmark _ _)
    intro c hc
    simpa using (hcore c hc).2
  obtain ⟨c, cs, rfl, hc⟩ := hhead
  have hv : c ≠ 'v' := by
    rintro rfl
    cases hc
  unfold comparatorText
  split
  · next hcs =>
    cases hcs
    cases hv rfl
  · have hfirst : (c :: cs ++ (marked '-' prerelease ++ marked '+' build)).head?.any Text.isDigit
        = true := hc
    simp only [hfirst, Bool.not_true, Bool.false_eq_true, if_false, hbuild, hcut]
    congr 1
    cases numbersOf? (c :: cs) with
    | none => rfl
    | some numbers => rcases numbers with _ | ⟨major, _ | ⟨minor, _ | ⟨patch, more⟩⟩⟩ <;> rfl

theorem ne_of_isNumeric {core : List Char} (h : IsNumeric core) :
  ∀ c ∈ core, c ≠ '+' ∧ c ≠ '-'
  := by
  intro c hc
  rcases h c hc with hdigit | rfl
  · constructor <;> rintro rfl <;> cases hdigit
  · decide

/-- Numbers without a sign are told apart by how many they are. -/
theorem comparatorText_numbers {core : List Char} {numbers : List Nat}
    (prerelease build : List (List Char)) (hcore : IsNumeric core)
    (hhead : ∃ c cs, core = c :: cs ∧ Text.isDigit c = true)
    (hprerelease : ∀ s ∈ prerelease, IsSegment .prerelease s)
    (hnumbers : numbersOf? core = some numbers) :
  comparatorText (core ++ (marked '-' prerelease ++ marked '+' build))
    = numbersText (core ++ marked '-' prerelease) numbers
  := by
  have hwild : (core.any fun c => c == 'x' || c == 'X' || c == '*') = false := by
    rw [List.any_eq_false]
    intro c hc
    simp only [Bool.or_eq_true, beq_iff_eq]
    rcases hcore c hc with hdigit | rfl
    · rintro ((rfl | rfl) | rfl) <;> cases hdigit
    · decide
  rw [comparatorText_bare prerelease build (ne_of_isNumeric hcore) hhead hprerelease, hwild,
    hnumbers, if_neg Bool.false_ne_true]
  rfl

/-- A text that ends with a wildcard stays as it is. -/
theorem comparatorText_wild {front : List Char} {mark : Char} (hfront : IsNumeric front)
    (hhead : ∃ c cs, front ++ [mark] = c :: cs ∧ Text.isDigit c = true)
    (hmark : Partial.IsWild mark) :
  comparatorText (front ++ [mark]) = front ++ [mark]
  := by
  have hcore : ∀ c ∈ front ++ [mark], c ≠ '+' ∧ c ≠ '-' := by
    rw [List.forall_mem_append, List.forall_mem_singleton]
    use ne_of_isNumeric hfront
    obtain rfl | rfl | rfl := hmark <;> decide
  have hwild : ((front ++ [mark]).any fun c => c == 'x' || c == 'X' || c == '*') = true := by
    rw [List.any_append]
    obtain rfl | rfl | rfl := hmark <;> simp
  have hbare := comparatorText_bare [] [] hcore hhead (by simp)
  rw [if_pos hwild] at hbare
  simpa [marked] using hbare

theorem digits_zero :
  digits 0 = ['0']
  := rfl

/-- The text of a term is brought into the texts of the terms that it stands for, unless it leaves
numbers out and the last one that it has is the greatest. -/
theorem comparatorText_text {t : Term} (h : t.version.Proper (numberEnd - 1)) :
  comparatorText t.text = comma.intercalate (t.bounding.map Term.text)
  := by
  obtain ⟨sign, v⟩ := t
  have hdigits : ∀ n, (Text.decimal n).toList = digits n := fun _ => rfl
  cases sign with
  | some sign =>
    cases sign <;> simp [comparatorText, Term.text, Sign.text, Term.bounding, Text.isDigit]
  | none =>
    change comparatorText v.text = _
    have hhead := v.exists_text
    have hread : v.Proper numberEnd := h.mono (Nat.sub_le _ _)
    cases v with
    | major a =>
      have htext := comparatorText_numbers [] [] (isNumeric_digits a) hhead (by simp)
        (numbersOf?_digits hread)
      simp only [marked, if_true, List.append_nil] at htext
      rw [Partial.text, htext]
      simp [Term.text, Partial.text, Term.bounding, Sign.text, Release.text, marked, comma,
        numbersText, digits_zero, hdigits, numberAfter_of_lt h]
    | minor a b =>
      have htext := comparatorText_numbers [] []
        (isNumeric_point (isNumeric_digits a) (isNumeric_digits b)) hhead (by simp)
        (numbersOf?_point hread.1 (numbersOf?_digits hread.2))
      simp only [marked, if_true, List.append_nil] at htext
      rw [Partial.text, htext]
      simp [Term.text, Partial.text, Term.bounding, Sign.text, Release.text, marked, comma,
        numbersText, digits_zero, hdigits, numberAfter_of_lt h.2]
    | full r prerelease build =>
      obtain ⟨hmajor, hminor, hpatch, hprerelease, -⟩ := hread
      have hcore : IsNumeric r.text := isNumeric_point (isNumeric_digits _)
        (isNumeric_point (isNumeric_digits _) (isNumeric_digits _))
      rw [Partial.text, comparatorText_numbers prerelease build hcore r.exists_text hprerelease
        (numbersOf?_point hmajor (numbersOf?_point hminor (numbersOf?_digits hpatch)))]
      simp [Term.text, Partial.text, Term.bounding, Sign.text, marked, numbersText]
    | anyMinor a mark =>
      have hfront : IsNumeric (digits a ++ ['.']) :=
        isNumeric_point (isNumeric_digits a) (by rintro c ⟨⟩)
      have htext : (Partial.anyMinor a mark).text = digits a ++ ['.'] ++ [mark] := by
        simp [Partial.text]
      rw [htext] at hhead ⊢
      rw [comparatorText_wild hfront hhead h.2, ← htext]
      simp [Term.bounding, Term.text]
    | anyPatch a b mark =>
      have hfront : IsNumeric (digits a ++ '.' :: (digits b ++ ['.'])) :=
        isNumeric_point (isNumeric_digits a)
          (isNumeric_point (isNumeric_digits b) (by rintro c ⟨⟩))
      have htext : (Partial.anyPatch a b mark).text
          = digits a ++ '.' :: (digits b ++ ['.']) ++ [mark] := by
        simp [Partial.text]
      rw [htext] at hhead ⊢
      rw [comparatorText_wild hfront hhead h.2.2, ← htext]
      simp [Term.bounding, Term.text]

end Range

end PluginHost.Version

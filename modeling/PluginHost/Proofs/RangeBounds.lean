import PluginHost.Proofs.RangeGrammar
import PluginHost.Version.Requirement

/-!
# Bounds as comparators

A term of a range stands for comparators of a requirement: a bare version with numbers left out for
two (`Term.bounding`), any other for one (`Term.comparator`).  On releases a comparator says what
its term does (`Term.admits_comparator`), and together the comparators of an alternative say what
the alternative does (`Alternative.admits_bounding`).
-/

namespace PluginHost.Version

/-! ### Comparators on releases -/

/-- A version is beyond a comparator on one side if it is so in the first number in which they
differ, or in the prerelease if they differ in no number. -/
theorem Comparator.isBeyond_iff {side : Ordering} (hside : side ≠ .eq) {c : Comparator}
    {v : Version} :
  c.isBeyond side v = true ↔ compare v.major c.major = side ∨ v.major = c.major
    ∧ ∃ minor ∈ c.minor, compare v.minor minor = side ∨ v.minor = minor
    ∧ ∃ patch ∈ c.patch, compare v.patch patch = side ∨ v.patch = patch
    ∧ Identifier.orderPrereleases v.prerelease c.prerelease = side
  := by
  rw [isBeyond]
  by_cases hmajor : v.major = c.major
  · rw [if_neg (not_not_intro hmajor), hmajor]
    cases c.minor with
    | none => simp [hside.symm]
    | some minor =>
      by_cases hminor : v.minor = minor
      · simp only [hminor, ne_eq, not_true_eq_false, if_false]
        cases c.patch with
        | none => simp [hside.symm]
        | some patch =>
          by_cases hpatch : v.patch = patch
          · simp [hpatch, hside.symm]
          · simp [hpatch, hside.symm]
      · simp [hminor, hside.symm]
  · simp [hmajor]

/-- A release is not before any prerelease of its numbers. -/
@[simp]
theorem Comparator.reachesPrerelease_version (c : Comparator) (r : Release) :
  c.reachesPrerelease r.version = true
  := by
  rw [reachesPrerelease, Release.prerelease_version]
  cases c.prerelease <;> rfl

/-- A release satisfies a tilde if it has the given numbers before the last, and reaches that. -/
theorem Comparator.matchesTilde_iff {c : Comparator} {r : Release} :
  c.matchesTilde r.version = true ↔ r.major = c.major ∧ (∀ minor ∈ c.minor, r.minor = minor)
    ∧ ∀ patch ∈ c.patch, patch ≤ r.patch
  := by
  rw [matchesTilde, reachesPrerelease_version, Release.major_version, Release.minor_version,
    Release.patch_version]
  cases c.minor with
  | none =>
    cases c.patch with
    | none => simp
    | some patch =>
      simp
      grind
  | some minor =>
    cases c.patch with
    | none => simp
    | some patch =>
      simp
      grind

/-- A release satisfies a caret if it reaches the given numbers, and agrees with them up to the
first one that is not zero. -/
theorem Comparator.matchesCaret_iff {c : Comparator} {r : Release} :
  c.matchesCaret r.version = true ↔ r.major = c.major ∧ ∀ minor ∈ c.minor,
    minor ≤ r.minor ∧ (0 < c.major ∨ r.minor = minor)
    ∧ ∀ patch ∈ c.patch, r.minor = minor →
      patch ≤ r.patch ∧ (0 < c.major ∨ 0 < minor ∨ r.patch = patch)
  := by
  rw [matchesCaret, reachesPrerelease_version, Release.major_version, Release.minor_version,
    Release.patch_version]
  cases c.minor with
  | none => simp
  | some minor =>
    cases c.patch with
    | none =>
      simp
      grind
    | some patch =>
      simp
      grind

namespace Partial

variable (operator : Operator) (v : Partial) (r : Release)

/-- The comparator that a version stands for behind an operator. -/
def comparator (operator : Operator) : Partial → Comparator
  | major a | anyMinor a _ => ⟨operator, a, none, none, []⟩
  | minor a b | anyPatch a b _ => ⟨operator, a, some b, none, []⟩
  | full r prerelease _ =>
    ⟨operator, r.major, some r.minor, some r.patch, prerelease.map identifierOf⟩

theorem matchesExactly_comparator :
  (v.comparator operator).matchesExactly r.version = true ↔ Sign.equal.Admits v r
  := by
  cases v with
  | full s prerelease build =>
    cases prerelease with
    | nil =>
      simp [comparator, Comparator.matchesExactly, Sign.Admits, Release.Before, first, next]
      omega
    | cons segment others =>
      simp [comparator, Comparator.matchesExactly, Sign.Admits, first, next]
  | _ =>
    simp [comparator, Comparator.matchesExactly, Sign.Admits, Release.Before, first, next]
    omega

theorem isBeyond_gt_comparator :
  (v.comparator operator).isBeyond .gt r.version = true ↔ Sign.greater.Admits v r
  := by
  rw [Comparator.isBeyond_iff (by decide)]
  cases v with
  | full s prerelease build =>
    cases prerelease with
    | nil =>
      simp [comparator, Sign.Admits, Release.Before, next, Nat.compare_eq_gt,
        Identifier.orderPrereleases]
      omega
    | cons segment others =>
      simp [comparator, Sign.Admits, Release.Before, next, Nat.compare_eq_gt,
        Identifier.orderPrereleases]
      omega
  | _ =>
    simp only [comparator, Sign.Admits, Release.Before, next, Nat.compare_eq_gt,
      Release.major_version, Release.minor_version, Option.mem_def, Option.some.injEq, reduceCtorEq,
      false_and, and_false, or_false, exists_const, exists_eq_left']
    omega

theorem isBeyond_lt_comparator :
  (v.comparator operator).isBeyond .lt r.version = true ↔ Sign.less.Admits v r
  := by
  rw [Comparator.isBeyond_iff (by decide)]
  cases v with
  | full s prerelease build =>
    cases prerelease <;>
      simp [comparator, Sign.Admits, Release.Before, first, Nat.compare_eq_lt,
        Identifier.orderPrereleases]
  | _ =>
    simp [comparator, Sign.Admits, Release.Before, first, Nat.compare_eq_lt]

theorem matchesTilde_comparator :
  (v.comparator operator).matchesTilde r.version = true ↔ Sign.tilde.Admits v r
  := by
  rw [Comparator.matchesTilde_iff]
  cases v <;>
  · simp [comparator, Sign.Admits, Release.Before, first, tildeEnd]
    omega

theorem matchesCaret_comparator :
  (v.comparator operator).matchesCaret r.version = true ↔ Sign.caret.Admits v r
  := by
  rw [Comparator.matchesCaret_iff, Sign.Admits]
  cases v with
  | major a | anyMinor a mark =>
    simp [comparator, Release.Before, first, caretEnd]
    omega
  | minor a b | anyPatch a b mark =>
    rw [caretEnd]
    split
    · simp [comparator, Release.Before, first]
      omega
    · simp [comparator, Release.Before, first]
      omega
  | full s prerelease build =>
    rw [caretEnd]
    split
    · simp [comparator, Release.Before, first]
      omega
    · split
      · simp [comparator, Release.Before, first]
        omega
      · simp [comparator, Release.Before, first]
        omega

end Partial

/-! ### Signs and operators -/

/-- The operator that a sign is read as. -/
def Sign.operator : Sign → Operator
  | equal => .exact
  | greater => .greater
  | atLeast => .greaterOrEqual
  | less => .less
  | atMost => .lessOrEqual
  | tilde => .tilde
  | caret => .caret

namespace Partial

/-- What is before the first release is before the one behind the last. -/
theorem before_next {v : Partial} {r : Release} (h : r.Before v.first) :
  r.Before v.next
  := by
  cases v with
  | full s prerelease build =>
    cases prerelease with
    | nil =>
      simp only [Release.Before, first, next] at h ⊢
      omega
    | cons segment others => apply h
  | _ =>
    simp only [Release.Before, first, next] at h ⊢
    omega

end Partial

/-- On releases a comparator says what the sign does that it comes from. -/
theorem Sign.admits_comparator (sign : Sign) (v : Partial) (r : Release) :
  (v.comparator sign.operator).admits r.version = true ↔ sign.Admits v r
  := by
  have hoperator : (v.comparator sign.operator).operator = sign.operator := by
    cases v <;> rfl
  have hnext : r.Before v.first → r.Before v.next := Partial.before_next
  rw [Comparator.admits, hoperator]
  cases sign with
  | equal => apply v.matchesExactly_comparator
  | greater => apply v.isBeyond_gt_comparator
  | less => apply v.isBeyond_lt_comparator
  | tilde => apply v.matchesTilde_comparator
  | caret => apply v.matchesCaret_comparator
  | atLeast =>
    rw [operator, Bool.or_eq_true, v.matchesExactly_comparator, v.isBeyond_gt_comparator]
    simp only [Admits]
    by_cases hfirst : r.Before v.first
    · simp [hfirst, hnext]
    · simpa [hfirst] using Decidable.em (r.Before v.next)
  | atMost =>
    rw [operator, Bool.or_eq_true, v.matchesExactly_comparator, v.isBeyond_lt_comparator]
    simp only [Admits]
    by_cases hfirst : r.Before v.first
    · simp [hfirst, hnext]
    · simp [hfirst]

/-! ### Terms and comparators -/

namespace Term

/-- The operator that a term is read with.  Without a sign this is a caret, except where there is a
wildcard. -/
def operator : Term → Operator
  | ⟨some sign, _⟩ => sign.operator
  | ⟨none, .anyMinor _ _⟩ => .wildcard
  | ⟨none, .anyPatch _ _ _⟩ => .wildcard
  | ⟨none, _⟩ => .caret

/-- The comparator that a term is read as. -/
def comparator (t : Term) : Comparator := t.version.comparator t.operator

/-- The terms with signs that a term without a sign stands for, if it has no wildcard. -/
def bounding : Term → List Term
  | ⟨none, .major a⟩ =>
    [⟨some .atLeast, .full ⟨a, 0, 0⟩ [] []⟩, ⟨some .less, .full ⟨a + 1, 0, 0⟩ [] []⟩]
  | ⟨none, .minor a b⟩ =>
    [⟨some .atLeast, .full ⟨a, b, 0⟩ [] []⟩, ⟨some .less, .full ⟨a, b + 1, 0⟩ [] []⟩]
  | ⟨none, .full r prerelease _⟩ => [⟨some .equal, .full r prerelease []⟩]
  | t => [t]

theorem length_bounding (t : Term) :
  t.bounding.length = t.bounds
  := by
  unfold bounding bounds
  grind

theorem length_flatMap_bounding (terms : List Term) :
  (terms.flatMap bounding).length = boundsOf terms
  := by
  induction terms with
  | nil => rfl
  | cons t terms ih => rw [List.flatMap_cons, List.length_append, length_bounding, ih, boundsOf]

/-- On releases the comparator of a term with a sign says what the sign does. -/
theorem admits_comparator (sign : Sign) (v : Partial) (r : Release) :
  (comparator ⟨some sign, v⟩).admits r.version = true ↔ sign.Admits v r
  := sign.admits_comparator v r

/-- A release satisfies a term if it satisfies the comparators that the term stands for. -/
theorem admits_bounding (t : Term) (r : Release) :
  (∀ b ∈ t.bounding, b.comparator.admits r.version = true) ↔ t.Admits r
  := by
  obtain ⟨sign, v⟩ := t
  cases sign with
  | some sign =>
    simp only [bounding, List.forall_mem_singleton, admits_comparator]
    rfl
  | none =>
    cases v with
    | major a | minor a b =>
      rw [bounding, List.forall_mem_cons, List.forall_mem_singleton, admits_comparator,
        admits_comparator]
      rfl
    | full s prerelease build =>
      simp only [bounding, List.forall_mem_singleton, admits_comparator]
      cases prerelease <;> rfl
    | anyMinor a mark | anyPatch a b mark =>
      simp only [bounding, List.forall_mem_singleton]
      apply Partial.matchesExactly_comparator

/-- A term stands for at least one. -/
theorem bounding_ne_nil (t : Term) :
  t.bounding ≠ []
  := by
  unfold bounding
  split <;> apply List.cons_ne_nil

/-- The numbers of the terms that a term stands for are at most one greater than its own. -/
theorem proper_bounding {t : Term} (h : t.version.Proper (numberEnd - 1)) :
  ∀ b ∈ t.bounding, b.version.Proper numberEnd
  := by
  have hmono : t.version.Proper numberEnd := h.mono (Nat.sub_le _ _)
  have hzero : 0 < numberEnd := by decide
  obtain ⟨sign, v⟩ := t
  cases sign with
  | some sign => simpa [bounding] using hmono
  | none =>
    cases v with
    | major a =>
      have hnext : a + 1 < numberEnd := Nat.add_lt_of_lt_sub h
      simpa [bounding, Partial.Proper, hzero, hnext] using hmono
    | minor a b =>
      have hnext : b + 1 < numberEnd := Nat.add_lt_of_lt_sub h.2
      simpa [bounding, Partial.Proper, hzero, hnext] using ⟨hmono, hmono.1⟩
    | full r prerelease build =>
      obtain ⟨hmajor, hminor, hpatch, hprerelease, -⟩ := hmono
      simpa [bounding, Partial.Proper] using ⟨hmajor, hminor, hpatch, hprerelease⟩
    | anyMinor a mark | anyPatch a b mark => simpa [bounding] using hmono

end Term

/-! ### Alternatives -/

namespace Alternative

/-- The terms that an alternative stands for. -/
def bounding : Alternative → List Term
  | any => []
  | between low high => [⟨some .atLeast, low⟩, ⟨some .atMost, high⟩]
  | all terms => terms.flatMap Term.bounding

/-- A release satisfies an alternative if it satisfies the comparators that the alternative stands
for. -/
theorem admits_bounding (a : Alternative) (r : Release) :
  (∀ b ∈ a.bounding, b.comparator.admits r.version = true) ↔ a.Admits r
  := by
  cases a with
  | any => simp [bounding, Admits]
  | between low high =>
    rw [bounding, List.forall_mem_cons, List.forall_mem_singleton, Term.admits_comparator,
      Term.admits_comparator]
    rfl
  | all terms =>
    simp only [bounding, Admits, ← Term.admits_bounding, List.mem_flatMap]
    grind

/-- An alternative stands for at most 32 terms, with numbers that can be read. -/
theorem proper_bounding {a : Alternative} (h : a.Proper) :
  (∀ b ∈ a.bounding, b.version.Proper numberEnd) ∧ a.bounding.length ≤ 32
  := by
  cases a with
  | any => simp [bounding]
  | between low high =>
    have hlow : low.Proper numberEnd := h.1.mono (Nat.sub_le _ _)
    have hhigh : high.Proper numberEnd := h.2.mono (Nat.sub_le _ _)
    simpa [bounding] using ⟨hlow, hhigh⟩
  | all terms =>
    constructor
    · intro b hb
      obtain ⟨t, ht, hb⟩ := List.mem_flatMap.1 hb
      apply Term.proper_bounding (h.1 t ht) b hb
    · rw [bounding, Term.length_flatMap_bounding]
      apply h.2

end Alternative

end PluginHost.Version

import Mathlib.Data.List.Forall2
import PluginHost.Proofs.VersionText

/-!
# The grammar and the meaning of ranges

A range consists of alternatives, and an alternative of terms that all have to hold.  A term sets a
bound by a `Partial` version, of which numbers may be left out from the right or be wildcards:
`Partial.first` is the first release that it stands for, and `Partial.next` the first one behind
all of these.  What a term admits is an interval of releases between such bounds
(`Sign.Admits`).  `Range.Spells` says which texts spell a range.
-/

namespace PluginHost.Version

open Text (digits Blank)

/-! ### Releases in order -/

/-- Whether a release comes before another one: their numbers are compared from the left. -/
def Release.Before (r s : Release) : Prop :=
  r.major < s.major ∨ r.major = s.major
    ∧ (r.minor < s.minor ∨ r.minor = s.minor ∧ r.patch < s.patch)

instance (r s : Release) : Decidable (r.Before s) := inferInstanceAs (Decidable (_ ∨ _))

/-! ### Partial versions -/

/-- A version in a range: with one number, with two or in full, or with a wildcard in the place of
the second number or the third. -/
inductive Partial where
  | major (major : Nat)
  | minor (major minor : Nat)
  | full (release : Release) (prerelease build : List (List Char))
  | anyMinor (major : Nat) (mark : Char)
  | anyPatch (major minor : Nat) (mark : Char)

namespace Partial

/-- The text of a version in a range. -/
def text : Partial → List Char
  | major a => digits a
  | minor a b => digits a ++ '.' :: digits b
  | full r prerelease build => r.text ++ (marked '-' prerelease ++ marked '+' build)
  | anyMinor a mark => digits a ++ ['.', mark]
  | anyPatch a b mark => digits a ++ '.' :: (digits b ++ ['.', mark])

/-- Whether a character is a wildcard. -/
def IsWild (mark : Char) : Prop := mark = 'x' ∨ mark = 'X' ∨ mark = '*'

/-- Whether the parts of a version in a range are in order, and its numbers below a limit. -/
def Proper (limit : Nat) : Partial → Prop
  | major a => a < limit
  | minor a b => a < limit ∧ b < limit
  | full r prerelease build => r.major < limit ∧ r.minor < limit ∧ r.patch < limit
    ∧ (∀ s ∈ prerelease, IsSegment .prerelease s) ∧ ∀ s ∈ build, IsSegment .build s
  | anyMinor a mark => a < limit ∧ IsWild mark
  | anyPatch a b mark => a < limit ∧ b < limit ∧ IsWild mark

/-- What is in order with numbers below a limit is so with a greater one. -/
theorem Proper.mono {limit greater : Nat} {v : Partial} (h : v.Proper limit)
    (hle : limit ≤ greater) :
  v.Proper greater
  := by
  have hlt : ∀ {n}, n < limit → n < greater := fun hn => Nat.lt_of_lt_of_le hn hle
  cases v with
  | major a => apply hlt h
  | minor a b => exact ⟨hlt h.1, hlt h.2⟩
  | full r prerelease build =>
    obtain ⟨hmajor, hminor, hpatch, hsegments⟩ := h
    exact ⟨hlt hmajor, hlt hminor, hlt hpatch, hsegments⟩
  | anyMinor a mark => exact ⟨hlt h.1, h.2⟩
  | anyPatch a b mark => exact ⟨hlt h.1, hlt h.2.1, h.2.2⟩

/-- The first release that a version in a range stands for, or that is behind its prerelease. -/
def first : Partial → Release
  | major a | anyMinor a _ => ⟨a, 0, 0⟩
  | minor a b | anyPatch a b _ => ⟨a, b, 0⟩
  | full r _ _ => r

/-- The first release behind all those that a version in a range stands for.  One with a prerelease
stands for none. -/
def next : Partial → Release
  | major a | anyMinor a _ => ⟨a + 1, 0, 0⟩
  | minor a b | anyPatch a b _ => ⟨a, b + 1, 0⟩
  | full r [] _ => ⟨r.major, r.minor, r.patch + 1⟩
  | full r (_ :: _) _ => r

/-- The first release with another major number, or with another minor number if that is given. -/
def tildeEnd : Partial → Release
  | major a | anyMinor a _ => ⟨a + 1, 0, 0⟩
  | minor a b | anyPatch a b _ => ⟨a, b + 1, 0⟩
  | full r _ _ => ⟨r.major, r.minor + 1, 0⟩

/-- The first release that differs in the first number that is not zero, or in the last number that
is given if all of them are zero. -/
def caretEnd : Partial → Release
  | major a | anyMinor a _ => ⟨a + 1, 0, 0⟩
  | minor a b | anyPatch a b _ => if 0 < a then ⟨a + 1, 0, 0⟩ else ⟨a, b + 1, 0⟩
  | full r _ _ =>
    if 0 < r.major then ⟨r.major + 1, 0, 0⟩
    else if 0 < r.minor then ⟨r.major, r.minor + 1, 0⟩
    else ⟨r.major, r.minor, r.patch + 1⟩

end Partial

/-! ### Terms -/

/-- The signs in front of versions in a range. -/
inductive Sign where
  | equal
  | greater
  | atLeast
  | less
  | atMost
  | tilde
  | caret
  deriving DecidableEq

namespace Sign

/-- The text of a sign. -/
def text : Sign → List Char
  | equal => ['=']
  | greater => ['>']
  | atLeast => ['>', '=']
  | less => ['<']
  | atMost => ['<', '=']
  | tilde => ['~']
  | caret => ['^']

/-- Whether a release is in the interval that a sign makes of a version. -/
def Admits (sign : Sign) (v : Partial) (r : Release) : Prop :=
  match sign with
  | equal => ¬r.Before v.first ∧ r.Before v.next
  | greater => ¬r.Before v.next
  | atLeast => ¬r.Before v.first
  | less => r.Before v.first
  | atMost => r.Before v.next
  | tilde => ¬r.Before v.first ∧ r.Before v.tildeEnd
  | caret => ¬r.Before v.first ∧ r.Before v.caretEnd

instance (sign : Sign) (v : Partial) (r : Release) : Decidable (sign.Admits v r) :=
  match sign with
  | equal => inferInstanceAs (Decidable (¬r.Before v.first ∧ r.Before v.next))
  | greater => inferInstanceAs (Decidable ¬r.Before v.next)
  | atLeast => inferInstanceAs (Decidable ¬r.Before v.first)
  | less => inferInstanceAs (Decidable (r.Before v.first))
  | atMost => inferInstanceAs (Decidable (r.Before v.next))
  | tilde => inferInstanceAs (Decidable (¬r.Before v.first ∧ r.Before v.tildeEnd))
  | caret => inferInstanceAs (Decidable (¬r.Before v.first ∧ r.Before v.caretEnd))

end Sign

/-- A version in a range, perhaps with a sign in front. -/
structure Term where
  sign : Option Sign
  version : Partial

namespace Term

/-- Whether a release satisfies a term.  Without a sign the version has to be the same. -/
def Admits (t : Term) (r : Release) : Prop := (t.sign.getD .equal).Admits t.version r

instance (t : Term) (r : Release) : Decidable (t.Admits r) :=
  inferInstanceAs (Decidable (Sign.Admits _ _ _))

/-- The texts that spell a term: there may be blanks behind a sign. -/
inductive Spells : List Char → Term → Prop
  | bare (version : Partial) : Spells version.text ⟨none, version⟩
  | signed (sign : Sign) {blanks : List Char} (h : Blank blanks) (version : Partial) :
    Spells (sign.text ++ blanks ++ version.text) ⟨some sign, version⟩

/-- The number of bounds that a term stands for: two if it has no sign and leaves numbers out. -/
def bounds : Term → Nat
  | ⟨none, .major _⟩ => 2
  | ⟨none, .minor _ _⟩ => 2
  | _ => 1

/-- The number of bounds that several terms stand for. -/
def boundsOf : List Term → Nat
  | [] => 0
  | t :: terms => t.bounds + boundsOf terms

end Term

/-! ### Alternatives -/

/-- An alternative in a range: it admits every release, or those between two versions with both of
them, or those that satisfy all of its terms. -/
inductive Alternative where
  | any
  | between (low high : Partial)
  | all (terms : List Term)

namespace Alternative

/-- Whether a release satisfies an alternative. -/
def Admits (a : Alternative) (r : Release) : Prop :=
  match a with
  | any => True
  | between low high => Sign.atLeast.Admits low r ∧ Sign.atMost.Admits high r
  | all terms => ∀ t ∈ terms, t.Admits r

instance (a : Alternative) (r : Release) : Decidable (a.Admits r) :=
  match a with
  | any => inferInstanceAs (Decidable True)
  | between low high =>
    inferInstanceAs (Decidable (Sign.atLeast.Admits low r ∧ Sign.atMost.Admits high r))
  | all terms => inferInstanceAs (Decidable (∀ t ∈ terms, t.Admits r))

/-- Whether the versions of an alternative are in order, with numbers below the greatest one that a
version may have, and it stands for at most 32 bounds. -/
def Proper : Alternative → Prop
  | any => True
  | between low high => low.Proper (numberEnd - 1) ∧ high.Proper (numberEnd - 1)
  | all terms =>
    (∀ t ∈ terms, t.version.Proper (numberEnd - 1)) ∧ Term.boundsOf terms ≤ 32

/-- The texts that spell some terms, which are separated by blanks. -/
inductive SpellsTerms : List Char → List Term → Prop
  | one {text : List Char} {t : Term} (h : t.Spells text) : SpellsTerms text [t]
  | cons {text blanks rest : List Char} {t : Term} {terms : List Term} (h : t.Spells text)
    (hblanks : Blank blanks) (hne : blanks ≠ []) (hrest : SpellsTerms rest terms) :
    SpellsTerms (text ++ blanks ++ rest) (t :: terms)

/-- The texts that spell an alternative without the blanks around them. -/
inductive SpellsCore : List Char → Alternative → Prop
  | nothing : SpellsCore [] any
  | wildcard {mark : Char} (h : Partial.IsWild mark) : SpellsCore [mark] any
  | between (low high : Partial) {before after : List Char} (hbefore : Blank before)
    (hafter : Blank after) :
    SpellsCore (low.text ++ before ++ [' ', '-', ' '] ++ after ++ high.text) (between low high)
  | all {text : List Char} {terms : List Term} (h : SpellsTerms text terms) :
    SpellsCore text (all terms)

/-- The texts that spell an alternative. -/
inductive Spells : List Char → Alternative → Prop
  | intro {before core after : List Char} {a : Alternative} (hbefore : Blank before)
    (hcore : SpellsCore core a) (hafter : Blank after) : Spells (before ++ core ++ after) a

end Alternative

namespace Range

/-- Whether a text spells a range: it has the texts of the alternatives with double bars between
them. -/
def Spells (range : String) (alternatives : List Alternative) : Prop :=
  alternatives ≠ [] ∧ ∃ texts, range.toList = ['|', '|'].intercalate texts
    ∧ List.Forall₂ Alternative.Spells texts alternatives

end Range

end PluginHost.Version

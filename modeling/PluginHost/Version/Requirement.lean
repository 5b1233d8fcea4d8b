import PluginHost.Version.Reader

/-!
# Requirements on versions

A comparator sets a bound on versions whose numbers may be left out from the right, and a
requirement asks for all of its comparators.  A prerelease satisfies a requirement only if
moreover some comparator has a prerelease of the same three numbers.  The requirement without
comparators is written as a wildcard and admits every release.
-/

namespace PluginHost.Version

/-- The kinds of bounds. -/
inductive Operator where
  | exact
  | greater
  | greaterOrEqual
  | less
  | lessOrEqual
  | tilde
  | caret
  | wildcard
  deriving DecidableEq, Repr

/-- A bound on versions. -/
structure Comparator where
  operator : Operator
  major : Nat
  minor : Option Nat
  patch : Option Nat
  prerelease : List Identifier
  deriving DecidableEq, Repr

namespace Comparator

/-- The version has the numbers and the prerelease of the comparator. -/
def matchesExactly (c : Comparator) (v : Version) : Bool :=
  v.major == c.major && c.minor.all (v.minor == ·) && c.patch.all (v.patch == ·)
    && v.prerelease == c.prerelease

/-- The version comes after, or before, every version with the numbers of the comparator, as
the given order of the two sides says. -/
def isBeyond (side : Ordering) (c : Comparator) (v : Version) : Bool :=
  if v.major ≠ c.major then compare v.major c.major == side
  else match c.minor with
    | none => false
    | some minor =>
      if v.minor ≠ minor then compare v.minor minor == side
      else match c.patch with
        | none => false
        | some patch =>
          if v.patch ≠ patch then compare v.patch patch == side
          else Identifier.orderPrereleases v.prerelease c.prerelease == side

/-- The prerelease of the version is not before that of the comparator. -/
def reachesPrerelease (c : Comparator) (v : Version) : Bool :=
  Identifier.orderPrereleases v.prerelease c.prerelease != .lt

/-- The version has the major and minor number of the comparator and is not before it. -/
def matchesTilde (c : Comparator) (v : Version) : Bool :=
  if v.major ≠ c.major then false
  else if c.minor.any (v.minor != ·) then false
  else match c.patch with
    | some patch =>
      if v.patch ≠ patch then patch < v.patch else c.reachesPrerelease v
    | none => c.reachesPrerelease v

/-- The version is not before the comparator and agrees with it up to its first number that is
not zero. -/
def matchesCaret (c : Comparator) (v : Version) : Bool :=
  if v.major ≠ c.major then false
  else match c.minor, c.patch with
    | none, _ => true
    | some minor, none => if 0 < c.major then minor ≤ v.minor else v.minor == minor
    | some minor, some patch =>
      if 0 < c.major then
        if v.minor ≠ minor then minor < v.minor
        else if v.patch ≠ patch then patch < v.patch
        else c.reachesPrerelease v
      else if 0 < minor then
        if v.minor ≠ minor then false
        else if v.patch ≠ patch then patch < v.patch
        else c.reachesPrerelease v
      else if v.minor ≠ minor ∨ v.patch ≠ patch then false
      else c.reachesPrerelease v

/-- Whether a version keeps the bound. -/
def admits (c : Comparator) (v : Version) : Bool :=
  match c.operator with
  | .exact | .wildcard => c.matchesExactly v
  | .greater => c.isBeyond .gt v
  | .greaterOrEqual => c.matchesExactly v || c.isBeyond .gt v
  | .less => c.isBeyond .lt v
  | .lessOrEqual => c.matchesExactly v || c.isBeyond .lt v
  | .tilde => c.matchesTilde v
  | .caret => c.matchesCaret v

/-- Whether the comparator speaks of prereleases of the version's own numbers. -/
def opensPrereleases (c : Comparator) (v : Version) : Bool :=
  c.major == v.major && c.minor == some v.minor && c.patch == some v.patch
    && !c.prerelease.isEmpty

end Comparator

/-- The comparators that a version has to keep. -/
structure Requirement where
  comparators : List Comparator
  deriving DecidableEq, Repr

namespace Requirement

/-- The requirement that every release satisfies. -/
def any : Requirement := ⟨[]⟩

/-- Whether a version satisfies the requirement. -/
def admits (r : Requirement) (v : Version) : Bool :=
  r.comparators.all (·.admits v)
    && (v.prerelease.isEmpty || r.comparators.any (·.opensPrereleases v))

/-! ### Reading -/

/-- The text without spaces at its front. -/
def skipSpaces (cs : List Char) : List Char := cs.dropWhile (· == ' ')

/-- A wildcard at the front of a text, and the rest. -/
def readWildcard : List Char → Option (Char × List Char)
  | c :: rest => if c = '*' ∨ c = 'x' ∨ c = 'X' then some (c, rest) else none
  | [] => none

/-- The operator at the front of a text, if one is written, and the rest. -/
def readOperator : List Char → Option Operator × List Char
  | '=' :: rest => (some .exact, rest)
  | '>' :: '=' :: rest => (some .greaterOrEqual, rest)
  | '>' :: rest => (some .greater, rest)
  | '<' :: '=' :: rest => (some .lessOrEqual, rest)
  | '<' :: rest => (some .less, rest)
  | '~' :: rest => (some .tilde, rest)
  | '^' :: rest => (some .caret, rest)
  | cs => (none, cs)

/-- A minor or patch number after its point: left out, a wildcard, or a number. -/
inductive Place where
  | missing
  | wild
  | number (n : Nat)
  deriving DecidableEq, Repr

/-- The number at a place. -/
def Place.number? : Place → Option Nat
  | number n => some n
  | _ => none

/-- A minor or patch number after its point, and the rest; after a wildcard only another
wildcard may follow. -/
def readPlace (part : Part) (afterWild : Bool) : List Char →
    Except ReadError (Place × List Char)
  | '.' :: cs =>
    match readWildcard cs with
    | some (_, rest) => .ok (.wild, rest)
    | none =>
      if afterWild then .error .afterWildcard
      else do
        let (n, rest) ← readNumber part cs
        return (.number n, rest)
  | cs => .ok (.missing, cs)

/-- A comparator at the front of a text, the last part that it has, and the rest.  A wildcard
after a number without an operator makes the bound exact in what is left. -/
def readComparator (cs : List Char) : Except ReadError (Comparator × Part × List Char) := do
  let (operator, cs) := readOperator cs
  let (major, cs) ← readNumber .major (skipSpaces cs)
  let (minor, cs) ← readPlace .minor false cs
  let (patch, cs) ← readPlace .patch (minor == .wild) cs
  let full := patch.number?.isSome
  let (prerelease, cs) ← if full then readMarked '-' .prerelease cs else pure ([], cs)
  let (build, cs) ← if full then readMarked '+' .build cs else pure ([], cs)
  let wild := minor == .wild || patch == .wild
  let last :=
    if full then lastPart prerelease build
    else if patch ≠ .missing then .patch
    else if minor ≠ .missing then .minor
    else .major
  let operator := operator.getD (if wild then .wildcard else .caret)
  return (⟨operator, major, minor.number?, patch.number?, prerelease⟩, last, skipSpaces cs)

/-- The reason for which a list of comparators is refused, where a wildcard stands as one. -/
def wildcardReason (cs : List Char) (e : ReadError) : ReadError :=
  match readWildcard cs with
  | some (c, rest) =>
    match skipSpaces rest with
    | [] | ',' :: _ => .wildcardNotAlone c
    | _ => e
  | none => e

/-- At most the given number of comparators, with commas between them. -/
def readComparators : Nat → List Char → Except ReadError (List Comparator)
  | 0, _ => .error .tooManyComparators
  | n + 1, cs =>
    match readComparator cs with
    | .error e => .error (wildcardReason cs e)
    | .ok (comparator, _, []) => .ok [comparator]
    | .ok (comparator, _, ',' :: rest) => do
      return comparator :: (← readComparators n (skipSpaces rest))
    | .ok (_, part, c :: _) => .error (.noCommaAfter part c)

/-- The greatest number of comparators in a requirement. -/
def maxComparators : Nat := 32

/-- The requirement that a text spells. -/
def read (cs : List Char) : Except ReadError Requirement :=
  let cs := skipSpaces cs
  match readWildcard cs with
  | some (c, rest) =>
    match skipSpaces rest with
    | [] => .ok any
    | ',' :: _ => .error (.wildcardNotAlone c)
    | _ => .error .afterWildcard
  | none => do return ⟨← readComparators maxComparators cs⟩

end Requirement

end PluginHost.Version

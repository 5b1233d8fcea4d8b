import PluginHost.Text.Digits
import PluginHost.Text.Quoted
import PluginHost.Version

/-!
# Reading versions

A version is written with three numbers between points, a prerelease after a hyphen and build
metadata after a plus sign, the last two of identifiers between points.  Numbers have no
leading zeros and stay below two to the power of 64.  A text that is no version is refused for
the first reason met from the left, and `ReadError` lists the reasons, those for requirements
among them.
-/

namespace PluginHost.Version

/-- The parts of a version. -/
inductive Part where
  | major
  | minor
  | patch
  | prerelease
  | build
  deriving DecidableEq, Repr

/-- The name of a part in a diagnostic. -/
def Part.label : Part → String
  | major => "major version number"
  | minor => "minor version number"
  | patch => "patch version number"
  | prerelease => "pre-release identifier"
  | build => "build metadata"

/-- The reasons for which a text is no version and no requirement. -/
inductive ReadError where
  | empty
  | endsIn (part : Part)
  | unexpectedIn (part : Part) (c : Char)
  | unexpectedAfter (part : Part) (c : Char)
  | noCommaAfter (part : Part) (c : Char)
  | leadingZero (part : Part)
  | tooLarge (part : Part)
  | emptySegment (part : Part)
  | wildcardNotAlone (c : Char)
  | afterWildcard
  | tooManyComparators
  deriving DecidableEq, Repr

/-- The wording of a reason. -/
def ReadError.message : ReadError → String
  | empty => "empty string, expected a semver version"
  | endsIn part => "unexpected end of input while parsing " ++ part.label
  | unexpectedIn part c =>
    "unexpected character " ++ Text.quoted c ++ " while parsing " ++ part.label
  | unexpectedAfter part c => "unexpected character " ++ Text.quoted c ++ " after " ++ part.label
  | noCommaAfter part c => "expected comma after " ++ part.label ++ ", found " ++ Text.quoted c
  | leadingZero part => "invalid leading zero in " ++ part.label
  | tooLarge part => "value of " ++ part.label ++ " exceeds u64::MAX"
  | emptySegment part => "empty identifier segment in " ++ part.label
  | wildcardNotAlone c =>
    "wildcard req (" ++ String.singleton c ++ ") must be the only comparator in the version req"
  | afterWildcard => "unexpected character after wildcard in version req"
  | tooManyComparators => "excessive number of version comparators"

/-- The bound below which the numbers of a version stay. -/
def numberEnd : Nat := Nat.pow 2 64

/-- The number that continues one read so far, if any digit has been read, and the rest. -/
def continueNumber (part : Part) : Option Nat → List Char → Except ReadError (Nat × List Char)
  | none, [] => .error (.endsIn part)
  | some n, [] => .ok (n, [])
  | seen, c :: cs =>
    match Text.digitValue? 10 c, seen with
    | none, none => .error (.unexpectedIn part c)
    | none, some n => .ok (n, c :: cs)
    | some d, none => continueNumber part (some d) cs
    | some d, some n =>
      if n = 0 then .error (.leadingZero part)
      else if n * 10 + d < numberEnd then continueNumber part (some (n * 10 + d)) cs
      else .error (.tooLarge part)

/-- A number at the front of a text, and the rest. -/
def readNumber (part : Part) (cs : List Char) : Except ReadError (Nat × List Char) :=
  continueNumber part none cs

/-- The rest of a text after the point that follows a part. -/
def readPoint (part : Part) : List Char → Except ReadError (List Char)
  | '.' :: rest => .ok rest
  | c :: _ => .error (.unexpectedAfter part c)
  | [] => .error (.endsIn part)

/-- Whether a character may stand in an identifier. -/
def isIdentifierChar (c : Char) : Bool :=
  ('a' ≤ c && c ≤ 'z') || ('A' ≤ c && c ≤ 'Z') || Text.isDigit c || c == '-'

/-- The identifier that a segment spells. -/
def identifierOf (segment : List Char) : Identifier :=
  match Text.numberIn? 10 segment with
  | some n => .number n
  | none => .word segment

theorem length_afterSegment_lt {cs more : List Char}
    (h : cs.dropWhile isIdentifierChar = '.' :: more) :
  more.length < cs.length
  := by
  have := (List.dropWhile_suffix (l := cs) isIdentifierChar).length_le
  rw [h, List.length_cons] at this
  omega

/-- The identifiers at the front of a text, and the rest.  Only the first segment may be
missing, and then there is none at all; a prerelease has no number with a leading zero. -/
def readSegments (part : Part) (first : Bool) (cs : List Char) :
    Except ReadError (List Identifier × List Char) :=
  let segment := cs.takeWhile isIdentifierChar
  if segment.isEmpty then
    if first && cs.head? != some '.' then .ok ([], cs) else .error (.emptySegment part)
  else if part = .prerelease ∧ segment.all Text.isDigit ∧ 1 < segment.length
      ∧ segment.head? = some '0' then .error (.leadingZero part)
  else match _h : cs.dropWhile isIdentifierChar with
    | '.' :: more => do
      let (identifiers, rest) ← readSegments part false more
      return (identifierOf segment :: identifiers, rest)
    | rest => .ok ([identifierOf segment], rest)
termination_by cs.length
decreasing_by exact length_afterSegment_lt _h

/-- At least one identifier after a mark, or none where the mark is missing; and the rest. -/
def readMarked (mark : Char) (part : Part) : List Char →
    Except ReadError (List Identifier × List Char)
  | [] => .ok ([], [])
  | c :: cs =>
    if c = mark then do
      let (identifiers, rest) ← readSegments part true cs
      if identifiers.isEmpty then .error (.emptySegment part) else .ok (identifiers, rest)
    else .ok ([], c :: cs)

/-- The last part of a version that a text with these parts has. -/
def lastPart (prerelease build : List Identifier) : Part :=
  if !build.isEmpty then .build else if !prerelease.isEmpty then .prerelease else .patch

/-- The version that a text spells. -/
def read (cs : List Char) : Except ReadError Version := do
  if cs.isEmpty then throw .empty
  let (major, cs) ← readNumber .major cs
  let cs ← readPoint .major cs
  let (minor, cs) ← readNumber .minor cs
  let cs ← readPoint .minor cs
  let (patch, cs) ← readNumber .patch cs
  let (prerelease, cs) ← readMarked '-' .prerelease cs
  let (build, cs) ← readMarked '+' .build cs
  match cs with
  | [] => return ⟨major, minor, patch, prerelease⟩
  | c :: _ => throw (.unexpectedAfter (lastPart prerelease build) c)

end PluginHost.Version

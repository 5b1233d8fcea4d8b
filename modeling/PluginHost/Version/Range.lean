import PluginHost.Text.Blank
import PluginHost.Text.Split
import PluginHost.Version.Requirement

/-!
# Ranges of versions

A peer dependency declares a range: alternatives between double bars, each of which is a pair
of bounds around a hyphen or a list of comparators between blanks.  `satisfies` tries the
alternatives from the left.  Each is brought into the notation of a requirement first: an
operator that stands alone belongs to the text after it, a full version without an operator
means itself, and one with numbers left out means all versions that begin with its numbers.
-/

namespace PluginHost.Version

/-- The reasons for which a range cannot be compared with a version. -/
inductive RangeError where
  | version (text : String) (reason : ReadError)
  | range (text : String) (reason : ReadError)
  deriving DecidableEq, Repr

/-- The wording of a reason. -/
def RangeError.message : RangeError → String
  | version text reason => "invalid version '" ++ text ++ "': " ++ reason.message
  | range text reason => "invalid range '" ++ text ++ "': " ++ reason.message

namespace Range

/-- The numbers of a text of digits and points, if each is small enough. -/
def numbersOf? (cs : List Char) : Option (List Nat) :=
  (Text.splitOn '.' cs).mapM fun piece => (Text.numberIn? 10 piece).filter (· < numberEnd)

/-- The number after a number of 64 bits, with zero after the greatest. -/
def numberAfter (n : Nat) : Nat := (n + 1) % numberEnd

/-- A comparator in the notation of requirements.  Without an operator, three numbers mean
exactly that version, and fewer mean all versions that begin with them; build metadata is left
out. -/
def comparatorText (cs : List Char) : List Char :=
  let cs := match cs with
    | 'v' :: rest => rest
    | cs => cs
  if !cs.head?.any Text.isDigit then cs
  else
    let cs := cs.takeWhile (· != '+')
    let core := cs.takeWhile (· != '-')
    if core.any fun c => c == 'x' || c == 'X' || c == '*' then cs
    else match numbersOf? core with
      | none => cs
      | some [major] =>
        (">=" ++ Text.decimal major ++ ".0.0, <" ++ Text.decimal (numberAfter major) ++ ".0.0").toList
      | some [major, minor] =>
        (">=" ++ Text.decimal major ++ "." ++ Text.decimal minor ++ ".0, <"
          ++ Text.decimal major ++ "." ++ Text.decimal (numberAfter minor) ++ ".0").toList
      | some _ => '=' :: cs

/-- Whether a text consists of operators only. -/
def isOperatorText (cs : List Char) : Bool :=
  cs.all fun c => c == '<' || c == '>' || c == '=' || c == '~' || c == '^'

/-- The texts of comparators, each joined with the operators that stand alone before it. -/
def joinOperators (pending : List Char) : List (List Char) → List (List Char)
  | [] => []
  | word :: rest =>
    if isOperatorText word then joinOperators (pending ++ word) rest
    else (pending ++ word) :: joinOperators [] rest

/-- A hyphen between spaces. -/
def hyphen : List Char := [' ', '-', ' ']

/-- An alternative, trimmed, in the notation of requirements. -/
def requirementText (cs : List Char) : List Char :=
  match Text.cutFirst hyphen cs with
  | some (low, high) =>
    ['>', '='] ++ Text.trimChars low ++ [',', ' ', '<', '='] ++ Text.trimChars high
  | none => [',', ' '].intercalate ((joinOperators [] (Text.words cs)).map comparatorText)

/-- The requirement that an alternative stands for. -/
def readAlternative (cs : List Char) : Except RangeError Requirement :=
  let cs := Text.trimChars cs
  if cs = [] ∨ cs = ['*'] ∨ cs = ['x'] ∨ cs = ['X'] then .ok .any
  else (Requirement.read (requirementText cs)).mapError (.range (String.ofList cs))

/-- The alternatives of a range. -/
def alternatives (cs : List Char) : List (List Char) :=
  Text.splitOnText ['|', '|'] (by simp) cs

/-- Whether a version satisfies one of the alternatives, tried from the left; one that cannot
be read ends the search. -/
def anyAdmits (v : Version) : List (List Char) → Except RangeError Bool
  | [] => .ok false
  | alternative :: rest => do
    if (← readAlternative alternative).admits v then return true else anyAdmits v rest

end Range

/-- Whether the version that a text spells satisfies a range. -/
def satisfies (range version : String) : Except RangeError Bool := do
  let v ← (read (Text.trimChars version.toList)).mapError (.version version)
  Range.anyAdmits v (Range.alternatives range.toList)

end PluginHost.Version

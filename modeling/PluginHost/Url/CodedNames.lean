import PluginHost.Text.Utf8
import PluginHost.Url.Domain

/-!
# Coded domain names

A label that begins with `xn--` spells one outside ASCII: its letters after the last hyphen are
numbers of variable length that say which character is inserted where.  `codedNames` is a mapping
without tables of characters.  It maps the labels whose letters are those of Western European
languages, and keeps a label that spells one with other letters; labels that are given in other
letters it refuses.
-/

namespace PluginHost.Url

/-- The value of a letter or digit in a number of base 36. -/
def base36? (c : Char) : Option Nat :=
  if 'a' ≤ c ∧ c ≤ 'z' then some (c.toNat - 'a'.toNat)
  else if '0' ≤ c ∧ c ≤ '9' then some (c.toNat - '0'.toNat + 26)
  else none

/-- The greatest weight that a digit at a position may leave open. -/
def digitLimit (position bias : Nat) : Nat := max 1 (min 26 (position - bias))

/-- Divides by 35 until the number is at most 455, counting by 36. -/
def settleBias (delta count : Nat) : Nat :=
  if 455 < delta then settleBias (delta / 35) (count + 36)
  else count + 36 * delta / (delta + 38)
termination_by delta
decreasing_by exact Nat.div_lt_self (by omega) (by omega)

/-- The bias for the number after one that has been read. -/
def nextBias (delta count : Nat) (first : Bool) : Nat :=
  let delta := if first then delta / 700 else delta / 2
  settleBias (delta + delta / count) 0

/-! ### Labels that are spelled -/

/-- A number of variable length, with its digits from the least, and the rest. -/
def readDelta (bias : Nat) : (position weight value : Nat) → List Char →
    Option (Nat × List Char)
  | _, _, _, [] => none
  | position, weight, value, c :: cs => do
    let digit ← base36? c
    let limit := digitLimit position bias
    let value := value + digit * weight
    if digit < limit then return (value, cs)
    else readDelta bias (position + 36) (weight * (36 - limit)) value cs

theorem length_readDelta_lt {bias position weight value n : Nat} {cs rest : List Char}
    (h : readDelta bias position weight value cs = some (n, rest)) :
  rest.length < cs.length
  := by
  induction cs generalizing position weight value with
  | nil => simp [readDelta] at h
  | cons c cs ih =>
    simp only [readDelta, Option.bind_eq_bind, Option.bind_eq_some_iff] at h
    obtain ⟨d, -, h⟩ := h
    split at h
    · obtain ⟨-, rfl⟩ := by simpa using h
      simp
    · exact Nat.lt_succ_of_lt (ih h)

/-- The label with the characters inserted that the letters name, where code points and
positions are counted on together. -/
def insertAll (cs : List Char) (code position bias : Nat) (label : List Nat) :
    Option (List Nat) :=
  match _h : readDelta bias 36 1 0 cs with
  | none => if cs.isEmpty then some label else none
  | some (delta, rest) =>
    let size := label.length + 1
    let code := code + (position + delta) / size
    let index := (position + delta) % size
    insertAll rest code (index + 1) (nextBias delta size (position == 0))
      (label.take index ++ [code] ++ label.drop index)
termination_by cs.length
decreasing_by exact length_readDelta_lt _h

/-- The characters that the text after `xn--` spells, if it spells some outside ASCII. -/
def spelled? (cs : List Char) : Option (List Char) := do
  let tail := (cs.reverse.takeWhile (· != '-')).reverse
  let front := cs.take (cs.length - tail.length - 1)
  let codes ← insertAll tail 0x80 0 72 (front.map Char.toNat)
  if tail.isEmpty || !codes.all fun n => decide n.isValidChar then none
  else some (codes.map Char.ofNat)

/-! ### Labels that are given in their letters -/

/-- A digit of a number of base 36. -/
def digit36 (n : Nat) : Char :=
  if n < 26 then Char.ofNat (n + 'a'.toNat) else Char.ofNat (n - 26 + '0'.toNat)

/-- The digits of a number of variable length, from the least. -/
def printDelta (bias position n : Nat) : List Char :=
  let limit := digitLimit position bias
  if n < limit then [digit36 n]
  else
    digit36 (limit + (n - limit) % (36 - limit))
      :: printDelta bias (position + 36) ((n - limit) / (36 - limit))
termination_by n
decreasing_by
  have hlimit : 1 ≤ digitLimit position bias := Nat.le_max_left _ _
  exact Nat.lt_of_le_of_lt (Nat.div_le_self _ _) (by omega)

/-- The spelling of a label as far as it has been worked out: what is to be added to the next
number, how many characters are in place, and the bias. -/
structure Coding where
  text : List Char
  delta : Nat
  placed : Nat
  bias : Nat

/-- The spelling after a character of the label has been passed, while those of a code are put in
place among `plain` ASCII ones. -/
def Coding.pass (plain code : Nat) (s : Coding) (c : Char) : Coding :=
  if c.toNat < code then { s with delta := s.delta + 1 }
  else if c.toNat = code then
    { text := s.text ++ printDelta s.bias 36 s.delta
      delta := 0
      placed := s.placed + 1
      bias := nextBias s.delta (s.placed + 1) (s.placed == plain) }
  else s

/-- The spelling after the characters of some codes have been put in place, in increasing order from
a code on. -/
def Coding.place (label : List Char) (plain : Nat) : Nat → List Nat → Coding → Coding
  | _, [], s => s
  | next, code :: codes, s =>
    let s := { s with delta := s.delta + (code - next) * (s.placed + 1) }
    let s := label.foldl (Coding.pass plain code) s
    place label plain (code + 1) codes { s with delta := s.delta + 1 }

/-- The spelling in ASCII of a label with letters of codes below 256. -/
def spelling (label : List Char) : List Char :=
  let front := label.filter fun c => c.toNat < 0x80
  let codes := (List.range' 0x80 0x80).filter fun n => label.any (·.toNat == n)
  let start : Coding := ⟨[], 0, front.length, 72⟩
  "xn--".toList ++ front ++ (if front.isEmpty then [] else ['-'])
    ++ (Coding.place label front.length 0x80 codes start).text

/-! ### Labels and names -/

/-- Whether a character is one of the letters from `à` on, or a capital one of them. -/
def isWesternLetter (c : Char) : Bool := 0xC0 ≤ c.toNat && c.toNat ≤ 0xFF

/-- A letter as a small one. -/
def foldLetter (c : Char) : Char :=
  if 0xC0 ≤ c.toNat ∧ c.toNat ≤ 0xDE ∧ c.toNat ≠ 0xD7 then Char.ofNat (c.toNat + 0x20)
  else c.toLower

/-- Whether a label, in small letters, may stand for itself where it has been spelled. -/
def canBeSpelled (label : List Char) : Bool :=
  label.any (fun c => 0x80 ≤ c.toNat)
    && label.all fun c =>
      c.toNat < 0x80 || if isWesternLetter c then foldLetter c == c else Text.standsAlone c

/-- The label in ASCII. -/
def mapLabel? (label : List Char) : Option (List Char) :=
  let label := label.map foldLetter
  let isAscii := label.all fun c => c.toNat < 0x80
  if label.any isForbiddenInDomain then none
  else match Text.dropStart "xn--".toList label with
    | some coded =>
      if isAscii && (spelled? coded).any canBeSpelled then some label else none
    | none =>
      if isAscii then some label
      else if label.all fun c => c.toNat < 0x80 || isWesternLetter c then some (spelling label)
      else none

/-- The mapping without tables. -/
@[reducible]
def codedNames : DomainNames where
  toAscii? := fun bytes => do
    let name ← Text.Utf8.ofBytes? bytes
    let labels ← (Text.splitOn '.' name.toList).mapM mapLabel?
    return ['.'].intercalate labels

end PluginHost.Url

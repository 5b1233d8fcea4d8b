import PluginHost.Text.Digits
import PluginHost.Text.Split

/-!
# Numeric hosts

A host whose last label is a number is an address of four bytes; its labels may be decimal,
octal after a zero or hexadecimal after `0x`, and the last one fills the bytes that are left.
A host between brackets is an address of eight words in hexadecimal between colons, where two
colons stand for a run of zeros and the last two words may be written as four bytes.
-/

namespace PluginHost.Url

/-! ### Addresses of four bytes -/

/-- The number that a label spells, if it is one; whether it fits is not asked. -/
def labelNumber? (label : List Char) : Option Nat :=
  match label with
  | [] => none
  | '0' :: x :: rest =>
    if x = 'x' ∨ x = 'X' then
      if rest.isEmpty then some 0 else Text.numberIn? 16 rest
    else Text.numberIn? 8 (x :: rest)
  | label => Text.numberIn? 10 label

/-- The labels of a host name, without the empty one after a point at the end. -/
def labelsOf (host : List Char) : List (List Char) :=
  let labels := Text.splitOn '.' host
  if labels.getLast? = some [] then labels.dropLast else labels

/-- Whether the last label of a host name is a number. -/
def endsInNumber (host : List Char) : Bool :=
  match (labelsOf host).getLast? with
  | none => false
  | some last => (!last.isEmpty && last.all Text.isDigit) || (labelNumber? last).isSome

/-- The four bytes of an address as one number. -/
def readAddress4? (host : List Char) : Option Nat := do
  let numbers ← (labelsOf host).mapM labelNumber?
  let last ← numbers.getLast?
  let front := numbers.dropLast
  if 3 < front.length ∨ front.any (255 < ·) ∨ Nat.pow 256 (4 - front.length) ≤ last then none
  else return front.foldl (· * 256 + ·) 0 * Nat.pow 256 (4 - front.length) + last

/-- An address of four bytes, in decimal. -/
def printAddress4 (n : Nat) : List Char :=
  ['.'].intercalate ((([3, 2, 1, 0] : List Nat).map fun i => n / Nat.pow 256 i % 256).map
    fun byte => (Text.decimal byte).toList)

/-! ### Addresses of eight words -/

/-- The words read so far, and how many of them stand before the run of zeros. -/
structure Words where
  words : List Nat
  gap : Option Nat

/-- At most the given number of hexadecimal digits, with their value, and the rest. -/
def readWord : Nat → Nat → List Char → Nat × List Char
  | n + 1, value, c :: cs =>
    match Text.hexValue? c with
    | some digit => readWord n (value * 16 + digit) cs
    | none => (value, c :: cs)
  | _, value, cs => (value, cs)

theorem length_readWord_le (n value : Nat) (cs : List Char) :
  (readWord n value cs).2.length ≤ cs.length
  := by
  induction n generalizing value cs with
  | zero => simp [readWord]
  | succ n ih =>
    cases cs with
    | nil => simp [readWord]
    | cons c cs =>
      simp only [readWord]
      split
      · exact Nat.le_succ_of_le (ih _ _)
      · simp

/-- A byte in decimal without a zero in front. -/
def readByte? (cs : List Char) : Option Nat :=
  if 1 < cs.length ∧ cs.head? = some '0' then none
  else (Text.numberIn? 10 cs).filter (· ≤ 255)

/-- Four bytes between points, as two words. -/
def readBytes? (cs : List Char) : Option (List Nat) := do
  match ← (Text.splitOn '.' cs).mapM readByte? with
  | [a, b, c, d] => return [a * 256 + b, c * 256 + d]
  | _ => none

/-- The words of a text, after those read so far.  The number of words before the run of
zeros counts one zero of that run. -/
def continueWords (cs : List Char) (seen : Words) : Option Words :=
  match cs with
  | [] => some seen
  | c :: rest =>
    if seen.words.length = 8 then none
    else if c = ':' then
      if seen.gap.isSome then none
      else continueWords rest ⟨seen.words ++ [0], some (seen.words.length + 1)⟩
    else
      match _h : readWord 4 0 (c :: rest) with
      | (value, []) => some ⟨seen.words ++ [value], seen.gap⟩
      | (value, ':' :: more) =>
        if more.isEmpty then none
        else continueWords more ⟨seen.words ++ [value], seen.gap⟩
      | (_, '.' :: _) =>
        if c = '.' ∨ 6 < seen.words.length then none
        else (readBytes? (c :: rest)).map fun pair => ⟨seen.words ++ pair, seen.gap⟩
      | _ => none
termination_by cs.length
decreasing_by
  · simp
  · have := length_readWord_le 4 0 (c :: rest)
    rw [_h] at this
    simp at this ⊢
    omega

/-- The eight words of an address. -/
def readAddress8? (cs : List Char) : Option (List Nat) := do
  let seen ← match cs with
    | ':' :: ':' :: rest => continueWords rest ⟨[0], some 1⟩
    | ':' :: _ => none
    | [] | [_] => none
    | cs => continueWords cs ⟨[], none⟩
  match seen.gap with
  | none => if seen.words.length = 8 then some seen.words else none
  | some gap =>
    return seen.words.take gap ++ List.replicate (8 - seen.words.length) 0
      ++ seen.words.drop gap

/-- The number of zeros at the front of a list of words. -/
def leadingZeros (words : List Nat) : Nat := (words.takeWhile (· == 0)).length

/-- The index and length of the first longest run of at least two zeros, if there is one. -/
def longestZeros (words : List Nat) : Option (Nat × Nat) :=
  let runs := (List.range words.length).map fun i => (i, leadingZeros (words.drop i))
  runs.foldl (fun best run =>
    if run.2 < 2 then best
    else match best with
      | some b => if b.2 < run.2 then some run else best
      | none => some run) none

/-- An address of eight words between brackets, with the longest run of zeros left out. -/
def printAddress8 (words : List Nat) : List Char :=
  let join := fun (ws : List Nat) =>
    [':'].intercalate (ws.map fun w => Nat.toDigits 16 w)
  match longestZeros words with
  | none => ['['] ++ join words ++ [']']
  | some (start, length) =>
    ['['] ++ join (words.take start) ++ [':', ':'] ++ join (words.drop (start + length)) ++ [']']

end PluginHost.Url

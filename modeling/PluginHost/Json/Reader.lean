import PluginHost.Json
import PluginHost.Text.Digits

/-!
# Reading JSON

`Json.read?` accepts the texts that the JSON grammar derives, without exception: blanks are
spaces, tabs, line feeds and carriage returns, no comma or text is left over, and a string
holds no raw control character.  Nesting and the size of numbers are not limited here; they
are looked at when a value is used.
-/

namespace PluginHost.Json

/-- The characters without the blanks at the front. -/
def skipBlanks (cs : List Char) : List Char :=
  cs.dropWhile fun c => c = ' ' || c = '\t' || c = '\n' || c = '\r'

/-- The character that a short escape stands for. -/
def escaped? (c : Char) : Option Char :=
  match c with
  | '"' => some '"'
  | '\\' => some '\\'
  | '/' => some '/'
  | 'b' => some '\x08'
  | 'f' => some '\x0c'
  | 'n' => some '\n'
  | 'r' => some '\r'
  | 't' => some '\t'
  | _ => none

/-- The code points and surrogate halves of a string up to its closing quote, and the rest. -/
def scanString : List Char → Option (List Nat × List Char)
  | [] => none
  | '"' :: rest => some ([], rest)
  | '\\' :: 'u' :: a :: b :: c :: d :: rest => do
    let unit ← Text.numberIn? 16 [a, b, c, d]
    let (units, after) ← scanString rest
    return (unit :: units, after)
  | '\\' :: e :: rest => do
    let c ← escaped? e
    let (units, after) ← scanString rest
    return (c.toNat :: units, after)
  | c :: rest =>
    if c.toNat < 0x20 ∨ c = '\\' then none
    else do
      let (units, after) ← scanString rest
      return (c.toNat :: units, after)

/-- The characters of a string, if its surrogate halves come in pairs. -/
def joinHalves : List Nat → Option (List Char)
  | [] => some []
  | n :: rest =>
    if 0xD800 ≤ n ∧ n < 0xDC00 then
      match rest with
      | low :: rest' =>
        if 0xDC00 ≤ low ∧ low < 0xE000 then
          (joinHalves rest').map
            (Char.ofNat ((n - 0xD800) * 0x400 + (low - 0xDC00) + 0x10000) :: ·)
        else none
      | [] => none
    else if 0xDC00 ≤ n ∧ n < 0xE000 then none
    else (joinHalves rest).map (Char.ofNat n :: ·)

/-- The text of a string after its opening quote, and the rest. -/
def readString (cs : List Char) : Option (Option String × List Char) :=
  (scanString cs).map fun (units, rest) => ((joinHalves units).map String.ofList, rest)

/-- A run of at least one digit, and the rest. -/
def readDigits (cs : List Char) : Option (List Char × List Char) :=
  match cs.takeWhile Text.isDigit with
  | [] => none
  | digits => some (digits, cs.dropWhile Text.isDigit)

/-- The part of a number before point and exponent: a zero, or digits that start with none. -/
def readWhole : List Char → Option (List Char × List Char)
  | '0' :: rest => if (rest.head?.any Text.isDigit) then none else some (['0'], rest)
  | cs => readDigits cs

/-- The part of a number after the point, if there is a point. -/
def readFraction : List Char → Option (List Char × List Char)
  | '.' :: rest => (readDigits rest).map fun (digits, after) => ('.' :: digits, after)
  | cs => some ([], cs)

/-- The exponent of a number, if there is one. -/
def readExponent : List Char → Option (List Char × List Char)
  | e :: rest =>
    if e = 'e' ∨ e = 'E' then
      match rest with
      | '+' :: more => (readDigits more).map fun (digits, after) => (e :: '+' :: digits, after)
      | '-' :: more => (readDigits more).map fun (digits, after) => (e :: '-' :: digits, after)
      | more => (readDigits more).map fun (digits, after) => (e :: digits, after)
    else some ([], e :: rest)
  | [] => some ([], [])

/-- A number without its sign, and the rest. -/
def readUnsigned (cs : List Char) : Option (List Char × List Char) := do
  let (whole, cs) ← readWhole cs
  let (fraction, cs) ← readFraction cs
  let (exponent, cs) ← readExponent cs
  return (whole ++ fraction ++ exponent, cs)

/-- A number, and the rest. -/
def readNumber : List Char → Option (List Char × List Char)
  | '-' :: rest => (readUnsigned rest).map fun (digits, after) => ('-' :: digits, after)
  | cs => readUnsigned cs

/-- The rest of a text that begins with a word. -/
def readWord (word : String) (cs : List Char) : Option (List Char) :=
  if word.toList.isPrefixOf cs then some (cs.drop word.length) else none

mutual

/-- A value at the front of the text, and the rest; the number bounds the steps. -/
def readValue : Nat → List Char → Option (Json × List Char)
  | 0, _ => none
  | n + 1, cs =>
    match cs with
    | '"' :: rest => (readString rest).map fun (s, after) => (.string s, after)
    | '[' :: rest =>
      match skipBlanks rest with
      | ']' :: after => some (.array [], after)
      | more => (readItems n more).map fun (items, after) => (.array items, after)
    | '\x7b' :: rest =>
      match skipBlanks rest with
      | '\x7d' :: after => some (.object [], after)
      | more => (readMembers n more).map fun (members, after) => (.object members, after)
    | 'n' :: _ => (readWord "null" cs).map (.null, ·)
    | 't' :: _ => (readWord "true" cs).map (.bool true, ·)
    | 'f' :: _ => (readWord "false" cs).map (.bool false, ·)
    | _ => (readNumber cs).map fun (digits, after) => (.number (String.ofList digits), after)

/-- The items of an array up to its closing bracket. -/
def readItems : Nat → List Char → Option (List Json × List Char)
  | 0, _ => none
  | n + 1, cs => do
    let (item, rest) ← readValue n cs
    match skipBlanks rest with
    | ']' :: after => return ([item], after)
    | ',' :: more =>
      let (items, after) ← readItems n (skipBlanks more)
      return (item :: items, after)
    | _ => none

/-- The members of an object up to its closing brace. -/
def readMembers : Nat → List Char → Option (List (Option String × Json) × List Char)
  | 0, _ => none
  | n + 1, '"' :: cs => do
    let (key, rest) ← readString cs
    match skipBlanks rest with
    | ':' :: more =>
      let (value, rest) ← readValue n (skipBlanks more)
      match skipBlanks rest with
      | '\x7d' :: after => return ([(key, value)], after)
      | ',' :: more =>
        let (members, after) ← readMembers n (skipBlanks more)
        return ((key, value) :: members, after)
      | _ => none
    | _ => none
  | _ + 1, _ => none

end

/-- The value that a text spells, if it spells one. -/
def read? (text : String) : Option Json :=
  match readValue (text.length + 1) (skipBlanks text.toList) with
  | some (value, rest) => if (skipBlanks rest).isEmpty then some value else none
  | none => none

end PluginHost.Json

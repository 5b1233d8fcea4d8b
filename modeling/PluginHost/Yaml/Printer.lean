import PluginHost.Yaml.Plain
import PluginHost.Yaml.Scalar

/-!
# Printing scalars of YAML

`scalarStyle` chooses the notation of a text: one with line feeds is printed line by line, one
that would be taken for something else between single quotes, and any other plainly, as far as
its characters admit that; `printScalar` prints it in that notation, down to the end of its
line.  Lines after the first are indented by two spaces.
-/

namespace PluginHost.Yaml

/-! ### Characters -/

/-- Characters that are printed as they are. -/
def isPrintable (c : Char) : Bool :=
  let n := c.toNat
  n == 0x0A || (0x20 ≤ n && n ≤ 0x7E) || (0xA0 ≤ n && n ≤ 0xD7FF)
    || (0xE000 ≤ n && n ≤ 0xFFFD && n != 0xFEFF) || 0x10000 ≤ n

/-- Whether a character ends a line in one of the spellings that a text may hold. -/
def breaksLine (c : Char) : Bool := isBreak c || c == '\r' || c == '\u0085'

/-- Whether a character is a blank, ends a line, or is the null character. -/
def separates (c : Char) : Bool := isBlank c || breaksLine c || c == '\x00'

/-- Whether a text is at its end or at a character that separates words. -/
def atSeparator (cs : List Char) : Bool := cs.head?.all separates

/-- Whether two characters that satisfy two conditions stand next to each other. -/
def hasPair (p q : Char → Bool) : List Char → Bool
  | a :: b :: cs => (p a && q b) || hasPair p q (b :: cs)
  | _ => false

/-- Whether a colon at the end of a word or a number sign at the start of one is in a text
after a character. -/
def hasIndicator (afterSeparator : Bool) : List Char → Bool
  | [] => false
  | c :: cs =>
    (c == ':' && atSeparator cs) || (c == '#' && afterSeparator)
      || hasIndicator (separates c) cs

/-- Whether a text begins with characters that a plain scalar must not begin with. -/
def startsIndicated : List Char → Bool
  | [] => false
  | c :: cs =>
    "#,[]\x7b\x7d&*!|>'\"%@\x60".toList.contains c || ((c == '?' || c == '-') && atSeparator cs)
      || ['-', '-', '-'].isPrefixOf (c :: cs) || ['.', '.', '.'].isPrefixOf (c :: cs)

/-! ### Notations -/

/-- Whether a text has a character that is not printed as it is, or a space before the end of a
line. -/
def needsEscapes (cs : List Char) : Bool :=
  cs.any (fun c => !isPrintable c) || hasPair (· == ' ') breaksLine cs

/-- Whether a text may be printed line by line. -/
def fitsLiteral (cs : List Char) : Bool := !needsEscapes cs && cs.getLast? != some ' '

/-- Whether a text may be printed between single quotes. -/
def fitsSingle (cs : List Char) : Bool := !needsEscapes cs && !hasPair breaksLine (· == ' ') cs

/-- Whether a text may be printed plainly. -/
def fitsPlain (cs : List Char) : Bool :=
  fitsSingle cs && !cs.any breaksLine && cs.head? != some ' ' && cs.getLast? != some ' '
    && !startsIndicated cs && !hasIndicator false cs

/-- The notation that a text is printed in. -/
def scalarStyle (cs : List Char) : ScalarStyle :=
  if cs.contains '\n' then if fitsLiteral cs then .literal else .doubleQuoted
  else if !isAmbiguous cs && fitsPlain cs then .plain
  else if fitsSingle cs then .singleQuoted
  else .doubleQuoted

/-! ### Texts in a notation -/

/-- The spaces in front of lines after the first. -/
def indentation : List Char := [' ', ' ']

/-- The characters of a text as they are printed, with indentation at the start of each line
that is not empty. -/
def indentLines (print : Char → List Char) (atStart : Bool) : List Char → List Char
  | [] => []
  | c :: cs =>
    if breaksLine c then c :: indentLines print true cs
    else (if atStart then indentation else []) ++ print c ++ indentLines print false cs

/-- Whether a text ends with the end of a line. -/
def endsLine (cs : List Char) : Bool := cs.getLast?.any breaksLine

/-- A text between single quotes, where each quote is written twice. -/
def printSingle (cs : List Char) : List Char :=
  let inner := indentLines (fun c => if c == '\'' then ['\'', '\''] else [c]) false cs
  '\'' :: (inner ++ (if endsLine cs then indentation else []) ++ ['\''])

/-- The letter of an escape, for the characters that have one. -/
def letter? (c : Char) : Option Char :=
  match c with
  | '\x00' => some '0'
  | '\x07' => some 'a'
  | '\x08' => some 'b'
  | '\t' => some 't'
  | '\n' => some 'n'
  | '\x0b' => some 'v'
  | '\x0c' => some 'f'
  | '\r' => some 'r'
  | '\x1b' => some 'e'
  | '"' => some '"'
  | '\\' => some '\\'
  | '\u0085' => some 'N'
  | '\u00a0' => some '_'
  | '\u2028' => some 'L'
  | '\u2029' => some 'P'
  | _ => none

/-- A character after a backslash, by its letter or its code point. -/
def escape (c : Char) : List Char :=
  match letter? c with
  | some l => ['\\', l]
  | none =>
    let n := c.toNat
    if n ≤ 0xFF then '\\' :: 'x' :: (Text.capitalHex 2 n).toList
    else if n ≤ 0xFFFF then '\\' :: 'u' :: (Text.capitalHex 4 n).toList
    else '\\' :: 'U' :: (Text.capitalHex 8 n).toList

/-- A character between double quotes. -/
def printDoubleChar (c : Char) : List Char :=
  if !isPrintable c || breaksLine c || c == '"' || c == '\\' then escape c else [c]

/-- A text between double quotes. -/
def printDouble (cs : List Char) : List Char := '"' :: (cs.flatMap printDoubleChar ++ ['"'])

/-- The header of a text that is printed line by line: the indentation is told if the text does
not begin with one to go by, and the breaks at its end if they are not exactly one. -/
def literalHeader (cs : List Char) : List Char :=
  let increment := if cs.head?.any fun c => c == ' ' || breaksLine c then ['2'] else []
  let chomping :=
    if !endsLine cs then ['-']
    else if cs.dropLast.isEmpty || endsLine cs.dropLast then ['+']
    else []
  '|' :: (increment ++ chomping)

/-- A text line by line, with the end of its last line. -/
def printLiteral (cs : List Char) : List Char :=
  literalHeader cs ++ '\n' :: (indentLines (fun c => [c]) true cs
    ++ (if endsLine cs then [] else ['\n']))

/-- A text in its notation, with the end of its last line. -/
def printScalar (cs : List Char) : List Char :=
  match scalarStyle cs with
  | .plain => cs ++ ['\n']
  | .singleQuoted => printSingle cs ++ ['\n']
  | .literal => printLiteral cs
  | _ => printDouble cs ++ ['\n']

end PluginHost.Yaml

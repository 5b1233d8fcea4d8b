import PluginHost.Text.Digits
import PluginHost.Yaml.Text

/-!
# Scalars of YAML

How the text of a scalar is read in each of its notations.  A plain scalar and a quoted one may
go over several lines, which are folded; a block scalar consists of the lines below its header,
kept or folded.  Each reader gives the text and what follows it.
-/

namespace PluginHost.Yaml

/-- The notations of a scalar. -/
inductive ScalarStyle where
  | plain
  | singleQuoted
  | doubleQuoted
  | literal
  | folded
  deriving DecidableEq, Repr

/-! ### Plain scalars -/

/-- Characters that end a plain scalar inside a flow collection. -/
def isFlowIndicator (c : Char) : Bool := ",[]\x7b\x7d".toList.contains c

/-- A plain scalar up to the end of its line, without blanks at its end; after a blank, a
number sign begins a comment.  Inside a flow collection a colon must not stand before an
indicator. -/
def plainLine (inFlow : Bool) (afterBlank : Bool) : List Char → Option (List Char × List Char)
  | [] => some ([], [])
  | c :: cs =>
    if isBreak c then some ([], c :: cs)
    else if isBlank c then
      match plainLine inFlow true cs with
      | some (d :: more, rest) => some (c :: d :: more, rest)
      | some ([], _) => some ([], c :: cs)
      | none => none
    else if afterBlank && c == '#' then some ([], c :: cs)
    else if inFlow && c == ':' && cs.head?.any (fun d => isFlowIndicator d || d == '?') then none
    else if (c == ':' && endsWord cs) || (inFlow && isFlowIndicator c) then some ([], c :: cs)
    else (plainLine inFlow false cs).map fun (more, rest) => (c :: more, rest)

/-- White characters after a line of a plain scalar: the breaks among them, the column where
they end, and what follows.  Outside the margin a tab is refused. -/
def plainGap (margin : Nat) (column : Nat) : List Char → Option (List Char × Nat × List Char)
  | [] => some ([], column, [])
  | c :: cs =>
    if isBreak c then
      (plainGap margin 0 cs).map fun (breaks, rest) => (c :: breaks, rest)
    else if c == ' ' then plainGap margin (column + 1) cs
    else if c == '\t' then
      if column < margin then none else plainGap margin (column + 1) cs
    else some ([], column, c :: cs)

/-- The further lines of a plain scalar after its first one, with the breaks before them
folded; whether its end is after a break; and what follows.  The number bounds the lines. -/
def plainMore (inFlow : Bool) (margin : Nat) :
    Nat → List Char → Option (List Char × Bool × List Char)
  | 0, _ => none
  | n + 1, cs =>
    let next := cs.dropWhile isBlank
    if !next.head?.any isBreak then some ([], false, next)
    else do
      let (breaks, column, rest) ← plainGap margin 0 next
      if (!inFlow && column < margin) || (column == 0 && isDocumentMark rest) then
        return ([], true, rest)
      else
        let (line, after) ← plainLine inFlow true rest
        if line.isEmpty then return ([], true, rest)
        else
          let (more, broken, last) ← plainMore inFlow margin n after
          return (foldBreaks breaks ++ line ++ more, broken, last)

/-- A plain scalar: its text, whether its end is after a break, and what follows.  Lines after
the first have to be inside the margin. -/
def plainScalar (inFlow : Bool) (margin : Nat) (cs : List Char) :
    Option (List Char × Bool × List Char) := do
  let (line, rest) ← plainLine inFlow false cs
  let (more, broken, last) ← plainMore inFlow margin (cs.length + 1) rest
  return (line ++ more, broken, last)

/-! ### Quoted scalars -/

/-- The text of some white characters inside quotes: blanks stand for themselves, but around
breaks they disappear, and the breaks are folded. -/
def foldWhite (white : List Char) : List Char :=
  let breaks := white.filter isBreak
  if breaks.isEmpty then white else foldBreaks breaks

/-- The text of some white characters after an escaped break, which disappears too. -/
def foldEscaped (white : List Char) : List Char := white.filter isBreak

/-- Whether a position after some white characters is the start of a line. -/
def atLineStart (white : List Char) : Bool := white.getLast?.any isBreak

/-- The text between single quotes after some white characters, and what follows.  A quote is
written twice. -/
def singleQuoted (white : List Char) : List Char → Option (List Char × List Char)
  | [] => none
  | c :: cs =>
    if isWhite c then singleQuoted (white ++ [c]) cs
    else if atLineStart white && isDocumentMark (c :: cs) then none
    else if c == '\'' then
      match cs with
      | '\'' :: cs' =>
        (singleQuoted [] cs').map fun (more, rest) => (foldWhite white ++ '\'' :: more, rest)
      | _ => some (foldWhite white, cs)
    else (singleQuoted [] cs).map fun (more, rest) => (foldWhite white ++ c :: more, rest)

/-- The character that an escape of one letter stands for. -/
def escaped? (c : Char) : Option Char :=
  match c with
  | '0' => some '\x00'
  | 'a' => some '\x07'
  | 'b' => some '\x08'
  | 't' | '\t' => some '\t'
  | 'n' => some '\n'
  | 'v' => some '\x0b'
  | 'f' => some '\x0c'
  | 'r' => some '\r'
  | 'e' => some '\x1b'
  | ' ' => some ' '
  | '"' => some '"'
  | '/' => some '/'
  | '\\' => some '\\'
  | 'N' => some '\u0085'
  | '_' => some '\u00a0'
  | 'L' => some '\u2028'
  | 'P' => some '\u2029'
  | _ => none

/-- The character that hexadecimal digits stand for. -/
def numbered? (digits : List Char) : Option Char :=
  (Text.numberIn? 16 digits).bind fun n =>
    if (0xD800 ≤ n ∧ n < 0xE000) ∨ 0x10FFFF < n then none else some (Char.ofNat n)

/-- White characters inside double quotes, and whether an escaped break is before them. -/
structure Gap where
  escaped : Bool
  white : List Char

/-- No white characters. -/
def Gap.none : Gap := ⟨false, []⟩

/-- The text of white characters inside double quotes. -/
def Gap.text (g : Gap) : List Char :=
  if g.escaped then foldEscaped g.white else foldWhite g.white

/-- Whether the position after white characters is the start of a line. -/
def Gap.atLineStart (g : Gap) : Bool :=
  if g.white.isEmpty then g.escaped else Yaml.atLineStart g.white

/-- The text between double quotes after some white characters, and what follows. -/
def doubleQuoted (gap : Gap) : List Char → Option (List Char × List Char)
  | [] => none
  | '\\' :: 'x' :: a :: b :: cs => do
    let c ← numbered? [a, b]
    let (more, rest) ← doubleQuoted Gap.none cs
    return (gap.text ++ c :: more, rest)
  | '\\' :: 'u' :: a :: b :: c :: d :: cs => do
    let e ← numbered? [a, b, c, d]
    let (more, rest) ← doubleQuoted Gap.none cs
    return (gap.text ++ e :: more, rest)
  | '\\' :: 'U' :: a :: b :: c :: d :: e :: f :: g :: h :: cs => do
    let i ← numbered? [a, b, c, d, e, f, g, h]
    let (more, rest) ← doubleQuoted Gap.none cs
    return (gap.text ++ i :: more, rest)
  | '\\' :: c :: cs =>
    if isBreak c then
      (doubleQuoted ⟨true, []⟩ cs).map fun (more, rest) => (gap.text ++ more, rest)
    else do
      let d ← escaped? c
      let (more, rest) ← doubleQuoted Gap.none cs
      return (gap.text ++ d :: more, rest)
  | c :: cs =>
    if isWhite c then doubleQuoted { gap with white := gap.white ++ [c] } cs
    else if gap.atLineStart && isDocumentMark (c :: cs) then none
    else if c == '"' then some (gap.text, cs)
    else if c == '\\' then none
    else (doubleQuoted Gap.none cs).map fun (more, rest) => (gap.text ++ c :: more, rest)

/-! ### Block scalars -/

/-- What is done with the breaks at the end of a block scalar. -/
inductive Chomping where
  | strip
  | clip
  | keep
  deriving DecidableEq, Repr

/-- The header of a block scalar: what happens to the breaks at the end, and how far the lines
are indented more than what is around them, if that is said. -/
structure BlockHeader where
  chomping : Chomping
  increment : Option Nat
  deriving DecidableEq, Repr

/-- The chomping that a character asks for. -/
def chomping? (c : Char) : Option Chomping :=
  if c == '+' then some .keep else if c == '-' then some .strip else none

/-- The increment at the front of a text, which must not be zero, and what follows. -/
def increment? : List Char → Option (Option Nat × List Char)
  | c :: cs =>
    if c == '0' then none
    else if Text.isDigit c then some (Text.numberIn? 10 [c], cs)
    else some (none, c :: cs)
  | [] => some (none, [])

/-- The parts of the header of a block scalar, in either order, and what follows. -/
def headerParts (cs : List Char) : Option (BlockHeader × List Char) := do
  match cs.head?.bind chomping? with
  | some chomping =>
    let (increment, rest) ← increment? cs.tail
    return (⟨chomping, increment⟩, rest)
  | none =>
    let (increment, rest) ← increment? cs
    if increment.isNone then return (⟨.clip, none⟩, rest)
    else match rest.head?.bind chomping? with
      | some chomping => return (⟨chomping, increment⟩, rest.tail)
      | none => return (⟨.clip, increment⟩, rest)

/-- Blanks and a comment up to the end of a line. -/
def skipToBreak (cs : List Char) : List Char :=
  match cs.dropWhile isBlank with
  | '#' :: rest => rest.dropWhile fun c => !isBreak c
  | rest => rest

/-- The header of a block scalar, and what follows on the next line. -/
def blockHeader (cs : List Char) : Option (BlockHeader × List Char) := do
  let (header, rest) ← headerParts cs
  match skipToBreak rest with
  | [] => return (header, [])
  | c :: cs => if isBreak c then return (header, cs) else none

/-- The indentation of a block scalar that does not tell its own: that of its first line with
text, but at least that of an empty line before it, and more than that of what is around. -/
def detectIndent (margin : Nat) (widest : Nat) : List Line → Option Nat
  | [] => some (max widest (max margin 1))
  | (content, ending) :: rest =>
    let spaces := (content.takeWhile (· == ' ')).length
    let widest := max widest spaces
    match content.drop spaces with
    | [] =>
      if ending.isNone then some (max widest (max margin 1)) else detectIndent margin widest rest
    | c :: _ => if c == '\t' then none else some (max widest (max margin 1))

/-- The lines of a block scalar with an indentation, and the lines after it.  Of a line that is
not wider than the indentation only the break counts, and a tab must not stand in it. -/
def takeBlock (indent : Nat) : List Line → Option (List Line × List Line)
  | [] => some ([], [])
  | (content, ending) :: rest =>
    let spaces := min indent (content.takeWhile (· == ' ')).length
    match content.drop spaces with
    | [] =>
      if ending.isNone then some ([], [([], none)])
      else (takeBlock indent rest).map fun (block, after) => (([], ending) :: block, after)
    | c :: more =>
      if spaces < indent then
        if c == '\t' then none else some ([], (c :: more, ending) :: rest)
      else if ending.isNone then some ([(c :: more, none)], [([], none)])
      else (takeBlock indent rest).map fun (block, after) =>
        ((c :: more, ending) :: block, after)

/-- The breaks at the front of some lines, and the lines from the first with text on. -/
def leadingBreaks : List Line → List Char × List Line
  | ([], some b) :: rest => (b :: (leadingBreaks rest).1, (leadingBreaks rest).2)
  | lines => ([], lines)

/-- The breaks between a line of a block scalar and the next one: in a folded scalar they are
folded, unless one of the two lines begins with a blank. -/
def betweenLines (folded : Bool) (before after : List Char) (breaks : List Char) : List Char :=
  if folded && !before.head?.any isBlank && !after.head?.any isBlank then foldBreaks breaks
  else breaks

/-- The text of the lines of a block scalar after a line, where the breaks between are given;
the breaks at the end are treated as asked. -/
def joinLines (folded : Bool) (chomping : Chomping) (before : List Char) (breaks : List Char) :
    List Line → List Char
  | [] =>
    match chomping with
    | .strip => []
    | .clip => breaks.take 1
    | .keep => breaks
  | ([], ending) :: rest =>
    joinLines folded chomping before (breaks ++ ending.toList) rest
  | (content, ending) :: rest =>
    betweenLines folded before content breaks ++ content
      ++ joinLines folded chomping content ending.toList rest

/-- The text of the lines of a block scalar. -/
def blockText (folded : Bool) (chomping : Chomping) (lines : List Line) : List Char :=
  match leadingBreaks lines with
  | (breaks, []) => if chomping = .keep then breaks else []
  | (breaks, (content, ending) :: rest) =>
    breaks ++ content ++ joinLines folded chomping content ending.toList rest

/-- A block scalar after its indicator: its text, and what follows. -/
def blockScalar (folded : Bool) (margin : Nat) (cs : List Char) :
    Option (List Char × List Char) := do
  let (header, rest) ← blockHeader cs
  let lines := linesOf rest
  let indent ← match header.increment with
    | some n => some (margin - 1 + n)
    | none => detectIndent margin 0 lines
  let (block, after) ← takeBlock indent lines
  return (blockText folded header.chomping block, textOf after)

end PluginHost.Yaml

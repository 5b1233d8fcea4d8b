import PluginHost.Yaml.Token

/-!
# Reading tokens of YAML

`Token.read?` gives the tokens of a text.  Outside flow collections the columns of lines decide:
a collection that begins in a column is open until something stands further left.  A token that
may be the key of a mapping is remembered, and a colon after it on the same line makes it one:
the mark of the key, and the start of the mapping if there is none in its column, are put in
front of it.
-/

namespace PluginHost.Yaml

/-- A place in a text: what follows, the number of breaks before it, and its column. -/
structure Cursor where
  rest : List Char
  line : Nat
  column : Nat
  deriving Repr

namespace Cursor

/-- The place after some characters of the text. -/
def after (c : Cursor) (passed : List Char) (rest : List Char) : Cursor :=
  let breaks := passed.countP isBreak
  if breaks = 0 then ⟨rest, c.line, c.column + passed.length⟩
  else ⟨rest, c.line + breaks, (passed.reverse.takeWhile fun d => !isBreak d).length⟩

/-- The place where only the given end of the text is left. -/
def upTo (c : Cursor) (rest : List Char) : Cursor :=
  c.after (c.rest.take (c.rest.length - rest.length)) rest

/-- The place after a number of characters. -/
def past (c : Cursor) (n : Nat) : Cursor := c.upTo (c.rest.drop n)

end Cursor

/-- A place that a key may have begun at: the number of tokens before it, its line and column,
and whether there has to be a key. -/
structure PossibleKey where
  index : Nat
  line : Nat
  column : Nat
  isRequired : Bool
  deriving Repr

/-- The tokens read so far and the place that they end at.  `margin` is the first column inside
the innermost block collection and `margins` those of the collections around it; there is one
entry of `keys` for each flow collection that is open and one more, innermost first. -/
structure Reading where
  cursor : Cursor
  margin : Nat
  margins : List Nat
  keys : List (Option PossibleKey)
  keyAllowed : Bool
  tokens : List Token
  deriving Repr

namespace Reading

/-- The start of a text. -/
def start (cs : List Char) : Reading := ⟨⟨cs, 0, 0⟩, 0, [], [none], true, []⟩

/-- Whether a flow collection is open. -/
def inFlow (r : Reading) : Bool := 1 < r.keys.length

/-- One more token. -/
def emit (r : Reading) (t : Token) : Reading := { r with tokens := r.tokens ++ [t] }

/-- The reading after some characters. -/
def skip (r : Reading) (n : Nat) : Reading := { r with cursor := r.cursor.past n }

/-- The reading where only the given end of the text is left. -/
def moveTo (r : Reading) (rest : List Char) : Reading := { r with cursor := r.cursor.upTo rest }

/-- Says whether a key may begin next. -/
def allowKey (r : Reading) (allowed : Bool) : Reading := { r with keyAllowed := allowed }

/-- White characters and comments are passed over, and so is a byte order mark where a line
begins.  A tab is white unless a key may begin, and a break outside flow collections allows one. -/
def skipWhite (inFlow keyAllowed lineBegins : Bool) : List Char → List Char × Bool
  | [] => ([], keyAllowed)
  | c :: cs =>
    if lineBegins && c == '\ufeff' then skipWhite inFlow keyAllowed false cs
    else if c == ' ' || (c == '\t' && (inFlow || !keyAllowed)) then
      skipWhite inFlow keyAllowed false cs
    else if isBreak c then skipWhite inFlow (keyAllowed || !inFlow) true cs
    else if c == '#' then skipComment inFlow keyAllowed cs
    else (c :: cs, keyAllowed)
where
  /-- A comment is passed over up to the end of its line. -/
  skipComment (inFlow keyAllowed : Bool) : List Char → List Char × Bool
    | [] => ([], keyAllowed)
    | c :: cs =>
      if isBreak c then skipWhite inFlow (keyAllowed || !inFlow) true cs
      else skipComment inFlow keyAllowed cs

/-- The reading at the start of the next token. -/
def toNext (r : Reading) : Reading :=
  let (rest, keyAllowed) :=
    skipWhite r.inFlow r.keyAllowed (r.cursor.column == 0) r.cursor.rest
  (r.moveTo rest).allowKey keyAllowed

/-! ### Possible keys -/

/-- Whether a possible key is too far back: on another line, or more than 1024 columns away. -/
def isStale (r : Reading) (k : PossibleKey) : Bool :=
  k.line < r.cursor.line || k.column + 1024 < r.cursor.column

/-- Forgets a possible key, which fails if there has to be one. -/
def forget (k : Option PossibleKey) : Option (Option PossibleKey) :=
  if k.any (·.isRequired) then none else some none

/-- Forgets the possible keys that are too far back. -/
def dropStale (r : Reading) : Option Reading := do
  let keys ← r.keys.mapM fun k => if k.any r.isStale then forget k else some k
  return { r with keys }

/-- Puts something in the place of the innermost possible key, which is forgotten. -/
def setKey (r : Reading) (k : Option PossibleKey) : Option Reading :=
  match r.keys with
  | [] => none
  | old :: outer => do
    let _ ← forget old
    return { r with keys := k :: outer }

/-- Remembers that a key may begin here, if one may. -/
def saveKey (r : Reading) : Option Reading :=
  if r.keyAllowed then
    r.setKey (some ⟨r.tokens.length, r.cursor.line, r.cursor.column,
      !r.inFlow && r.margin == r.cursor.column + 1⟩)
  else some r

/-! ### Indentation -/

/-- Begins a block collection in a column, if there is none in it, by a token at an index. -/
def openBlock (r : Reading) (column index : Nat) (t : Token) : Reading :=
  if !r.inFlow && r.margin ≤ column then
    { r with
      margin := column + 1
      margins := r.margin :: r.margins
      tokens := r.tokens.take index ++ t :: r.tokens.drop index }
  else r

/-- Ends the block collections with margins above a bound, innermost first. -/
def closeAbove (bound : Nat) : Nat → List Nat → List Token → Nat × List Nat × List Token
  | margin, [], tokens => (margin, [], tokens)
  | margin, outer :: margins, tokens =>
    if bound < margin then closeAbove bound outer margins (tokens ++ [.blockEnd])
    else (margin, outer :: margins, tokens)

/-- Ends the block collections with margins above a bound, outside flow collections. -/
def closeBlocks (r : Reading) (bound : Nat) : Reading :=
  if r.inFlow then r
  else
    let (margin, margins, tokens) := closeAbove bound r.margin r.margins r.tokens
    { r with margin, margins, tokens }

/-! ### Tokens -/

/-- A token that may be a key or the first of one, read by a function of what follows it. -/
def property (r : Reading) (read : List Char → Option (Token × List Char)) : Option Reading := do
  let r ← r.saveKey
  let (t, rest) ← read r.cursor.rest.tail
  return ((r.allowKey false).moveTo rest).emit t

/-- A plain scalar. -/
def plain (r : Reading) : Option Reading := do
  let r ← r.saveKey
  let (text, broken, rest) ← plainScalar r.inFlow r.margin r.cursor.rest
  return ((r.allowKey broken).moveTo rest).emit (.scalar .plain text)

/-- A block scalar. -/
def block (r : Reading) (style : ScalarStyle) : Option Reading := do
  let r ← r.setKey none
  let (text, rest) ← blockScalar (style == .folded) r.margin r.cursor.rest.tail
  return ((r.allowKey true).moveTo rest).emit (.scalar style text)

/-- A directive, or a mark between documents of the given length: it ends all blocks. -/
def topLevel (r : Reading) (read : List Char → Option (Token × List Char)) : Option Reading := do
  let r ← (r.closeBlocks 0).setKey none
  let (t, rest) ← read r.cursor.rest
  return ((r.allowKey false).moveTo rest).emit t

/-- The start of a flow collection. -/
def openFlow (r : Reading) (t : Token) : Option Reading := do
  let r ← r.saveKey
  return (({ r with keys := none :: r.keys }.allowKey true).skip 1).emit t

/-- The end of a flow collection, also where none is open. -/
def closeFlow (r : Reading) (t : Token) : Option Reading := do
  let r ← r.setKey none
  let keys := if r.inFlow then r.keys.tail else r.keys
  return (({ r with keys }.allowKey false).skip 1).emit t

/-- A comma in a flow collection. -/
def entrySeparator (r : Reading) : Option Reading := do
  let r ← r.setKey none
  return ((r.allowKey true).skip 1).emit .flowEntry

/-- The dash of an entry of a block sequence. -/
def entryMark (r : Reading) : Option Reading := do
  if !r.inFlow && !r.keyAllowed then none
  else
    let r ← (r.openBlock r.cursor.column r.tokens.length .blockSequence).setKey none
    return ((r.allowKey true).skip 1).emit .blockEntry

/-- The question mark of a key. -/
def keyMark (r : Reading) : Option Reading := do
  if !r.inFlow && !r.keyAllowed then none
  else
    let r ← (r.openBlock r.cursor.column r.tokens.length .blockMapping).setKey none
    return ((r.allowKey !r.inFlow).skip 1).emit .key

/-- The colon of a value.  If a key may have begun before, it is marked as one. -/
def valueMark (r : Reading) : Option Reading :=
  match r.keys with
  | some k :: outer =>
    let marked := { r with
      keys := none :: outer
      tokens := r.tokens.take k.index ++ Token.key :: r.tokens.drop k.index }
    some ((((marked.openBlock k.column k.index .blockMapping).allowKey false).skip 1).emit .value)
  | _ =>
    if !r.inFlow && !r.keyAllowed then none
    else
      let r := r.openBlock r.cursor.column r.tokens.length .blockMapping
      some (((r.allowKey !r.inFlow).skip 1).emit .value)

/-- Whether a plain scalar may begin with a character, seen together with what follows it. -/
def beginsPlain (inFlow : Bool) (c : Char) (cs : List Char) : Bool :=
  if c == '-' then !cs.head?.any isBlank
  else if c == '?' || c == ':' then !inFlow && !endsWord cs
  else !isWhite c && !",[]\x7b\x7d#&*!|>'\"%@".toList.contains c && c != '\x60'

/-- One more token, where a character and what follows it are next. -/
def next (r : Reading) (c : Char) (cs : List Char) : Option Reading :=
  if r.cursor.column == 0 && c == '%' then r.topLevel fun text => Token.readDirective text.tail
  else if r.cursor.column == 0 && isMark '-' (c :: cs) then
    r.topLevel fun text => some (.documentStart, text.drop 3)
  else if r.cursor.column == 0 && isMark '.' (c :: cs) then
    r.topLevel fun text => some (.documentEnd, text.drop 3)
  else if c == '[' then r.openFlow .flowSequence
  else if c == '\x7b' then r.openFlow .flowMapping
  else if c == ']' then r.closeFlow .flowSequenceEnd
  else if c == '\x7d' then r.closeFlow .flowMappingEnd
  else if c == ',' then r.entrySeparator
  else if c == '-' && endsWord cs then r.entryMark
  else if c == '?' && (r.inFlow || endsWord cs) then r.keyMark
  else if c == ':' && (r.inFlow || endsWord cs) then r.valueMark
  else if c == '*' then
    r.property fun text => (Token.anchorName text).map fun (name, rest) => (.reference name, rest)
  else if c == '&' then
    r.property fun text => (Token.anchorName text).map fun (name, rest) => (.anchor name, rest)
  else if c == '!' then r.property (Token.readTag r.inFlow)
  else if c == '|' && !r.inFlow then r.block .literal
  else if c == '>' && !r.inFlow then r.block .folded
  else if c == '\'' then
    r.property fun text =>
      (singleQuoted [] text).map fun (s, rest) => (.scalar .singleQuoted s, rest)
  else if c == '"' then
    r.property fun text =>
      (doubleQuoted Gap.none text).map fun (s, rest) => (.scalar .doubleQuoted s, rest)
  else if beginsPlain r.inFlow c cs then r.plain
  else none

/-- The tokens of the rest of the text; the number bounds them. -/
def finish (r : Reading) : Nat → Option (List Token)
  | 0 => none
  | n + 1 => do
    let r ← r.toNext.dropStale
    let r := r.closeBlocks (r.cursor.column + 1)
    match r.cursor.rest with
    | [] => return (← (r.closeBlocks 0).setKey none).tokens
    | c :: cs => finish (← r.next c cs) n

end Reading

/-- The tokens of a text, if all of it can be read. -/
def Token.read? (text : String) : Option (List Token) :=
  if text.toList.all allowed then
    let cs := normalize text.toList
    (Reading.start cs).finish (cs.length + 1)
  else none

end PluginHost.Yaml

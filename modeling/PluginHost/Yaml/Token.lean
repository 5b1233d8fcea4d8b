import PluginHost.Yaml.Scalar

/-!
# Tokens of YAML

The tokens that a text in YAML is a sequence of.  Some of them are not written: the indentation
of lines stands for the starts and ends of block collections, and the key of a mapping is marked
by what comes after it.
-/

namespace PluginHost.Yaml

/-- A token. -/
inductive Token where
  | versionDirective (major minor : Nat)
  | tagDirective (handle start : List Char)
  | documentStart
  | documentEnd
  | blockSequence
  | blockMapping
  | blockEnd
  | blockEntry
  | flowSequence
  | flowSequenceEnd
  | flowMapping
  | flowMappingEnd
  | flowEntry
  | key
  | value
  | reference (name : List Char)
  | anchor (name : List Char)
  | tag (handle suffix : List Char)
  | scalar (style : ScalarStyle) (text : List Char)
  deriving DecidableEq, Repr

/-! ### Properties and directives -/

namespace Token

/-- Characters that may come after a name. -/
def endsName (cs : List Char) : Bool :=
  endsWord cs || cs.head?.any fun c => "?:,]\x7d%@".toList.contains c || c == '\x60'

/-- The name of an anchor after its indicator, and what follows. -/
def anchorName (cs : List Char) : Option (List Char × List Char) :=
  let name := cs.takeWhile isNameChar
  let rest := cs.dropWhile isNameChar
  if name.isEmpty || !endsName rest then none else some (name, rest)

/-- The handle of a tag, between or after exclamation marks, and what follows. -/
def tagHandle : List Char → Option (List Char × List Char)
  | '!' :: cs =>
    let name := cs.takeWhile isNameChar
    match cs.dropWhile isNameChar with
    | '!' :: rest => some ('!' :: name ++ ['!'], rest)
    | rest => some ('!' :: name, rest)
  | _ => none

/-- Whether a character may stand in a tag, where `verbatim` allows three more. -/
def isTagChar (verbatim : Bool) (c : Char) : Bool :=
  isNameChar c || ";/?:@&=+$.!~*'()".toList.contains c
    || (verbatim && ",[]".toList.contains c)

/-- The number of bytes of a character by its first one. -/
def widthOf? (octet : Nat) : Option Nat :=
  if octet < 0x80 then some 1
  else if 0xC0 ≤ octet ∧ octet < 0xE0 then some 2
  else if 0xE0 ≤ octet ∧ octet < 0xF0 then some 3
  else if 0xF0 ≤ octet ∧ octet < 0xF8 then some 4
  else none

/-- The characters of a tag, and what follows.  A character may be given by its bytes, each in
hexadecimal after a percent sign; one of a single byte is put in place of it, and a longer run
is kept as it is written.  The number counts the bytes that are still missing. -/
def tagChars (verbatim : Bool) (missing : Nat) : List Char → Option (List Char × List Char)
  | '%' :: a :: b :: cs => do
    let octet ← Text.numberIn? 16 [a, b]
    let left ← match missing with
      | 0 => (widthOf? octet).map (· - 1)
      | n + 1 => if 0x80 ≤ octet ∧ octet < 0xC0 then some n else none
    let (more, rest) ← tagChars verbatim left cs
    if octet < 0x80 then return (Char.ofNat octet :: more, rest)
    else return ('%' :: a :: b :: more, rest)
  | '%' :: _ => none
  | c :: cs =>
    if missing ≠ 0 then none
    else if isTagChar verbatim c then
      (tagChars verbatim 0 cs).map fun (more, rest) => (c :: more, rest)
    else some ([], c :: cs)
  | [] => if missing ≠ 0 then none else some ([], [])

/-- The handle and suffix of a tag after its exclamation mark, and what follows. -/
def tagParts (cs : List Char) : Option (List Char × List Char × List Char) :=
  match cs with
  | '<' :: rest => do
    let (uri, rest) ← tagChars true 0 rest
    match rest with
    | '>' :: rest => if uri.isEmpty then none else return ([], uri, rest)
    | _ => none
  | _ => do
    let (handle, rest) ← tagHandle ('!' :: cs)
    let (suffix, last) ← tagChars false 0 rest
    if 1 < handle.length ∧ handle.getLast? = some '!' then
      if suffix.isEmpty then none else return (handle, suffix, last)
    else
      let whole := handle.tail ++ suffix
      if whole.isEmpty then return ([], ['!'], last) else return (['!'], whole, last)

/-- A tag after its exclamation mark, and what follows, which has to be white; in a flow
collection it may be a comma. -/
def readTag (inFlow : Bool) (cs : List Char) : Option (Token × List Char) := do
  let (handle, suffix, rest) ← tagParts cs
  if endsWord rest || (inFlow && rest.head? == some ',') then return (.tag handle suffix, rest)
  else none

/-- A number of at most nine digits, and what follows. -/
def versionNumber (cs : List Char) : Option (Nat × List Char) :=
  let digits := cs.takeWhile Text.isDigit
  if 9 < digits.length then none
  else (Text.numberIn? 10 digits).map fun n => (n, cs.dropWhile Text.isDigit)

/-- The version after the name of its directive, and what follows. -/
def versionValue (cs : List Char) : Option (Token × List Char) := do
  let (major, rest) ← versionNumber (cs.dropWhile isBlank)
  match rest with
  | '.' :: rest =>
    let (minor, rest) ← versionNumber rest
    return (.versionDirective major minor, rest)
  | _ => none

/-- The handle and what it stands for after the name of their directive, and what follows. -/
def tagValue (cs : List Char) : Option (Token × List Char) := do
  let (handle, rest) ← tagHandle (cs.dropWhile isBlank)
  if handle ≠ ['!'] ∧ handle.getLast? ≠ some '!' then none
  else if !rest.head?.any isBlank then none
  else
    let (start, rest) ← tagChars true 0 (rest.dropWhile isBlank)
    if start.isEmpty || !endsWord rest then none
    else return (.tagDirective handle start, rest)

/-- A directive after its percent sign, and what follows on the next line. -/
def readDirective (cs : List Char) : Option (Token × List Char) := do
  let name := cs.takeWhile isNameChar
  let rest := cs.dropWhile isNameChar
  if !endsWord rest then none
  else
    let (token, rest) ←
      if name = "YAML".toList then versionValue rest
      else if name = "TAG".toList then tagValue rest
      else none
    match skipToBreak rest with
    | [] => return (token, [])
    | c :: after => if isBreak c then return (token, after) else none

end Token

end PluginHost.Yaml

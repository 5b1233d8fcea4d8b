/-!
# Characters of YAML

The classes of characters that the notation of YAML is made of.  Line breaks come in several
spellings; `normalize` gives those that mean the same one form, so that a line feed and the two
separators of Unicode are the breaks that are left.  A text with a character outside `allowed`
is no YAML at all.
-/

namespace PluginHost.Yaml

/-- Characters that may stand in a text. -/
def allowed (c : Char) : Bool :=
  let n := c.toNat
  n == 0x09 || n == 0x0A || n == 0x0D || (0x20 ≤ n && n ≤ 0x7E) || n == 0x85
    || (0xA0 ≤ n && n ≤ 0xD7FF) || (0xE000 ≤ n && n ≤ 0xFFFD) || 0x10000 ≤ n

/-- The text with a line feed for every break except the separators of Unicode. -/
def normalize : List Char → List Char
  | [] => []
  | '\r' :: '\n' :: cs => '\n' :: normalize cs
  | '\r' :: cs => '\n' :: normalize cs
  | '\u0085' :: cs => '\n' :: normalize cs
  | c :: cs => c :: normalize cs

/-- Whether a character ends a line. -/
def isBreak (c : Char) : Bool := c == '\n' || c == '\u2028' || c == '\u2029'

/-- Whether a character is a space or a tab. -/
def isBlank (c : Char) : Bool := c == ' ' || c == '\t'

/-- Whether a character is a blank or ends a line. -/
def isWhite (c : Char) : Bool := isBlank c || isBreak c

/-- Whether the text is at its end or at a white character. -/
def endsWord (cs : List Char) : Bool := cs.head?.all isWhite

/-- Whether a character may stand in the name of an anchor or a handle. -/
def isNameChar (c : Char) : Bool := c.isAlphanum || c == '_' || c == '-'

/-- Whether the text, at the start of a line, separates documents by a mark of three times the
same character. -/
def isMark (mark : Char) : List Char → Bool
  | a :: b :: c :: rest => a == mark && b == mark && c == mark && endsWord rest
  | _ => false

/-- Whether the text, at the start of a line, starts or ends a document. -/
def isDocumentMark (cs : List Char) : Bool := isMark '-' cs || isMark '.' cs

/-- What is put between two lines of text that follow each other after some breaks: one line
feed alone becomes a space, and a line feed before others disappears. -/
def foldBreaks : List Char → List Char
  | ['\n'] => [' ']
  | '\n' :: more => more
  | breaks => breaks

/-- A line and the break that ends it; the last line has none. -/
abbrev Line := List Char × Option Char

/-- The lines of a text, of which there is always one. -/
def linesOf : List Char → List Line
  | [] => [([], none)]
  | c :: cs =>
    if isBreak c then ([], some c) :: linesOf cs
    else match linesOf cs with
      | (content, ending) :: rest => ((c :: content), ending) :: rest
      | [] => [([c], none)]

/-- The text of some lines. -/
def textOf (lines : List Line) : List Char :=
  lines.flatMap fun l => l.1 ++ l.2.toList

/-- A text is its lines one after another. -/
theorem textOf_linesOf (cs : List Char) :
  textOf (linesOf cs) = cs
  := by
  induction cs with
  | nil => rfl
  | cons c cs ih =>
    simp only [linesOf]
    split
    · simpa [textOf] using ih
    · split
      · rename_i content ending rest h
        rw [h] at ih
        simpa [textOf] using ih
      · rename_i h
        rw [h] at ih
        simp [textOf] at ih
        simp [textOf, ← ih]

end PluginHost.Yaml

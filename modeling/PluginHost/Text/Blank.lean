/-!
# Blank characters

`isBlank` holds of the characters that Unicode calls white space, and `trim` removes them
from both ends of a text.  `words` cuts a text into its maximal runs of other characters.
A text is blank when nothing is left of it, which is the sense in which a description or a
setting counts as absent.
-/

namespace PluginHost.Text

/-- The characters with the Unicode property White_Space. -/
def isBlank (c : Char) : Bool :=
  let n := c.toNat
  (0x9 ≤ n && n ≤ 0xD) || n == 0x20 || n == 0x85 || n == 0xA0 || n == 0x1680
    || (0x2000 ≤ n && n ≤ 0x200A) || n == 0x2028 || n == 0x2029 || n == 0x202F
    || n == 0x205F || n == 0x3000

/-- The characters without the blank ones at the front. -/
def trimStartChars (cs : List Char) : List Char := cs.dropWhile isBlank

/-- The characters without the blank ones at the end. -/
def trimEndChars (cs : List Char) : List Char := (cs.reverse.dropWhile isBlank).reverse

/-- The characters without the blank ones at either end. -/
def trimChars (cs : List Char) : List Char := trimEndChars (trimStartChars cs)

/-- A text without the blank characters at either end. -/
def trim (s : String) : String := String.ofList (trimChars s.toList)

/-- A text of blank characters only, the empty text among them. -/
def isBlankText (s : String) : Bool := s.toList.all isBlank

/-- What follows the first word is shorter than the text that has a first word. -/
theorem length_dropWord_lt {cs : List Char} {c : Char} {rest : List Char}
    (h : cs.dropWhile isBlank = c :: rest) :
  ((c :: rest).dropWhile fun d => !isBlank d).length < cs.length
  := by
  have hc : isBlank c = false := by
    have := List.head?_dropWhile_not isBlank cs
    rw [h] at this
    simpa using this
  have hle : (c :: rest).length ≤ cs.length := h ▸ (List.dropWhile_suffix isBlank).length_le
  have hrest : (rest.dropWhile fun d => !isBlank d).length ≤ rest.length :=
    (List.dropWhile_suffix _).length_le
  simp only [List.dropWhile_cons, hc, Bool.not_false, if_true, List.length_cons] at *
  omega

/-- The maximal runs of characters that are not blank, in order. -/
def words (cs : List Char) : List (List Char) :=
  match _h : cs.dropWhile isBlank with
  | [] => []
  | c :: rest =>
    ((c :: rest).takeWhile fun d => !isBlank d)
      :: words ((c :: rest).dropWhile fun d => !isBlank d)
termination_by cs.length
decreasing_by exact length_dropWord_lt _h

end PluginHost.Text

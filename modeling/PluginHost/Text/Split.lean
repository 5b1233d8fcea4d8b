/-!
# Cutting texts

`dropStart` takes a known beginning off a text.  `splitOn` cuts at every occurrence of a
character, `splitOnText` at every occurrence of a longer separator, leftmost first; both give
one piece more than there are cuts.  `cutFirst` cuts once.  `lines` takes line feeds as ends
of lines, forgets one carriage return before each, and counts no line after the last end.
-/

namespace PluginHost.Text

/-- What follows the given beginning of a text, if the text has that beginning. -/
def dropStart : List Char → List Char → Option (List Char)
  | [], cs => some cs
  | _ :: _, [] => none
  | p :: ps, c :: cs => if p = c then dropStart ps cs else none

/-- A text has a beginning and a rest exactly when it is the one before the other. -/
theorem dropStart_eq_some_iff {start cs rest : List Char} :
  dropStart start cs = some rest ↔ cs = start ++ rest
  := by
  induction start generalizing cs with
  | nil => simp [dropStart]
  | cons p ps ih =>
    cases cs with
    | nil => simp [dropStart]
    | cons c cs =>
      by_cases h : p = c
      · simp [dropStart, h, ih]
      · have h' : c ≠ p := fun e => h e.symm
        simp [dropStart, h, h']

/-- The pieces between the occurrences of a separating character. -/
def splitOn (sep : Char) : List Char → List (List Char)
  | [] => [[]]
  | c :: cs =>
    if c = sep then [] :: splitOn sep cs
    else match splitOn sep cs with
      | [] => [[c]]
      | piece :: pieces => (c :: piece) :: pieces

/-- There is always a first piece. -/
theorem splitOn_ne_nil (sep : Char) (cs : List Char) :
  splitOn sep cs ≠ []
  := by
  cases cs with
  | nil => simp [splitOn]
  | cons c cs =>
    simp only [splitOn]
    split
    · simp
    · split <;> simp

/-- The pieces of two texts with a separator between them are those of the one before those of
the other. -/
theorem splitOn_append (sep : Char) (front back : List Char) :
  splitOn sep (front ++ sep :: back) = splitOn sep front ++ splitOn sep back
  := by
  induction front with
  | nil => simp [splitOn]
  | cons c cs ih =>
    rw [List.cons_append, splitOn, splitOn, ih]
    split
    · rfl
    · cases hpieces : splitOn sep cs with
      | nil => cases splitOn_ne_nil sep cs hpieces
      | cons piece pieces => rfl

/-- A text without the separator is one piece. -/
theorem splitOn_of_not_mem {sep : Char} {cs : List Char} (h : sep ∉ cs) :
  splitOn sep cs = [cs]
  := by
  induction cs with
  | nil => rfl
  | cons c cs ih =>
    obtain ⟨hc, hcs⟩ := not_or.1 (mt List.mem_cons.2 h)
    rw [splitOn, if_neg (Ne.symm hc), ih hcs]

/-- A separator at the end is followed by one more piece, which is empty. -/
theorem splitOn_concat (sep : Char) (cs : List Char) :
  splitOn sep (cs ++ [sep]) = splitOn sep cs ++ [[]]
  := splitOn_append sep cs []

/-- The text before the first occurrence of a separator and the text after it. -/
def cutFirst (sep : List Char) : List Char → Option (List Char × List Char)
  | [] => if sep.isEmpty then some ([], []) else none
  | c :: cs =>
    match dropStart sep (c :: cs) with
    | some rest => some ([], rest)
    | none => (cutFirst sep cs).map fun (before, rest) => (c :: before, rest)

/-- The two parts of a cut with the separator between them are the whole text. -/
theorem eq_of_cutFirst {sep : List Char} :
    ∀ {cs before rest : List Char}, cutFirst sep cs = some (before, rest) →
  cs = before ++ sep ++ rest
  | [], before, rest, h => by
    simp only [cutFirst] at h
    split at h
    · simp_all
    · simp at h
  | c :: cs, before, rest, h => by
    simp only [cutFirst] at h
    split at h
    · rename_i r hr
      obtain ⟨rfl, rfl⟩ := by simpa using h
      simpa using dropStart_eq_some_iff.1 hr
    · obtain ⟨⟨b, r⟩, hr, h'⟩ := Option.map_eq_some_iff.1 h
      obtain ⟨rfl, rfl⟩ := by simpa using h'
      simpa using eq_of_cutFirst hr

/-- What follows the first occurrence of a non-empty separator is shorter than the text. -/
theorem length_lt_of_cutFirst {sep cs before rest : List Char} (hsep : sep ≠ [])
    (h : cutFirst sep cs = some (before, rest)) :
  rest.length < cs.length
  := by
  have : 0 < sep.length := List.length_pos_iff.2 hsep
  rw [eq_of_cutFirst h]
  simp
  omega

/-- The pieces between the occurrences of a separator of at least one character. -/
def splitOnText (sep : List Char) (hsep : sep ≠ []) (cs : List Char) : List (List Char) :=
  match _h : cutFirst sep cs with
  | none => [cs]
  | some (before, rest) => before :: splitOnText sep hsep rest
termination_by cs.length
decreasing_by exact length_lt_of_cutFirst hsep _h

/-- A line without the carriage return that may end it. -/
def dropReturn (line : List Char) : List Char :=
  if line.getLast? = some '\r' then line.dropLast else line

/-- The lines of a text; the text after the last line feed is a line only if it is not empty. -/
def lines (cs : List Char) : List (List Char) :=
  let pieces := splitOn '\n' cs
  let ended := pieces.dropLast.map dropReturn
  match pieces.getLast? with
  | some [] | none => ended
  | some last => ended ++ [last]

end PluginHost.Text

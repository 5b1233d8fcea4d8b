/-!
# Words without letter case

Command words, archive suffixes and URL schemes are compared without regard to the case of
ASCII letters; every other character stands for itself.  `foldChars` gives the representative of a
word, and `sameWord` holds of two words with one representative, so it is an equivalence.
-/

namespace PluginHost.Text

/-- The characters with ASCII capitals made small. -/
def foldChars (cs : List Char) : List Char := cs.map Char.toLower

/-- Whether two words differ at most in the case of ASCII letters. -/
def sameWord (a b : String) : Bool := foldChars a.toList == foldChars b.toList

theorem sameWord_iff {a b : String} :
  sameWord a b = true ↔ foldChars a.toList = foldChars b.toList
  := by
  simp [sameWord]

theorem sameWord_refl (a : String) :
  sameWord a a = true
  := by
  simp [sameWord]

theorem sameWord_comm (a b : String) :
  sameWord a b = sameWord b a
  := by
  rw [Bool.eq_iff_iff, sameWord_iff, sameWord_iff]
  exact eq_comm

theorem sameWord_trans {a b c : String} (h : sameWord a b = true) (h' : sameWord b c = true) :
  sameWord a c = true
  := by
  rw [sameWord_iff] at *
  exact h.trans h'

end PluginHost.Text

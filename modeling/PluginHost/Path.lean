import PluginHost.Text.Split

/-!
# Paths

A path is its text; the character `/` separates its pieces, and nothing is normalised except
by `absolute`.  A piece that is empty, or a single dot anywhere but at the front of a relative
path, names nothing, and the other pieces are the names of the path.  `join` puts one path
after another, and an absolute path in second place stands alone.
-/

namespace PluginHost

/-- A path, as written. -/
structure Path where
  text : String
  deriving DecidableEq, Repr, Inhabited

namespace Path

/-- The texts between the separators. -/
def pieces (p : Path) : List String := (Text.splitOn '/' p.text.toList).map String.ofList

/-- The last piece of a path that ends in a separator is empty. -/
theorem pieces_of_slash {p : Path} (h : p.text.toList.getLast? = some '/') :
  ∃ front, p.pieces = front ++ [""]
  := by
  obtain ⟨cs, hcs⟩ := List.getLast?_eq_some_iff.1 h
  rw [pieces, hcs, Text.splitOn_concat, List.map_append]
  exact ⟨_, rfl⟩

/-- The path with the given texts between the separators. -/
def ofPieces (ps : List String) : Path := ⟨"/".intercalate ps⟩

/-- Whether the path starts at the root. -/
def isAbsolute (p : Path) : Bool := p.text.toList.head? == some '/'

/-- The second path seen from the first.  A separator is put between them unless the first is
empty or ends in one. -/
def join (p q : Path) : Path :=
  if q.isAbsolute then q
  else if p.text.toList.getLast?.all (· == '/') then ⟨p.text ++ q.text⟩
  else ⟨p.text ++ "/" ++ q.text⟩

/-- The path of an entry below the given one. -/
def below (p : Path) (name : String) : Path := p.join ⟨name⟩

/-- Whether the piece at an index names something. -/
def isName (index : Nat) (piece : String) : Bool :=
  piece != "" && (piece != "." || index == 0)

/-- The pieces up to the last one that names something, and the number before it. -/
def namedPieces (ps : List String) : List String :=
  ((ps.zipIdx.reverse.dropWhile fun (piece, i) => !isName i piece).reverse).map (·.1)

/-- The path without its last name, if it has a name. -/
def parent? (p : Path) : Option Path :=
  match namedPieces p.pieces with
  | [] => none
  | named@(_ :: _) =>
    match namedPieces named.dropLast with
    | [] => some ⟨if p.isAbsolute then "/" else ""⟩
    | front => some (ofPieces front)

/-- The path itself and the paths above it, nearest first. -/
def ancestors (p : Path) : List Path := go p.text.length p
where
  /-- The path and at most the given number of paths above it. -/
  go : Nat → Path → List Path
    | 0, p => [p]
    | n + 1, p => p :: (p.parent?.elim [] (go n))

/-- The path without the separators at its end; the root keeps its own. -/
def trimmed (p : Path) : Path :=
  match (p.text.toList.reverse.dropWhile (· == '/')).reverse with
  | [] => p
  | body => ⟨String.ofList body⟩

/-- The names of the path; a dot in front of a relative path is one of them. -/
def names (p : Path) : List String :=
  (p.pieces.zipIdx.filter fun (piece, i) => isName i piece).map (·.1)

/-- A relative path seen from a directory: the names of the path after that directory, except
for a dot in front, with a separator at the end if the path has one. -/
def absolute (here p : Path) : Path :=
  if p.isAbsolute then p
  else
    let names := if p.names.head? = some "." then p.names.tail else p.names
    let whole := names.foldl below here
    if p.text.toList.getLast? = some '/' then whole.below "" else whole

/-! ### Absolute paths -/

/-- A path stays absolute if something is written behind it. -/
theorem isAbsolute_append {p : Path} (h : p.isAbsolute = true) (rest : String) :
  isAbsolute ⟨p.text ++ rest⟩ = true
  := by
  simp only [isAbsolute, beq_iff_eq] at h ⊢
  rw [String.toList_append, List.head?_append, h]
  rfl

/-- Whatever is seen from an absolute path is absolute. -/
theorem isAbsolute_join {p : Path} (h : p.isAbsolute = true) (q : Path) :
  (p.join q).isAbsolute = true
  := by
  unfold join
  split
  · assumption
  · split
    · apply isAbsolute_append h
    · rw [String.append_assoc]
      apply isAbsolute_append h

theorem isAbsolute_below {p : Path} (h : p.isAbsolute = true) (name : String) :
  (p.below name).isAbsolute = true
  := isAbsolute_join h ⟨name⟩

theorem isAbsolute_foldl_below {p : Path} (h : p.isAbsolute = true) (names : List String) :
  (names.foldl below p).isAbsolute = true
  := by
  induction names generalizing p with
  | nil => apply h
  | cons name rest ih => apply ih (isAbsolute_below h name)

/-- Whether the first name of the path is the tilde, which stands for a home directory. -/
def isHome (p : Path) : Bool := p.names.head? == some "~"

example : parent? ⟨"/a//b/c/."⟩ = some ⟨"/a//b"⟩ := by decide +kernel

example : parent? ⟨"a"⟩ = some ⟨""⟩ ∧ parent? ⟨"/"⟩ = none := by decide +kernel

example : absolute ⟨"/w"⟩ ⟨"./../x//y/"⟩ = ⟨"/w/../x/y/"⟩ := by decide +kernel

end Path

end PluginHost

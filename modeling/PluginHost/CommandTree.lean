import PluginHost.Path
import PluginHost.Text.Fold

/-!
# Command trees

A command tree is a command, which a handler runs, or a group of command trees.  Every node has
a name and further words, its aliases, and answers to each of them in letters of any case.
`find?` follows a list of words from a group to the first child that answers to each.
`outline` shows a tree with one line for each node, two spaces deeper for each level.
-/

namespace PluginHost

/-- What runs when a command is called: a part of the program, or a file of a plugin. -/
inductive Handler where
  | builtin (id : String)
  | file (path : Path)
  deriving DecidableEq, Repr

/-- The text that shows a handler. -/
def Handler.text : Handler → String
  | builtin id => "builtin:" ++ id
  | file path => path.text

/-- What a command and a group have in common. -/
structure Label where
  name : String
  description : String
  aliases : List String
  summary : Option String
  deriving DecidableEq, Repr

/-- The words of a label, its name first. -/
def Label.words (l : Label) : List String := l.name :: l.aliases

/-- A command, or a group of command trees. -/
inductive CommandTree where
  | command (label : Label) (handler : Handler)
  | group (label : Label) (children : List CommandTree)
  deriving Repr

namespace CommandTree

mutual

/-- Equality of command trees can be decided. -/
def decideEq : (a b : CommandTree) → Decidable (a = b)
  | .command l h, .command l' h' =>
    if e : l = l' ∧ h = h' then isTrue (by rw [e.1, e.2])
    else isFalse fun eq => e (by simpa using eq)
  | .group l cs, .group l' cs' =>
    match decideEqs cs cs' with
    | isTrue ec =>
      if el : l = l' then isTrue (by rw [el, ec])
      else isFalse fun eq => el (by simpa using (group.inj eq).1)
    | isFalse ec => isFalse fun eq => ec (group.inj eq).2
  | .command .., .group .. => isFalse nofun
  | .group .., .command .. => isFalse nofun

/-- Equality of lists of command trees can be decided. -/
def decideEqs : (as bs : List CommandTree) → Decidable (as = bs)
  | [], [] => isTrue rfl
  | a :: as, b :: bs =>
    match decideEq a b, decideEqs as bs with
    | isTrue e, isTrue es => isTrue (by rw [e, es])
    | isFalse e, _ => isFalse fun eq => e (List.cons.inj eq).1
    | _, isFalse es => isFalse fun eq => es (List.cons.inj eq).2
  | [], _ :: _ => isFalse nofun
  | _ :: _, [] => isFalse nofun

end

instance : DecidableEq CommandTree := decideEq

/-- A command without aliases and summary. -/
def plainCommand (name description : String) (handler : Handler) : CommandTree :=
  .command ⟨name, description, [], none⟩ handler

/-- A group without aliases and summary. -/
def plainGroup (name description : String) (children : List CommandTree) : CommandTree :=
  .group ⟨name, description, [], none⟩ children

/-- The label of a node. -/
def label : CommandTree → Label
  | command l _ => l
  | group l _ => l

/-- The name of a node. -/
def name (t : CommandTree) : String := t.label.name

/-- The aliases of a node. -/
def aliases (t : CommandTree) : List String := t.label.aliases

/-- The words of a node, its name first. -/
def words (t : CommandTree) : List String := t.label.words

/-- The node with other aliases. -/
def replaceAliases (t : CommandTree) (aliases : List String) : CommandTree :=
  match t with
  | command l h => command { l with aliases } h
  | group l cs => group { l with aliases } cs

/-- Whether a node is a group. -/
def isGroup : CommandTree → Bool
  | command .. => false
  | group .. => true

/-- The children of a group; a command has none. -/
def children : CommandTree → List CommandTree
  | command .. => []
  | group _ cs => cs

/-- The group with other children, if the node is a group. -/
def withChildren? (t : CommandTree) (children : List CommandTree) : Option CommandTree :=
  match t with
  | command .. => none
  | group l _ => some (group l children)

/-! ### Words -/

/-- Whether a node answers to a word. -/
def hasWord (t : CommandTree) (word : String) : Bool := t.words.any (Text.sameWord · word)

/-- The first child that answers to a word. -/
def child? (t : CommandTree) (word : String) : Option CommandTree :=
  t.children.find? (·.hasWord word)

/-- The node that a list of words leads to. -/
def find? (t : CommandTree) : List String → Option CommandTree
  | [] => some t
  | word :: path => (t.child? word).bind fun c => c.find? path

/-! ### Counting and showing -/

mutual

/-- The number of commands in a tree. -/
def countCommands : CommandTree → Nat
  | .command .. => 1
  | .group _ cs => countEach cs

/-- The number of commands in a list of trees. -/
def countEach : List CommandTree → Nat
  | [] => 0
  | c :: cs => countCommands c + countEach cs

end

/-- The line that shows a node at a depth: its name, its aliases between parentheses, and a
slash if it is a group. -/
def outlineLine (depth : Nat) (t : CommandTree) : String :=
  let margin := String.ofList (List.replicate (2 * depth) ' ')
  let aliases := if t.aliases.isEmpty then "" else " (" ++ ", ".intercalate t.aliases ++ ")"
  margin ++ t.name ++ aliases ++ (if t.isGroup then "/" else "")

mutual

/-- The lines that show a tree at a depth. -/
def outlineLines (depth : Nat) : CommandTree → List String
  | .command l h => [outlineLine depth (.command l h)]
  | .group l cs => outlineLine depth (.group l cs) :: outlinesLines (depth + 1) cs

/-- The lines that show a list of trees at a depth. -/
def outlinesLines (depth : Nat) : List CommandTree → List String
  | [] => []
  | c :: cs => outlineLines depth c ++ outlinesLines depth cs

end

/-- The lines that show a tree, joined by line feeds. -/
def outline (t : CommandTree) : String := "\n".intercalate (outlineLines 0 t)

end CommandTree

end PluginHost

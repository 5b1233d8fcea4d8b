import PluginHost.CommandTree
import PluginHost.Manifest

/-!
# Composition

A plugin adds one group to the command tree of the host.  `candidate` builds that group from
the manifest of the plugin, where a definition that lacks something is left out together with
what is inside it.  `clash?` finds the first word of a candidate that a child of the tree
already has, in letters of any case.  `adopt` puts a candidate behind the children of the tree,
and `dropChild` takes the first child of a name out again.
-/

namespace PluginHost

/-! ### Candidates -/

namespace Definition

mutual

/-- The node that a definition describes, if it is complete.  The function finds the files of
handlers. -/
def node? (locate : String → Option Path) : Definition → Option CommandTree
  | ⟨name, kind, description, aliases, summary, handler, children⟩ => do
    let label : Label := ⟨← name, ← description, aliases, summary⟩
    match ← kind with
    | "command" => return .command label (.file (← locate (← handler)))
    | "group" =>
      match childNodes locate children with
      | [] => none
      | nodes => return .group label nodes
    | _ => none

/-- The nodes that the children of a group describe. -/
def childNodes (locate : String → Option Path) : Option (List Definition) → List CommandTree
  | none => []
  | some ds => nodes locate ds

/-- The nodes that the complete ones among some definitions describe. -/
def nodes (locate : String → Option Path) : List Definition → List CommandTree
  | [] => []
  | d :: ds => (node? locate d).toList ++ nodes locate ds

end

end Definition

/-- The group that a plugin adds to the command tree. -/
def Manifest.candidate (locate : String → Option Path) (m : Manifest) : CommandTree :=
  .group ⟨m.name, m.description.getD "", m.aliases, m.summary⟩
    (Definition.childNodes locate m.definitions)

/-! ### Clashes of words -/

/-- What a word of a node is. -/
inductive WordKind where
  | name
  | aliasWord
  deriving DecidableEq, Repr

/-- The text that shows what a word is. -/
def WordKind.label : WordKind → String
  | name => "name"
  | aliasWord => "alias"

/-- A word that a candidate and an existing node have in common, up to the case of letters. -/
structure Clash where
  kind : WordKind
  word : String
  existingKind : WordKind
  existingWord : String
  existingName : String
  deriving DecidableEq, Repr

/-- The wording of a clash. -/
def Clash.message (c : Clash) : String :=
  "The plugin's command group " ++ c.kind.label ++ " '" ++ c.word ++ "' conflicts with the "
    ++ c.existingKind.label ++ " '" ++ c.existingWord ++ "' of the existing command '"
    ++ c.existingName ++ "'"

namespace CommandTree

/-- The words of a node and what they are, its name first. -/
def kindedWords (t : CommandTree) : List (WordKind × String) :=
  (.name, t.name) :: t.aliases.map fun a => (.aliasWord, a)

/-- The first of the words of an existing node that a word is, up to the case of letters. -/
def clashWith? (word : WordKind × String) (existing : CommandTree) : Option Clash :=
  existing.kindedWords.findSome? fun e =>
    if Text.sameWord word.2 e.2 then some ⟨word.1, word.2, e.1, e.2, existing.name⟩ else none

/-- The first word of a candidate that a child of the tree has too. -/
def clash? (t candidate : CommandTree) : Option Clash :=
  candidate.kindedWords.findSome? fun word => t.children.findSome? (clashWith? word)

end CommandTree

/-! ### Adoption -/

/-- The reasons for which a group cannot be added to a tree. -/
inductive AdoptionError where
  | noGroup (root : String)
  | nameTaken (name : String)
  deriving DecidableEq, Repr

/-- The wording of a reason. -/
def AdoptionError.message : AdoptionError → String
  | noGroup root =>
    "Cannot add the plugin's commands: the host command tree '" ++ root ++ "' is not a group"
  | nameTaken name =>
    "Cannot add the plugin's command group '" ++ name
      ++ "': a command with that name already exists"

namespace CommandTree

/-- The tree with a candidate behind its children; no child may have the very same name. -/
def adopt : CommandTree → CommandTree → Except AdoptionError CommandTree
  | .command l _, _ => .error (.noGroup l.name)
  | .group l cs, candidate =>
    if cs.any (·.name == candidate.name) then .error (.nameTaken candidate.name)
    else .ok (.group l (cs ++ [candidate]))

/-- The first child of a name, and the tree without it. -/
def dropChild? (t : CommandTree) (name : String) : Option (CommandTree × CommandTree) :=
  match t with
  | .command .. => none
  | .group l cs =>
    (cs.find? (·.name == name)).map fun found => (found, .group l (cs.eraseP (·.name == name)))

end CommandTree

end PluginHost

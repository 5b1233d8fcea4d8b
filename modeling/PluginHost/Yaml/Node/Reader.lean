import PluginHost.Yaml.Node
import PluginHost.Yaml.Token.Reader

/-!
# Reading nodes of YAML

`Node.read?` gives the one document of a text.  Where a node may stand but nothing is written
there is an empty scalar.  A block sequence that is the value of a mapping need not be indented,
and then it has no start and end of its own.
-/

namespace PluginHost.Yaml

/-- The tokens that are left, and the names of anchors with their numbers so far. -/
structure Remaining where
  tokens : List Token
  anchors : List (List Char × Nat)

/-- Gives an anchor the number of the names that are known. -/
def Remaining.declare (r : Remaining) (name : List Char) : Remaining :=
  let id := r.anchors.length
  if r.anchors.any fun a => a.1 == name then
    { r with anchors := r.anchors.map fun a => if a.1 == name then (name, id) else a }
  else { r with anchors := r.anchors ++ [(name, id)] }

/-- A reader of a part of a document. -/
abbrev NodeReader := StateT Remaining Option

namespace NodeReader

/-- The next token, which stays. -/
def peek : NodeReader (Option Token) := return (← get).tokens.head?

/-- Passes over the next token. -/
def advance : NodeReader Unit := modify fun r => { r with tokens := r.tokens.tail }

/-- Passes over the next token if it is the given one. -/
def accept (t : Token) : NodeReader Bool := do
  if (← peek) = some t then
    advance
    return true
  else return false

/-- Passes over the given token, which has to be next. -/
def expect (t : Token) : NodeReader Unit := do
  if !(← accept t) then failure

/-- Whether the next token is one of some. -/
def atAny (ts : List Token) : NodeReader Bool := return (← peek).any ts.contains

/-- Declares an anchor and gives its number. -/
def declare (name : List Char) : NodeReader Nat := do
  let r ← get
  set (r.declare name)
  return r.anchors.length

/-- The tags that the handles of a document stand for. -/
abbrev Handles := List (List Char × List Char)

/-- The handles that every document has. -/
def defaultHandles : Handles := [(['!'], ['!']), (['!', '!'], "tag:yaml.org,2002:".toList)]

/-- A tag in full. -/
def fullTag (handles : Handles) (handle suffix : List Char) : NodeReader (List Char) :=
  if handle.isEmpty then return suffix
  else match handles.find? fun h => h.1 == handle with
    | some h => return h.2 ++ suffix
    | none => failure

/-- An anchor, if one is next. -/
def anchor? : NodeReader (Option (List Char)) := do
  match ← peek with
  | some (.anchor name) =>
    advance
    return some name
  | _ => return none

/-- A tag, if one is next. -/
def tag? (handles : Handles) : NodeReader (Option (List Char)) := do
  match ← peek with
  | some (.tag handle suffix) =>
    advance
    return some (← fullTag handles handle suffix)
  | _ => return none

/-- The anchor and the tag of a node, in either order. -/
def properties (handles : Handles) : NodeReader (Option (List Char) × Option (List Char)) := do
  match ← anchor? with
  | some name => return (some name, ← tag? handles)
  | none =>
    let tag ← tag? handles
    return (← anchor?, tag)

/-- Where a node stands: inside a flow collection, in a block, or as the key or value of a block
mapping, where a sequence need not be indented. -/
inductive Position where
  | flow
  | block
  | entry
  deriving DecidableEq

/-- An empty scalar. -/
def emptyNode : Node := Node.empty Properties.none

mutual

/-- A node; the number bounds the depth of the reading. -/
def node (handles : Handles) (pos : Position) : Nat → NodeReader Node
  | 0 => failure
  | n + 1 => do
    match ← peek with
    | some (.reference name) =>
      advance
      match (← get).anchors.find? fun a => a.1 == name with
      | some (_, id) => return .reference id
      | none => failure
    | _ =>
      let (name, tag) ← properties handles
      let p : Properties := ⟨← name.mapM declare, tag⟩
      match ← peek with
      | some (.scalar style text) =>
        advance
        return .scalar { p with tag := p.tag.filter (· ≠ ['!']) } style text
      | some .blockEntry =>
        if pos = .entry then return .sequence p (← bareItems handles n)
        else if name.isSome || tag.isSome then return Node.empty p
        else failure
      | some .flowSequence =>
        advance
        return .sequence p (← flowItems handles true n)
      | some .flowMapping =>
        advance
        return .mapping p (← flowEntries handles true n)
      | some .blockSequence =>
        if pos ≠ .flow then
          advance
          return .sequence p (← blockItems handles n)
        else if name.isSome || tag.isSome then return Node.empty p
        else failure
      | some .blockMapping =>
        if pos ≠ .flow then
          advance
          return .mapping p (← blockEntries handles n)
        else if name.isSome || tag.isSome then return Node.empty p
        else failure
      | _ => if name.isSome || tag.isSome then return Node.empty p else failure

/-- A node, or an empty scalar where the next token is one of some. -/
def nodeUnless (handles : Handles) (pos : Position) (ts : List Token) : Nat → NodeReader Node
  | 0 => failure
  | n + 1 => do
    if ← atAny ts then return emptyNode else node handles pos n

/-- The items of a block sequence up to its end. -/
def blockItems (handles : Handles) : Nat → NodeReader (List Node)
  | 0 => failure
  | n + 1 => do
    if ← accept .blockEntry then
      let item ← nodeUnless handles .block [.blockEntry, .blockEnd] n
      return item :: (← blockItems handles n)
    else
      expect .blockEnd
      return []

/-- The items of a block sequence that is not indented. -/
def bareItems (handles : Handles) : Nat → NodeReader (List Node)
  | 0 => failure
  | n + 1 => do
    if ← accept .blockEntry then
      let item ← nodeUnless handles .block [.blockEntry, .key, .value, .blockEnd] n
      return item :: (← bareItems handles n)
    else return []

/-- The entries of a block mapping up to its end. -/
def blockEntries (handles : Handles) : Nat → NodeReader (List (Node × Node))
  | 0 => failure
  | n + 1 => do
    if ← accept .key then
      let key ← nodeUnless handles .entry [.key, .value, .blockEnd] n
      let value ← blockValue handles n
      return (key, value) :: (← blockEntries handles n)
    else
      expect .blockEnd
      return []

/-- The value of an entry of a block mapping. -/
def blockValue (handles : Handles) : Nat → NodeReader Node
  | 0 => failure
  | n + 1 => do
    if ← accept .value then nodeUnless handles .entry [.key, .value, .blockEnd] n
    else return emptyNode

/-- The items of a flow sequence up to its end; each but the first comes after a comma. -/
def flowItems (handles : Handles) (isFirst : Bool) : Nat → NodeReader (List Node)
  | 0 => failure
  | n + 1 => do
    if ← accept .flowSequenceEnd then return []
    else
      if !isFirst then expect .flowEntry
      if ← accept .key then
        let entry ← flowPair handles n
        return .mapping Properties.none [entry] :: (← flowItems handles false n)
      else if ← accept .flowSequenceEnd then return []
      else
        let item ← node handles .flow n
        return item :: (← flowItems handles false n)

/-- The one entry of a mapping without braces, after the mark of its key.  Where the key is
missing the token in its place is passed over. -/
def flowPair (handles : Handles) : Nat → NodeReader (Node × Node)
  | 0 => failure
  | n + 1 => do
    let key ←
      if ← atAny [.value, .flowEntry, .flowSequenceEnd] then
        advance
        pure emptyNode
      else node handles .flow n
    if ← accept .value then
      return (key, ← nodeUnless handles .flow [.flowEntry, .flowSequenceEnd] n)
    else return (key, emptyNode)

/-- The entries of a flow mapping up to its end; each but the first comes after a comma. -/
def flowEntries (handles : Handles) (isFirst : Bool) : Nat → NodeReader (List (Node × Node))
  | 0 => failure
  | n + 1 => do
    if ← accept .flowMappingEnd then return []
    else
      if !isFirst then expect .flowEntry
      if ← accept .key then
        let key ← nodeUnless handles .flow [.value, .flowEntry, .flowMappingEnd] n
        let value ← flowValue handles n
        return (key, value) :: (← flowEntries handles false n)
      else if ← accept .flowMappingEnd then return []
      else
        let key ← node handles .flow n
        return (key, emptyNode) :: (← flowEntries handles false n)

/-- The value of an entry of a flow mapping. -/
def flowValue (handles : Handles) : Nat → NodeReader Node
  | 0 => failure
  | n + 1 => do
    if ← accept .value then nodeUnless handles .flow [.flowEntry, .flowMappingEnd] n
    else return emptyNode

end

/-! ### Documents -/

/-- The directives of a document: whether a version has been given, and the handles. -/
def directives (versionSeen : Bool) (handles : Handles) : Nat → NodeReader (Bool × Handles)
  | 0 => failure
  | n + 1 => do
    match ← peek with
    | some (.versionDirective major minor) =>
      if versionSeen || major ≠ 1 || (minor ≠ 1 && minor ≠ 2) then failure
      advance
      directives true handles n
    | some (.tagDirective handle start) =>
      if handles.any (·.1 == handle) then failure
      advance
      directives versionSeen (handles ++ [(handle, start)]) n
    | _ => return (versionSeen, handles)

/-- The handles of a document with those that every document has. -/
def withDefaults (handles : Handles) : Handles :=
  handles ++ defaultHandles.filter fun d => !handles.any (·.1 == d.1)

/-- Passes over the marks that end a document. -/
def skipEnds : Nat → NodeReader Unit
  | 0 => return ()
  | n + 1 => do if ← accept .documentEnd then skipEnds n

/-- The document after a start mark and directives, which is empty if nothing follows. -/
def explicitDocument (n : Nat) : NodeReader Node := do
  let (_, handles) ← directives false [] n
  expect .documentStart
  match ← peek with
  | none | some .documentStart | some .documentEnd => return emptyNode
  | some (.versionDirective ..) | some (.tagDirective ..) => return emptyNode
  | _ => node (withDefaults handles) .block n

/-- Whether a document begins at the next token without a mark. -/
def beginsBare : NodeReader Bool := do
  match ← peek with
  | none | some .documentStart => return false
  | some (.versionDirective ..) | some (.tagDirective ..) => return false
  | _ => return true

/-- The only document of the tokens, if there is one. -/
def document? (n : Nat) : NodeReader (Option Node) := do
  if (← peek).isNone then return none
  else
    let root ← if ← beginsBare then node defaultHandles .block n else explicitDocument n
    skipEnds n
    if (← peek).isSome then failure
    return some root

end NodeReader

/-- The document of a text, which is missing in a text without content.  A text that is no YAML
or has several documents gives nothing. -/
def Node.read? (text : String) : Option (Option Node) := do
  let tokens ← Token.read? text
  let (root, _) ← (NodeReader.document? (4 * tokens.length + 4)).run ⟨tokens, []⟩
  return root

end PluginHost.Yaml

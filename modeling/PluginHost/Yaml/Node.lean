import PluginHost.Yaml.Scalar

/-!
# Nodes of YAML

A document of YAML is a tree of scalars, sequences and mappings.  A node may have a tag and an
anchor, and a reference stands for the node of an anchor.  Anchors are numbered; `find?` gives the
node of a number.
-/

namespace PluginHost.Yaml

/-- What a node may carry beside its content. -/
structure Properties where
  anchor : Option Nat
  tag : Option (List Char)
  deriving DecidableEq, Repr

/-- No properties. -/
def Properties.none : Properties := ⟨Option.none, Option.none⟩

/-- A node of a document. -/
inductive Node where
  | scalar (properties : Properties) (style : ScalarStyle) (text : List Char)
  | sequence (properties : Properties) (items : List Node)
  | mapping (properties : Properties) (entries : List (Node × Node))
  | reference (anchor : Nat)
  deriving Repr

namespace Node

/-- The scalar that stands where nothing is written. -/
def empty (p : Properties) : Node := .scalar p .plain []

/-- The anchor of a node. -/
def anchor? : Node → Option Nat
  | scalar p _ _ => p.anchor
  | sequence p _ => p.anchor
  | mapping p _ => p.anchor
  | reference _ => none

mutual

/-- The last node with an anchor of a number in a tree, where a node comes before those inside
it. -/
def find? (id : Nat) : Node → Option Node
  | .scalar p style text => if p.anchor = some id then some (.scalar p style text) else none
  | .sequence p items =>
    (findItem? id items).or (if p.anchor = some id then some (.sequence p items) else none)
  | .mapping p entries =>
    (findInEntries? id entries).or (if p.anchor = some id then some (.mapping p entries) else none)
  | .reference _ => none

/-- The last node with an anchor of a number in a list of trees. -/
def findItem? (id : Nat) : List Node → Option Node
  | [] => none
  | item :: items => (findItem? id items).or (find? id item)

/-- The last node with an anchor of a number in the entries of a mapping. -/
def findInEntries? (id : Nat) : List (Node × Node) → Option Node
  | [] => none
  | (key, value) :: entries => (findInEntries? id entries).or ((find? id value).or (find? id key))

end

/-- The node that a reference stands for, and any other node itself. -/
def resolve? (root : Node) : Node → Option Node
  | .reference id => root.find? id
  | node => some node

end Node

end PluginHost.Yaml

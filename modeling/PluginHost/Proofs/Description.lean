import Mathlib.Data.List.Forall2
import Mathlib.Tactic.Use
import PluginHost.Loader

/-!
# Definitions and the nodes that they describe

A node is described by a definition (`Definition.Describes`) if it has the label of the definition
and either runs the file of its handler or has one child for each of its children, in order, each
described by that one.  The nodes that are built for a list of definitions leave out what is
incomplete, and the check of the list says what is incomplete.  The check finds nothing exactly if
every definition describes its own node (`Definition.listFindings_eq_nil_iff`), that is, if nothing
has been left out at any depth.
-/

namespace PluginHost

/-- The elements that a function keeps match the whole list exactly if it keeps every one of them
and each matches what becomes of it. -/
theorem forall₂_filterMap_iff {α β : Type} {R : α → β → Prop} {f : α → Option β} {l : List α} :
  List.Forall₂ R l (l.filterMap f) ↔ ∀ a ∈ l, ∃ b, f a = some b ∧ R a b
  := by
  induction l with
  | nil => simp
  | cons a rest ih =>
    rw [List.forall_mem_cons, ← ih]
    cases hf : f a with
    | none =>
      -- an element that is left out makes the second list too short
      rw [List.filterMap_cons_none hf]
      constructor
      · intro h
        have hlength := h.length_eq
        have hle := List.length_filterMap_le f rest
        rw [List.length_cons] at hlength
        omega
      · rintro ⟨⟨b, hb, -⟩, -⟩
        cases hb
    | some b => simp [List.filterMap_cons_some hf]

namespace Definition

variable {locate : String → Option Path} {root : Path}

/-! ### The structure of definitions -/

/-- The definitions inside a definition. -/
def inside (d : Definition) : List Definition := d.children.getD []

/-- What holds of a definition as soon as it holds of those inside it holds of all definitions. -/
@[elab_as_elim]
theorem inside_induction {P : Definition → Prop} (h : ∀ d, (∀ e ∈ d.inside, P e) → P d) :
    ∀ d, P d
  | ⟨name, kind, description, aliases, summary, handler, none⟩ => by
    apply h
    intro e he
    cases he
  | ⟨name, kind, description, aliases, summary, handler, some ds⟩ => by
    apply h
    intro e he
    have hsize : sizeOf e < sizeOf ds := List.sizeOf_lt_of_mem he
    apply inside_induction h e
  termination_by d => sizeOf d
  decreasing_by
    simp only [Definition.mk.sizeOf_spec, Option.some.sizeOf_spec]
    omega

/-- A label says what a definition declares about itself. -/
structure Labelled (d : Definition) (label : Label) : Prop where
  name : d.name = some label.name
  description : d.description = some label.description
  aliases : d.aliases = label.aliases
  summary : d.summary = label.summary

/-- A node is what a definition describes: a command that runs the file of the handler, or a group
of what the definitions inside describe. -/
inductive Describes (locate : String → Option Path) : Definition → CommandTree → Prop
  | command {d : Definition} {label : Label} {request : String} {path : Path}
      (hlabel : d.Labelled label) (hkind : d.kind = some "command")
      (hhandler : d.handler = some request) (hpath : locate request = some path) :
      Describes locate d (.command label (.file path))
  | group {d : Definition} {label : Label} {nodes : List CommandTree}
      (hlabel : d.Labelled label) (hkind : d.kind = some "group")
      (hinside : List.Forall₂ (Describes locate) d.inside nodes) :
      Describes locate d (.group label nodes)

/-- The node of a command runs the file that is located for its handler. -/
theorem Describes.of_command {d : Definition} {t : CommandTree} (h : Describes locate d t)
    (hkind : d.kind = some "command") :
  ∃ label request path, d.Labelled label ∧ d.handler = some request
    ∧ locate request = some path ∧ t = .command label (.file path)
  := by
  cases h with
  | command hlabel _ hhandler hpath => exact ⟨_, _, _, hlabel, hhandler, hpath, rfl⟩
  | group _ hgroup => simp [hkind] at hgroup

/-- The node of a group holds what the definitions inside describe. -/
theorem Describes.of_group {d : Definition} {t : CommandTree} (h : Describes locate d t)
    (hkind : d.kind = some "group") :
  ∃ label nodes, d.Labelled label ∧ List.Forall₂ (Describes locate) d.inside nodes
    ∧ t = .group label nodes
  := by
  cases h with
  | command _ hcommand => simp [hkind] at hcommand
  | group hlabel _ hinside => exact ⟨_, _, hlabel, hinside, rfl⟩

/-- Whether a definition is complete apart from what is inside it: it has a label, and it is a
command or a group. -/
def IsTyped (d : Definition) : Prop :=
  (∃ label, d.Labelled label) ∧ (d.kind = some "command" ∨ d.kind = some "group")

/-- A definition has a label as soon as it has a name and a description. -/
theorem exists_labelled {d : Definition} (hname : d.name.isSome = true)
    (hdescription : d.description.isSome = true) :
  ∃ label, d.Labelled label
  := by
  obtain ⟨name, hname⟩ := Option.isSome_iff_exists.1 hname
  obtain ⟨description, hdescription⟩ := Option.isSome_iff_exists.1 hdescription
  use ⟨name, description, d.aliases, d.summary⟩, hname, hdescription

/-! ### The nodes that are built -/

theorem nodes_eq_filterMap (ds : List Definition) :
  nodes locate ds = ds.filterMap (node? locate)
  := by
  induction ds with
  | nil => rfl
  | cons d rest ih =>
    rw [nodes, ih]
    cases h : node? locate d with
    | none =>
      rw [List.filterMap_cons_none h]
      rfl
    | some t =>
      rw [List.filterMap_cons_some h]
      rfl

theorem childNodes_eq_filterMap (children : Option (List Definition)) :
  childNodes locate children = (children.getD []).filterMap (node? locate)
  := by
  cases children with
  | none => rfl
  | some ds => apply nodes_eq_filterMap

/-- The node of a command runs the file of its handler, if there is one. -/
theorem node?_of_command {d : Definition} {label : Label} (hlabel : d.Labelled label)
    (hkind : d.kind = some "command") :
  node? locate d = (d.handler.bind locate).map fun path => .command label (.file path)
  := by
  obtain ⟨name, kind, description, aliases, summary, handler, children⟩ := d
  obtain ⟨rfl, rfl, rfl, rfl⟩ := hlabel
  obtain rfl := hkind
  cases handler with
  | none => rfl
  | some request =>
    rw [Option.bind_some]
    cases hpath : locate request with
    | none => simp [node?, hpath]
    | some path => simp [node?, hpath]

/-- The node of a group holds the nodes for what is inside it, if there are any. -/
theorem node?_of_group {d : Definition} {label : Label} (hlabel : d.Labelled label)
    (hkind : d.kind = some "group") :
  node? locate d
    = if d.inside.filterMap (node? locate) = [] then none
      else some (.group label (d.inside.filterMap (node? locate)))
  := by
  obtain ⟨name, kind, description, aliases, summary, handler, children⟩ := d
  obtain ⟨rfl, rfl, rfl, rfl⟩ := hlabel
  obtain rfl := hkind
  rw [inside, ← childNodes_eq_filterMap]
  simp only [node?]
  cases childNodes locate children with
  | nil => rfl
  | cons t rest => rfl

/-- A node is built only for a definition with a label and a kind. -/
theorem isTyped_of_node? {d : Definition} {t : CommandTree} (h : node? locate d = some t) :
  d.IsTyped
  := by
  obtain ⟨name, kind, description, aliases, summary, handler, children⟩ := d
  rw [node?] at h
  obtain ⟨name, rfl, hname⟩ := Option.bind_eq_some_iff.1 h
  obtain ⟨description, rfl, hdescription⟩ := Option.bind_eq_some_iff.1 hname
  obtain ⟨kind, rfl, hkind⟩ := Option.bind_eq_some_iff.1 hdescription
  use exists_labelled rfl rfl
  split at hkind
  · left
    rfl
  · right
    rfl
  · cases hkind

/-- A node that is built is a command with a located file, or a group of some nodes that are built
for what is inside the definition. -/
theorem cases_of_node? {d : Definition} {t : CommandTree} (h : node? locate d = some t) :
  (∃ label request path, locate request = some path ∧ t = .command label (.file path))
    ∨ ∃ label, d.inside.filterMap (node? locate) ≠ []
      ∧ t = .group label (d.inside.filterMap (node? locate))
  := by
  obtain ⟨⟨label, hlabel⟩, hkind | hkind⟩ := isTyped_of_node? h
  · left
    rw [node?_of_command hlabel hkind] at h
    obtain ⟨path, hpath, rfl⟩ := Option.map_eq_some_iff.1 h
    obtain ⟨request, -, hlocate⟩ := Option.bind_eq_some_iff.1 hpath
    use label, request, path, hlocate
  · right
    rw [node?_of_group hlabel hkind] at h
    split at h
    · cases h
    · next hne =>
      obtain rfl := Option.some.inj h
      use label, hne

/-! ### What is found wrong -/

/-- About a command with a label only its handler can be wrong. -/
theorem findings_of_command {d : Definition} {label : Label} (hlabel : d.Labelled label)
    (hkind : d.kind = some "command") (depth index : Nat) :
  findings locate root depth index d
    = (handlerDefects locate root d.handler).map (.defect ⟨depth, index, d.name⟩)
  := by
  obtain ⟨name, kind, description, aliases, summary, handler, children⟩ := d
  obtain ⟨rfl, rfl, rfl, rfl⟩ := hlabel
  obtain rfl := hkind
  rfl

/-- About a group with a label only what is inside it can be wrong. -/
theorem findings_of_group {d : Definition} {label : Label} (hlabel : d.Labelled label)
    (hkind : d.kind = some "group") (depth index : Nat) :
  findings locate root depth index d
    = childFindings locate root ⟨depth, index, d.name⟩ d.children
  := by
  obtain ⟨name, kind, description, aliases, summary, handler, children⟩ := d
  obtain ⟨rfl, rfl, rfl, rfl⟩ := hlabel
  obtain rfl := hkind
  rfl

/-- A definition about which nothing is found has a label and a kind. -/
theorem isTyped_of_findings {d : Definition} {depth index : Nat}
    (h : findings locate root depth index d = []) :
  d.IsTyped
  := by
  obtain ⟨name, kind, description, aliases, summary, handler, children⟩ := d
  simp only [findings, List.append_eq_nil_iff, List.map_eq_nil_iff, labelDefects] at h
  obtain ⟨⟨hname, hdescription⟩, hkind⟩ := h
  constructor
  · apply exists_labelled
    · cases name <;> simp at hname ⊢
    · cases description <;> simp at hdescription ⊢
  · split at hkind
    · cases hkind
    · left
      rfl
    · right
      rfl
    · cases hkind

theorem handlerDefects_eq_nil_iff {handler : Option String} :
  handlerDefects locate root handler = [] ↔ ∃ path, handler.bind locate = some path
  := by
  cases handler with
  | none => simp [handlerDefects]
  | some request =>
    rw [Option.bind_some, handlerDefects]
    cases locate request <;> simp

/-- Nothing is found inside a group exactly if there is something inside it and nothing is found
about that. -/
theorem childFindings_eq_nil_iff {place : Place} {d : Definition} :
  childFindings locate root place d.children = []
    ↔ d.inside ≠ [] ∧ listFindings locate root (place.depth + 1) 0 d.inside = []
  := by
  rw [inside]
  cases d.children with
  | none => simp [childFindings]
  | some ds =>
    cases ds with
    | nil => simp [childFindings]
    | cons e rest => simp [childFindings]

/-- If what is found about each definition of a list is nothing under a condition that its place
does not matter for, then so it is for the list. -/
theorem listFindings_eq_nil_iff_forall {P : Definition → Prop} {ds : List Definition} {depth : Nat}
    (h : ∀ d ∈ ds, ∀ index, findings locate root depth index d = [] ↔ P d) (index : Nat) :
  listFindings locate root depth index ds = [] ↔ ∀ d ∈ ds, P d
  := by
  induction ds generalizing index with
  | nil => simp [listFindings]
  | cons d rest ih =>
    obtain ⟨hd, hrest⟩ := List.forall_mem_cons.1 h
    rw [listFindings, List.append_eq_nil_iff, List.forall_mem_cons, hd, ih hrest]

/-! ### Complete definitions -/

/-- Whether the node that is built for a definition holds everything that it describes. -/
def IsComplete (locate : String → Option Path) (d : Definition) : Prop :=
  ∃ t, node? locate d = some t ∧ Describes locate d t

theorem isComplete_iff_of_command {d : Definition} {label : Label} (hlabel : d.Labelled label)
    (hkind : d.kind = some "command") :
  d.IsComplete locate ↔ ∃ path, d.handler.bind locate = some path
  := by
  rw [IsComplete, node?_of_command hlabel hkind]
  constructor
  · rintro ⟨t, ht, -⟩
    obtain ⟨path, hpath, -⟩ := Option.map_eq_some_iff.1 ht
    use path, hpath
  · rintro ⟨path, hpath⟩
    obtain ⟨request, hhandler, hlocate⟩ := Option.bind_eq_some_iff.1 hpath
    use .command label (.file path)
    rw [hpath]
    use rfl, .command hlabel hkind hhandler hlocate

theorem isComplete_iff_of_group {d : Definition} {label : Label} (hlabel : d.Labelled label)
    (hkind : d.kind = some "group") :
  d.IsComplete locate ↔ d.inside ≠ [] ∧ ∀ e ∈ d.inside, e.IsComplete locate
  := by
  have hmatch : List.Forall₂ (Describes locate) d.inside (d.inside.filterMap (node? locate))
      ↔ ∀ e ∈ d.inside, e.IsComplete locate := forall₂_filterMap_iff
  rw [IsComplete, node?_of_group hlabel hkind, ← hmatch]
  constructor
  · rintro ⟨t, ht, hdescribes⟩
    split at ht
    · cases ht
    · next hne =>
      obtain rfl := Option.some.inj ht
      constructor
      · intro hempty
        apply hne
        rw [hempty]
        rfl
      · cases hdescribes with
        | group _ _ hinside => apply hinside
  · rintro ⟨hne, hinside⟩
    have hnodes : d.inside.filterMap (node? locate) ≠ [] := by
      intro hempty
      rw [hempty] at hinside
      apply hne (List.forall₂_nil_right_iff.1 hinside)
    use .group label (d.inside.filterMap (node? locate))
    rw [if_neg hnodes]
    use rfl, .group hlabel hkind hinside

/-- Nothing is found wrong with a definition, wherever it stands, exactly if it is complete. -/
theorem findings_eq_nil_iff (d : Definition) (depth index : Nat) :
  findings locate root depth index d = [] ↔ d.IsComplete locate
  := by
  induction d using inside_induction generalizing depth index with
  | h d ih =>
    by_cases htyped : d.IsTyped
    · obtain ⟨⟨label, hlabel⟩, hkind | hkind⟩ := htyped
      · rw [findings_of_command hlabel hkind, List.map_eq_nil_iff, handlerDefects_eq_nil_iff,
          isComplete_iff_of_command hlabel hkind]
      · rw [findings_of_group hlabel hkind, childFindings_eq_nil_iff,
          isComplete_iff_of_group hlabel hkind,
          listFindings_eq_nil_iff_forall fun e he index => ih e he _ index]
    · -- neither a check without findings nor a node is possible
      constructor
      · intro h
        cases htyped (isTyped_of_findings h)
      · rintro ⟨t, ht, -⟩
        cases htyped (isTyped_of_node? ht)

/-- Nothing is found wrong with some definitions exactly if they describe the nodes that are built
for them, one each, in order. -/
theorem listFindings_eq_nil_iff (children : Option (List Definition)) (depth index : Nat) :
  listFindings locate root depth index (children.getD []) = []
    ↔ List.Forall₂ (Describes locate) (children.getD []) (childNodes locate children)
  := by
  rw [childNodes_eq_filterMap, forall₂_filterMap_iff]
  apply listFindings_eq_nil_iff_forall
  intro d _ index
  apply findings_eq_nil_iff

end Definition

/-- The check of the definitions of a plugin and the composition of its group agree, whatever files
there are and whichever requests are redirected.  The check notes nothing exactly if the group
has one child for each definition, in order, with nothing left out at any depth: a command has the
name, the description, the aliases and the summary of its definition and runs the file located
for its handler, and a group has those of its definition and, in turn, one child for each
definition inside. -/
theorem Manifest.nothing_noted_iff_nothing_left_out (m : Manifest) (r : Redirect) (files : Files)
    (i : Inspection) :
  i.note (Definition.listFindings (r.locate? files m.root) m.root 1 0 (m.definitions.getD [])) = i
    ↔ List.Forall₂ (Definition.Describes (r.locate? files m.root)) (m.definitions.getD [])
        (m.candidate (r.locate? files m.root)).children
  := by
  rw [Inspection.note_eq_self_iff, Definition.listFindings_eq_nil_iff]
  rfl

end PluginHost

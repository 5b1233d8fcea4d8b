import Mathlib
import PluginHost.Manifest
import PluginHost.Proofs.JsonRemoval

/-!
# Packages with missing fields

Every field of a package, of the block in it, of definitions and of profile types may be missing.
For each of these records, `prune` empties the fields that are removed, and its shape follows that
(`Definition.follows_shape`, by induction on the bound on the depth of nesting, and so on up to
`Package.follows_shape`).  An object of which any fields are removed is therefore still read, as what
it was with these fields empty, and a plugin is not refused for it
(`Package.missing_fields_are_read`).  Records have to be given as objects (`InObjects`): in an array a
field is found by its place, and an optional one may not be left out.
-/

namespace PluginHost

open Json

/-! ### Definitions -/

namespace Definition

mutual

/-- A definition where the fields that are removed are empty. -/
def prune (r : Removal) : Definition → Definition
  | ⟨name, kind, description, aliases, summary, handler, children⟩ => {
      name := r.keep "name" none name
      kind := r.keep "type" none kind
      description := r.keep "description" none description
      aliases := r.keep "aliases" [] aliases
      summary := r.keep "summary" none summary
      handler := r.keep "handler" none handler
      children := r.keep "children" none (pruneChildren (r.inside "children") children) }

/-- The children of a group where the fields that are removed are empty. -/
def pruneChildren (r : Removal) : Option (List Definition) → Option (List Definition)
  | none => none
  | some ds => some (pruneFrom r 0 ds)

/-- The definitions of a list from an index on, where the fields that are removed are empty. -/
def pruneFrom (r : Removal) (index : Nat) : List Definition → List Definition
  | [] => []
  | d :: ds => prune (r.below (.item index)) d :: pruneFrom r (index + 1) ds

end

variable {n : Nat} {members : List (Option String × Json)}

theorem pruneChildren_eq (r : Removal) (children : Option (List Definition)) :
  pruneChildren r children = children.map (r.each prune)
  := by
  cases children with
  | none => rfl
  | some ds =>
    rw [pruneChildren, Option.map_some]
    congr 1
    apply eq_mapIdx (fun _ => rfl) (fun _ _ _ => rfl) ds

theorem shapes_eq :
  shapes = list shape
  := by
  funext n value
  cases n <;> cases value <;> rfl

/-- The children of a definition are a list that may be left out. -/
theorem optional_shapes (n : Nat) (field : Field) :
  optional (fun _ value => shapes n value) n field = optional (list shape) n field
  := by
  rw [shapes_eq]
  cases field with
  | given value => cases value <;> rfl
  | omitted => rfl
  | pastEnd => rfl

/-- Whether a definition and those inside it are given as objects. -/
inductive InObjects : Json → Prop
  | object {members : List (Option String × Json)}
    (children : ∀ items, (some "children", .array items) ∈ members → ∀ item ∈ items, InObjects item) :
    InObjects (.object members)

/-- An object is a definition exactly if each of its fields is read. -/
theorem shape_object_eq_some_iff {d : Definition} :
  shape (n + 1) (.object members) = some d
    ↔ HasFields fieldNames members
      ∧ optional text n (fieldOf members "name") = some d.name
      ∧ optional text n (fieldOf members "type") = some d.kind
      ∧ optional text n (fieldOf members "description") = some d.description
      ∧ defaulted [] (list text) n (fieldOf members "aliases") = some d.aliases
      ∧ optional text n (fieldOf members "summary") = some d.summary
      ∧ optional text n (fieldOf members "handler") = some d.handler
      ∧ optional (list shape) n (fieldOf members "children") = some d.children
  := by
  obtain ⟨name, kind, description, aliases, summary, handler, children⟩ := d
  simp only [shape, fields?_object_eq_some_iff, fieldNames, List.map_cons, List.map_nil,
    Option.bind_eq_bind, Option.bind_eq_some_iff, Option.pure_def, Option.some.injEq, and_assoc,
    exists_and_left, exists_eq_left, optional_shapes, mk.injEq]
  grind

/-- A definition is read without fields that are removed from it, or from those inside it, and they are
empty. -/
theorem follows_shape (n : Nat) :
  Follows shape n InObjects prune
  := by
  -- children are read under the bound less two: one for the definition, and one for their list
  induction n using Nat.strongRecOn with
  | _ n ih =>
    rintro r _ d ⟨hchildren⟩ hread
    cases n with
    | zero => cases hread
    | succ n =>
      obtain ⟨name, kind, description, aliases, summary, handler, children⟩ := d
      rw [Json.prune, shape_object_eq_some_iff, prune, pruneChildren_eq]
      obtain ⟨hfields, hname, hkind, hdescription, haliases, hsummary, hhandler, hread⟩ :=
        shape_object_eq_some_iff.1 hread
      refine ⟨hfields.prune r, optional_text_prune r hname, optional_text_prune r hkind,
        optional_text_prune r hdescription, defaulted_texts_prune r haliases,
        optional_text_prune r hsummary, optional_text_prune r hhandler, ?_⟩
      apply optional_prune r (follows_list fun k hk => ih k (Nat.lt_succ_of_lt hk)) _ hread
      rintro value hmem - items rfl
      apply hchildren items hmem

end Definition

variable {n : Nat} {members : List (Option String × Json)}

/-! ### Profile types -/

namespace ProfileType

/-- A profile type where the fields that are removed are empty. -/
def prune (r : Removal) (p : ProfileType) : ProfileType where
  type := r.keep "type" none p.type
  schema := r.keep "schema" .null (p.schema.prune (r.inside "schema"))

theorem shape_object_eq_some_iff {p : ProfileType} :
  shape (n + 1) (.object members) = some p
    ↔ HasFields ["type", "schema"] members
      ∧ optional text n (fieldOf members "type") = some p.type
      ∧ defaulted .null anything n (fieldOf members "schema") = some p.schema
  := by
  obtain ⟨type, schema⟩ := p
  simp only [shape, fields?_object_eq_some_iff, List.map_cons, List.map_nil, Option.bind_eq_bind,
    Option.bind_eq_some_iff, Option.pure_def, Option.some.injEq, and_assoc, exists_and_left,
    exists_eq_left, mk.injEq]
  grind

/-- A profile type is read without fields that are removed from it, or from its schema, and they are
empty. -/
theorem follows_shape (n : Nat) :
  Follows shape n (fun value => ∃ members, value = .object members) prune
  := by
  rintro r _ p ⟨members, rfl⟩ hread
  cases n with
  | zero => cases hread
  | succ n =>
    rw [Json.prune, shape_object_eq_some_iff]
    obtain ⟨hfields, htype, hschema⟩ := shape_object_eq_some_iff.1 hread
    refine ⟨hfields.prune r, optional_text_prune r htype, ?_⟩
    apply defaulted_prune r (follows_anything n) _ (fun _ _ => trivial) hschema
    intro r
    rfl

end ProfileType

/-! ### Blocks -/

namespace Extension

/-- The block of a plugin where the fields that are removed are empty. -/
def prune (r : Removal) (e : Extension) : Extension where
  name := r.keep "name" none e.name
  description := r.keep "rootCommandDescription" none e.description
  definitions := r.keep "definitions" none
    (e.definitions.map ((r.inside "definitions").each Definition.prune))
  profiles := r.keep "profiles" [] ((r.inside "profiles").each ProfileType.prune e.profiles)
  healthCheck := r.keep "pluginHealthCheck" none e.healthCheck
  aliases := r.keep "pluginAliases" [] e.aliases
  summary := r.keep "pluginSummary" none e.summary

/-- Whether a block, and the definitions and profile types in it, are given as objects. -/
inductive InObjects : Json → Prop
  | object {members : List (Option String × Json)}
    (definitions : ∀ items, (some "definitions", .array items) ∈ members → ∀ item ∈ items,
      Definition.InObjects item)
    (profiles : ∀ items, (some "profiles", .array items) ∈ members → ∀ item ∈ items,
      ∃ fields, item = .object fields) :
    InObjects (.object members)

theorem shape_object_eq_some_iff {e : Extension} :
  shape (n + 1) (.object members) = some e
    ↔ HasFields fieldNames members
      ∧ optional text n (fieldOf members "name") = some e.name
      ∧ optional text n (fieldOf members "rootCommandDescription") = some e.description
      ∧ optional (list Definition.shape) n (fieldOf members "definitions") = some e.definitions
      ∧ defaulted [] (list ProfileType.shape) n (fieldOf members "profiles") = some e.profiles
      ∧ optional text n (fieldOf members "pluginHealthCheck") = some e.healthCheck
      ∧ defaulted [] (list text) n (fieldOf members "pluginAliases") = some e.aliases
      ∧ optional text n (fieldOf members "pluginSummary") = some e.summary
  := by
  obtain ⟨name, description, definitions, profiles, healthCheck, aliases, summary⟩ := e
  simp only [shape, fields?_object_eq_some_iff, fieldNames, List.map_cons, List.map_nil,
    Option.bind_eq_bind, Option.bind_eq_some_iff, Option.pure_def, Option.some.injEq, and_assoc,
    exists_and_left, exists_eq_left, Definition.shapes_eq, mk.injEq]
  grind

/-- The block of a plugin is read without fields that are removed from it, or inside it, and they are
empty. -/
theorem follows_shape (n : Nat) :
  Follows shape n InObjects prune
  := by
  rintro r _ e ⟨hdefinitions, hprofiles⟩ hread
  cases n with
  | zero => cases hread
  | succ n =>
    rw [Json.prune, shape_object_eq_some_iff]
    obtain ⟨hfields, hname, hdescription, hreadDefinitions, hreadProfiles, hhealth, haliases,
      hsummary⟩ := shape_object_eq_some_iff.1 hread
    refine ⟨hfields.prune r, optional_text_prune r hname, optional_text_prune r hdescription, ?_, ?_,
      optional_text_prune r hhealth, defaulted_texts_prune r haliases,
      optional_text_prune r hsummary⟩
    · apply optional_prune r (follows_list fun k _ => Definition.follows_shape k) _ hreadDefinitions
      rintro value hmem - items rfl
      apply hdefinitions items hmem
    · apply defaulted_prune r (follows_list fun k _ => ProfileType.follows_shape k) (fun _ => rfl) _
        hreadProfiles
      rintro value hmem items rfl
      apply hprofiles items hmem

end Extension

/-! ### Packages -/

namespace Package

/-- A package where the fields that are removed are empty, and the entries of peers that are removed
are not there. -/
def prune (r : Removal) (p : Package) : Package where
  name := r.keep "name" none p.name
  version := r.keep "version" none p.version
  peers := r.keep "peerDependencies" []
    (p.peers.filter fun peer => !(r.inside "peerDependencies").drops (some peer.1))
  extension := r.keep Extension.key none (p.extension.map (Extension.prune (r.inside Extension.key)))

/-- Whether a package, and the records in it, are given as objects. -/
inductive InObjects : Json → Prop
  | object {members : List (Option String × Json)}
    (extension : ∀ value, (some Extension.key, value) ∈ members → value ≠ .null →
      Extension.InObjects value) :
    InObjects (.object members)

theorem shape_object_eq_some_iff {p : Package} :
  shape (n + 1) (.object members) = some p
    ↔ HasFields ["name", "version", "peerDependencies", Extension.key] members
      ∧ optional text n (fieldOf members "name") = some p.name
      ∧ optional text n (fieldOf members "version") = some p.version
      ∧ defaulted [] (table text) n (fieldOf members "peerDependencies") = some p.peers
      ∧ optional Extension.shape n (fieldOf members Extension.key) = some p.extension
  := by
  obtain ⟨name, version, peers, extension⟩ := p
  simp only [shape, fields?_object_eq_some_iff, List.map_cons, List.map_nil, Option.bind_eq_bind,
    Option.bind_eq_some_iff, Option.pure_def, Option.some.injEq, and_assoc, exists_and_left,
    exists_eq_left, mk.injEq]
  grind

/-- A package is read without fields that are removed from it, or inside it, and they are empty. -/
theorem follows_shape (n : Nat) :
  Follows shape n InObjects prune
  := by
  rintro r _ p ⟨hextension⟩ hread
  cases n with
  | zero => cases hread
  | succ n =>
    rw [Json.prune, shape_object_eq_some_iff]
    obtain ⟨hfields, hname, hversion, hpeers, hreadExtension⟩ := shape_object_eq_some_iff.1 hread
    refine ⟨hfields.prune r, optional_text_prune r hname, optional_text_prune r hversion, ?_, ?_⟩
    · apply defaulted_prune r (follows_table n) (fun _ => rfl) (fun _ _ => trivial) hpeers
    · apply optional_prune r (Extension.follows_shape n) hextension hreadExtension

end Package

namespace Library

variable {files : Files} {plugin text : String} {p : Package}

/-- The package of a plugin, if it can be read, decides what its manifest is. -/
theorem manifestFor_of_decode (l : Library) (hdirectory : files.isDirectory (l.rootOf plugin) = true)
    (hfile : files.read ((l.rootOf plugin).below "package.json") = .ok text)
    (hread : Json.decode? Package.shape text = some p) :
  l.manifestFor files plugin = l.manifestOf plugin (l.rootOf plugin) p
  := by
  rw [manifestFor]
  simp only [hdirectory, hfile, hread, Bool.not_true, Bool.false_eq_true, if_false]

/-- A package that can be read gives a manifest, or it lacks a block or a name. -/
theorem manifestOf_ne_badPackage (l : Library) (plugin : String) (root path : Path) (p : Package) :
  l.manifestOf plugin root p ≠ .error (.badPackage path)
  := by
  rw [manifestOf]
  intro h
  split at h
  · cases h
  · split at h <;> cases h

end Library

namespace Package

/-- Missing fields never make a package unreadable.  Take a text that spells a package of which the
records are given as objects, and remove any members of objects, at any depth, from the value that it
spells.  Every text that spells what is left spells the same package, where the fields that are
removed are empty, and entries of peers that are removed are not there.  A plugin with such a text is
never refused for it: its manifest is that of this package. -/
theorem missing_fields_are_read (removed : Removal) {text : String} {value : Json} {p : Package}
    (htext : Json.read? text = some value) (hobjects : InObjects value)
    (hread : Json.decode? shape text = some p) :
  shape Json.depthLimit (value.prune removed) = some (p.prune removed)
    ∧ ∀ left, Json.read? left = some (value.prune removed) →
      Json.decode? shape left = some (p.prune removed)
        ∧ ∀ (l : Library) (files : Files) (plugin : String),
          files.isDirectory (l.rootOf plugin) = true →
          files.read ((l.rootOf plugin).below "package.json") = .ok left →
            l.manifestFor files plugin = l.manifestOf plugin (l.rootOf plugin) (p.prune removed)
              ∧ ∀ path, l.manifestFor files plugin ≠ .error (.badPackage path)
  := by
  have hshape : shape Json.depthLimit value = some p := by
    rw [Json.decode?, htext] at hread
    apply hread
  have hleft := follows_shape Json.depthLimit removed value p hobjects hshape
  use hleft
  intro left hvalue
  have hdecode : Json.decode? shape left = some (p.prune removed) := by
    rw [Json.decode?, hvalue]
    apply hleft
  use hdecode
  intro l files plugin hdirectory hfile
  have hmanifest := l.manifestFor_of_decode hdirectory hfile hdecode
  use hmanifest
  intro path
  rw [hmanifest]
  apply l.manifestOf_ne_badPackage

/-! ### A sample -/

/-- A text of a package with a definition inside another. -/
def nestedText : String :=
  "\x7b\"version\":\"1\",\"peerDependencies\":\x7b\"a\":\"1\",\"b\":\"2\"\x7d,"
    ++ "\"plugdeck\":\x7b\"name\":\"db\",\"definitions\":[\x7b\"name\":\"g\",\"children\":["
    ++ "\x7b\"name\":\"c\",\"handler\":\"f\"\x7d]\x7d],"
    ++ "\"profiles\":[\x7b\"type\":\"t\",\"schema\":[1]\x7d]\x7d\x7d"

/-- The value that it spells. -/
def nestedValue : Json :=
  .object [
    (some "version", .string (some "1")),
    (some "peerDependencies", .object [
      (some "a", .string (some "1")),
      (some "b", .string (some "2"))]),
    (some "plugdeck", .object [
      (some "name", .string (some "db")),
      (some "definitions", .array [.object [
        (some "name", .string (some "g")),
        (some "children", .array [.object [
          (some "name", .string (some "c")),
          (some "handler", .string (some "f"))]])]]),
      (some "profiles", .array [.object [
        (some "type", .string (some "t")),
        (some "schema", .array [.number "1"])]])])]

/-- A package with a definition inside another, of which the handler is given, and a profile type. -/
def nested (version : Option String) (peers : List (String × String)) (handler : Option String)
    (schema : Json) : Package where
  name := none
  version := version
  peers := peers
  extension := some {
    name := some "db"
    description := none
    definitions := some [⟨some "g", none, none, [], none, none,
      some [⟨some "c", none, none, [], none, handler, none⟩]⟩]
    profiles := [⟨some "t", schema⟩]
    healthCheck := none
    aliases := []
    summary := none }

/-- The removal of fields at several depths. -/
def nestedRemoval : Removal := fun steps => [
    [.member (some "version")],
    [.member (some "peerDependencies"), .member (some "b")],
    [.member (some "plugdeck"), .member (some "definitions"), .item 0, .member (some "children"),
      .item 0, .member (some "handler")],
    [.member (some "plugdeck"), .member (some "profiles"), .item 0, .member (some "schema")]
  ].contains steps

/-- The text without these fields. -/
def nestedLeft : String :=
  "\x7b\"peerDependencies\":\x7b\"a\":\"1\"\x7d,\"plugdeck\":\x7b\"name\":\"db\","
    ++ "\"definitions\":[\x7b\"name\":\"g\",\"children\":[\x7b\"name\":\"c\"\x7d]\x7d],"
    ++ "\"profiles\":[\x7b\"type\":\"t\"\x7d]\x7d\x7d"

/-- Files with a plugin of that text. -/
def nestedFiles : Files where
  entries := [(["m"], .directory), (["m", "db"], .directory),
    (["m", "db", "package.json"], .file (.text nestedLeft))]
  here := ⟨"/"⟩
  denied := false

theorem read?_nestedText :
  Json.read? nestedText = some nestedValue
  := by cbv

theorem read?_nestedLeft :
  Json.read? nestedLeft = some (nestedValue.prune nestedRemoval)
  := by
  have hprune : nestedValue.prune nestedRemoval = .object [
      (some "peerDependencies", .object [(some "a", .string (some "1"))]),
      (some "plugdeck", .object [
        (some "name", .string (some "db")),
        (some "definitions", .array [.object [
          (some "name", .string (some "g")),
          (some "children", .array [.object [(some "name", .string (some "c"))]])]]),
        (some "profiles", .array [.object [(some "type", .string (some "t"))]])])] := by
    rfl
  rw [hprune]
  cbv

theorem inObjects_nestedValue :
  InObjects nestedValue
  := by
  rw [nestedValue]
  constructor
  intro value hvalue _
  obtain rfl : value = _ := by simpa [Extension.key] using hvalue
  constructor
  · intro items hitems item hitem
    obtain rfl : items = _ := by simpa using hitems
    obtain rfl : item = _ := by simpa using hitem
    constructor
    intro items hitems item hitem
    obtain rfl : items = _ := by simpa using hitems
    obtain rfl : item = _ := by simpa using hitem
    constructor
    intro items hitems
    simp at hitems
  · intro items hitems item hitem
    obtain rfl : items = _ := by simpa using hitems
    obtain rfl : item = _ := by simpa using hitem
    exact ⟨_, rfl⟩

/-- The library that these files are. -/
def nestedLibrary : Library := ⟨⟨"/m"⟩, "plugdeck", "@plugdeck/core"⟩

/-- A version, an entry of peers, the handler of a definition inside another, and a schema are removed
from a text, and what is read lacks just these. -/
theorem missing_fields_are_read_of_nested :
  Json.decode? shape nestedText
      = some (nested (some "1") [("a", "1"), ("b", "2")] (some "f") (.array [.number "1"]))
    ∧ Json.decode? shape nestedLeft = some (nested none [("a", "1")] none .null)
    ∧ nestedLibrary.manifestFor nestedFiles "db"
      = nestedLibrary.manifestOf "db" (nestedLibrary.rootOf "db")
        (nested none [("a", "1")] none .null)
  := by
  have hread : Json.decode? shape nestedText
      = some (nested (some "1") [("a", "1"), ("b", "2")] (some "f") (.array [.number "1"])) := by
    rw [Json.decode?, read?_nestedText, Option.bind_some]
    rfl
  obtain ⟨-, h⟩ := missing_fields_are_read nestedRemoval read?_nestedText inObjects_nestedValue hread
  obtain ⟨hdecode, hmanifest⟩ := h nestedLeft read?_nestedLeft
  have hdirectory : nestedFiles.isDirectory (nestedLibrary.rootOf "db") = true := by decide +kernel
  have hfile : nestedFiles.read ((nestedLibrary.rootOf "db").below "package.json")
      = .ok nestedLeft := by
    decide +kernel
  have hfields : (nested (some "1") [("a", "1"), ("b", "2")] (some "f") (.array [.number "1"])).prune
      nestedRemoval = nested none [("a", "1")] none .null := by
    rfl
  rw [hfields] at hdecode hmanifest
  exact ⟨hread, hdecode, (hmanifest nestedLibrary nestedFiles "db" hdirectory hfile).1⟩

end Package

end PluginHost

import PluginHost.Proofs.JsonText
import PluginHost.Proofs.Lookup

/-!
# The text of an inventory

`Inventory.Lists` holds of a text and the installations that it lists, under their names and in
its own order; every list of installations has such a text (`Inventory.lists_listing`).  A text
that lists installations under distinct names is read as the inventory of these, in whatever order
they come (`Inventory.read?_of_lists`), so an inventory is read back from the text that is printed
for it (`Inventory.read?_print`).
-/

namespace PluginHost

/-! ### Installations -/

namespace Installation

/-- An installation as an object in JSON. -/
def json (i : Installation) : Json :=
  .object [(some "package", .string (some i.locator)), (some "registry", .string (some i.registry)),
    (some "version", .string (some i.version))]

/-- The text of an installation spells its object. -/
theorem spells_print (i : Installation) :
  Json.Spells i.print i.json
  := by
  apply Json.spells_printObject
  refine .cons ⟨rfl, ?_⟩ (.cons ⟨rfl, ?_⟩ (.cons ⟨rfl, ?_⟩ .nil))
  all_goals apply Json.spells_quote

/-- An installation is read from its object. -/
theorem shape_json (i : Installation) (n : Nat) :
  shape (n + 1) i.json = some i
  := by
  simp [shape, json, Json.fields?, fieldNames, Json.required, Json.text]

end Installation

/-! ### Tables -/

namespace Json

variable {α : Type}

/-- Entries with distinct keys stay as they are when they are put into a table. -/
theorem foldl_put (front entries : List (String × α))
    (h : ((front ++ entries).map (·.1)).Nodup) :
  entries.foldl table.put front = front ++ entries
  := by
  induction entries generalizing front with
  | nil => simp
  | cons e rest ih =>
    have hnew : front.any (·.1 == e.1) = false := by
      rw [List.map_append, List.map_cons, List.nodup_append] at h
      simp only [List.any_eq_false, beq_iff_eq]
      intro a ha
      apply h.2.2 _ (List.mem_map_of_mem ha) _ List.mem_cons_self
    have hput : table.put front e = front ++ [e] := by
      simp [table.put, hnew]
    rw [List.foldl_cons, hput, ih]
    · simp
    · simpa using h

/-- Members of an object that are read one after another give the entries that are read. -/
theorem mapM_eq_some {f : Option String × Json → Option (String × α)}
    {members : List (Option String × Json)} (entries : List (String × α))
    (h : List.Forall₂ (fun e member => f member = some e) entries members) :
  members.mapM f = some entries
  := by
  induction h with
  | nil => rfl
  | cons hmember _ ih => simp [List.mapM_cons, hmember, ih]

/-- The entries that are spelled by the members of an object are those of its table, if their keys
are distinct. -/
theorem table_of_forall₂ {shape : Shape α} {n : Nat} {entries : List (String × α)}
    {members : List (Option String × Json)}
    (h : List.Forall₂ (fun e member => member.1 = some e.1 ∧ shape n member.2 = some e.2)
      entries members)
    (hkeys : (entries.map (·.1)).Nodup) :
  table shape (n + 1) (.object members) = some entries
  := by
  have hput := foldl_put [] entries hkeys
  rw [List.nil_append] at hput
  rw [table, mapM_eq_some entries]
  · simp [hput]
  · apply h.imp
    rintro e ⟨key, value⟩ ⟨hkey, hvalue⟩
    obtain rfl : key = some e.1 := hkey
    simp [hvalue]

end Json

/-! ### Inventories -/

namespace Inventory

/-- Whether a text lists some installations, each under a name: it is an object in JSON of which the
members are these, one after another. -/
def Lists (text : String) (entries : List (String × Installation)) : Prop :=
  ∃ members, Json.read? text = some (.object members)
    ∧ List.Forall₂ (fun e member => member.1 = some e.1
      ∧ Installation.shape (Json.depthLimit - 1) member.2 = some e.2) entries members

/-- An inventory is read from a text that lists installations under distinct names. -/
theorem read?_of_lists {text : String} {entries : List (String × Installation)}
    (h : Lists text entries) (hnames : (entries.map (·.1)).Nodup) :
  read? text = some (ByName.ofList entries)
  := by
  obtain ⟨members, hmembers, hentries⟩ := h
  have htable : Json.table Installation.shape Json.depthLimit (.object members) = some entries :=
    Json.table_of_forall₂ hentries hnames
  rw [read?, Json.decode?, hmembers, Option.bind_some, htable, Option.map_some]

/-- The text that is printed for some installations, each under a name. -/
def listing (entries : List (String × Installation)) : String :=
  String.ofList (Json.printObject 0 (entries.map fun e => (e.1, e.2.print)))

theorem lists_listing (entries : List (String × Installation)) :
  Lists (listing entries) entries
  := by
  use entries.map fun e => (some e.1, e.2.json)
  constructor
  · apply Json.read?_of_spells
    apply Json.spells_printObject
    rw [List.forall₂_map_left_iff, List.forall₂_map_right_iff, List.forall₂_same]
    intro e he
    use rfl
    apply e.2.spells_print
  · rw [List.forall₂_map_right_iff, List.forall₂_same]
    intro e he
    use rfl
    apply e.2.shape_json

/-- An inventory is read back from its text. -/
theorem read?_print (r : Inventory) :
  read? r.print = some r
  := by
  have hlists : Lists r.print r.entries := lists_listing r.entries
  rw [read?_of_lists hlists r.nodup_names, ByName.ofList_entries]

end Inventory

end PluginHost

import Mathlib.Data.List.Induction
import Mathlib.Data.List.Sort
import PluginHost.Inventory

/-!
# Looking up values and records by name

What is under a name in values by name is what their entries say (`ByName.get?_eq_some_iff`),
and values that answer every look-up alike are equal (`ByName.ext_get?`).  Entries of distinct
names give the same values in any order (`ByName.ofList_perm`), and those of values by name give
these back (`ByName.ofList_entries`).  The records of an inventory are looked up accordingly.
-/

namespace PluginHost

namespace ByName

variable {α : Type}

/-- In a list of entries with distinct names a look-up finds the entry of the name. -/
theorem find?_eq_some_iff_mem {l : List (String × α)} (hl : (l.map (·.1)).Nodup) {name : String}
    {value : α} :
  (l.find? (·.1 == name)).map (·.2) = some value ↔ (name, value) ∈ l
  := by
  induction l with
  | nil => simp
  | cons e rest ih =>
    obtain ⟨hfirst, hrest⟩ := List.nodup_cons.1 hl
    obtain ⟨other, value'⟩ := e
    by_cases hname : other = name
    · subst hname
      have hnot : (other, value) ∉ rest := by
        intro h
        apply hfirst (List.mem_map_of_mem (f := (·.1)) h)
      simp [hnot, eq_comm]
    · rw [List.find?_cons_of_neg (by simpa using hname), ih hrest]
      simp [Ne.symm hname]

theorem nodup_names (m : ByName α) :
  m.names.Nodup
  := m.pairwise_names.imp fun h => Std.ne_of_lt h

/-- The value of a name is that of the entry of the name. -/
theorem get?_eq_some_iff {m : ByName α} {name : String} {value : α} :
  m.get? name = some value ↔ (name, value) ∈ m.entries
  := find?_eq_some_iff_mem m.nodup_names

/-- Values by name are determined by what they answer to look-ups. -/
theorem ext_get? {m n : ByName α} (h : ∀ name, m.get? name = n.get? name) :
  m = n
  := by
  have hmem : ∀ e, e ∈ m.entries ↔ e ∈ n.entries := by
    intro e
    rw [← get?_eq_some_iff, ← get?_eq_some_iff, h]
  have hentries : m.entries = n.entries := by
    apply List.Pairwise.eq_of_mem_iff m.sorted n.sorted
    intro e
    apply hmem
  cases m
  cases n
  congr

/-- After some values have been put under names, the last one put under a name counts. -/
theorem get?_foldl_insert (l : List (String × α)) (m : ByName α) (name : String) :
  (l.foldl (fun m e => m.insert e.1 e.2) m).get? name
    = ((l.reverse.find? (·.1 == name)).map (·.2)).or (m.get? name)
  := by
  induction l using List.reverseRecOn with
  | nil => rfl
  | append_singleton l e ih =>
    rw [List.foldl_concat, List.reverse_concat]
    by_cases hname : e.1 = name
    · subst hname
      simp
    · rw [get?_insert_of_ne _ _ hname, ih, List.find?_cons_of_neg (by simpa using hname)]

/-- The values of a list of entries with distinct names are those of the entries. -/
theorem get?_ofList_eq_some_iff {l : List (String × α)} (hl : (l.map (·.1)).Nodup) {name : String}
    {value : α} :
  (ofList l).get? name = some value ↔ (name, value) ∈ l
  := by
  rw [ofList, get?_foldl_insert, get?_empty, Option.or_none, find?_eq_some_iff_mem,
    List.mem_reverse]
  rw [List.map_reverse]
  apply List.nodup_reverse.2 hl

/-- Values by name are those of the list of their entries. -/
theorem ofList_entries (m : ByName α) :
  ofList m.entries = m
  := by
  apply ext_get?
  intro name
  apply Option.ext
  intro value
  rw [get?_ofList_eq_some_iff m.nodup_names, get?_eq_some_iff]

/-- The order of entries with distinct names does not matter. -/
theorem ofList_perm {l l' : List (String × α)} (h : l.Perm l') (hl : (l.map (·.1)).Nodup) :
  ofList l = ofList l'
  := by
  have hl' : (l'.map (·.1)).Nodup := (h.map _).nodup_iff.1 hl
  apply ext_get?
  intro name
  apply Option.ext
  intro value
  rw [get?_ofList_eq_some_iff hl, get?_ofList_eq_some_iff hl', h.mem_iff]

end ByName

namespace Inventory

variable {r : Inventory} {name : String} {record : Record}

/-! ### Records -/

/-- The record of a name is the one among the records that has the name. -/
theorem record?_eq_some_iff :
  r.record? name = some record ↔ record ∈ r.records ∧ record.name = name
  := by
  constructor
  · intro h
    obtain ⟨i, hi, rfl⟩ := Option.map_eq_some_iff.1 h
    use List.mem_map_of_mem (ByName.get?_eq_some_iff.1 hi)
    rfl
  · rintro ⟨h, rfl⟩
    obtain ⟨⟨name, i⟩, he, rfl⟩ := List.mem_map.1 h
    rw [record?]
    change (r.get? name).map _ = _
    rw [ByName.get?_eq_some_iff.2 he]
    rfl

/-- The names of the records are the names of the inventory, in the same order. -/
theorem map_name_records (r : Inventory) :
  r.records.map (·.name) = r.names
  := by
  rw [records, List.map_map]
  rfl

theorem record?_add (r : Inventory) (record : Record) (name : String) :
  (r.add record).record? name = if record.name = name then some record else r.record? name
  := by
  rw [record?, add]
  split
  · next h =>
    subst h
    rw [ByName.get?_insert_self]
    rfl
  · next h => rw [ByName.get?_insert_of_ne _ _ h, record?]

theorem record?_erase (r : Inventory) (gone name : String) :
  Inventory.record? (r.erase gone) name = if gone = name then none else r.record? name
  := by
  rw [record?]
  split
  · next h =>
    subst h
    rw [ByName.get?_erase_self]
    rfl
  · next h => rw [ByName.get?_erase_of_ne _ h, record?]

/-- Changing an installation changes the record of its plugin only, and adds none. -/
theorem record?_adjust (r : Inventory) (changed name : String)
    (change : Installation → Installation) :
  (r.adjust changed change).record? name
    = if changed = name then (r.get? name).map fun i => (change i).record name
      else r.record? name
  := by
  by_cases h : changed = name
  · subst h
    rw [if_pos rfl, record?, adjust]
    cases hget : r.get? changed with
    | none => simp [hget]
    | some i => simp
  · rw [if_neg h, record?, record?, adjust]
    cases r.get? changed with
    | none => rfl
    | some i => rw [ByName.get?_insert_of_ne _ _ h]

/-! ### Several records -/

/-- The inventory with some records, each in the place of the one of its name. -/
def addAll (r : Inventory) (records : List Record) : Inventory := records.foldl add r

/-- The last record that is added under a name counts, and without one the record before. -/
theorem record?_addAll (r : Inventory) (records : List Record) (name : String) :
  (r.addAll records).record? name
    = (records.reverse.find? (·.name == name)).or (r.record? name)
  := by
  induction records using List.reverseRecOn with
  | nil => rfl
  | append_singleton records record ih =>
    rw [addAll, List.foldl_concat, record?_add, List.reverse_concat, List.find?_cons]
    by_cases hname : record.name = name
    · simp [hname]
    · rw [if_neg hname, ← addAll, ih, beq_false_of_ne hname]

end Inventory

end PluginHost

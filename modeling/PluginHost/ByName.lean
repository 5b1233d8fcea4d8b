/-!
# Values by name

`ByName α` holds at most one value for each name, in the order of the names by code points.
`insert` replaces the value of a name that is there, and `erase` forgets it; `get?` looks a
name up.
-/

namespace PluginHost

/-- Values under distinct names, in the order of the names. -/
structure ByName (α : Type) where
  entries : List (String × α)
  sorted : entries.Pairwise fun a b => a.1 < b.1
  deriving DecidableEq

namespace ByName

variable {α : Type}

/-- No values. -/
def empty : ByName α := ⟨[], .nil⟩

instance : Inhabited (ByName α) := ⟨empty⟩

/-- The names that have a value, in order. -/
def names (m : ByName α) : List String := m.entries.map (·.1)

/-- The values, in the order of their names. -/
def values (m : ByName α) : List α := m.entries.map (·.2)

/-- The value of a name. -/
def get? (m : ByName α) (name : String) : Option α :=
  (m.entries.find? fun e => e.1 == name).map (·.2)

/-- Whether a name has a value. -/
def contains (m : ByName α) (name : String) : Bool := (m.get? name).isSome

/-- The number of values. -/
def size (m : ByName α) : Nat := m.entries.length

/-- Whether there is no value. -/
def isEmpty (m : ByName α) : Bool := m.entries.isEmpty

/-- The list with a value put in the place of its name. -/
def insertEntry (name : String) (value : α) : List (String × α) → List (String × α)
  | [] => [(name, value)]
  | e :: rest =>
    if name < e.1 then (name, value) :: e :: rest
    else if name = e.1 then (name, value) :: rest
    else e :: insertEntry name value rest

theorem mem_insertEntry {name : String} {value : α} {e : String × α} {l : List (String × α)}
    (h : e ∈ insertEntry name value l) :
  e = (name, value) ∨ e ∈ l
  := by
  induction l with
  | nil => simpa [insertEntry] using h
  | cons a l ih =>
    simp only [insertEntry] at h
    split at h
    · simpa using h
    · split at h
      · rcases List.mem_cons.1 h with h | h
        · exact .inl h
        · exact .inr (List.mem_cons_of_mem _ h)
      · rcases List.mem_cons.1 h with h | h
        · exact .inr (h ▸ List.mem_cons_self)
        · exact (ih h).imp id (List.mem_cons_of_mem _)

theorem sorted_insertEntry (name : String) (value : α) {l : List (String × α)}
    (h : l.Pairwise fun a b => a.1 < b.1) :
  (insertEntry name value l).Pairwise fun a b => a.1 < b.1
  := by
  induction l with
  | nil => simp [insertEntry]
  | cons e rest ih =>
    obtain ⟨hhead, htail⟩ := List.pairwise_cons.1 h
    simp only [insertEntry]
    split
    · rename_i hlt
      refine List.pairwise_cons.2 ⟨fun b hb => ?_, h⟩
      rcases List.mem_cons.1 hb with rfl | hb
      · exact hlt
      · exact String.lt_trans hlt (hhead b hb)
    · split
      · rename_i heq
        exact List.pairwise_cons.2 ⟨fun b hb => heq ▸ hhead b hb, htail⟩
      · rename_i hlt hne
        refine List.pairwise_cons.2 ⟨fun b hb => ?_, ih htail⟩
        rcases mem_insertEntry hb with rfl | hb
        · exact Std.lt_of_le_of_ne (String.not_lt.1 hlt) (Ne.symm hne)
        · exact hhead b hb

/-- The values with one more under a name, in the place of the one it had. -/
def insert (m : ByName α) (name : String) (value : α) : ByName α :=
  ⟨insertEntry name value m.entries, sorted_insertEntry name value m.sorted⟩

/-- The values without that of a name. -/
def erase (m : ByName α) (name : String) : ByName α :=
  ⟨m.entries.filter fun e => e.1 != name, m.sorted.filter _⟩

/-- The values of a list, of which the last under a name counts. -/
def ofList (l : List (String × α)) : ByName α :=
  l.foldl (fun m e => m.insert e.1 e.2) empty

/-- The values after a function has been applied to each. -/
def map {β : Type} (f : String → α → β) (m : ByName α) : ByName β :=
  ⟨m.entries.map fun e => (e.1, f e.1 e.2), by
    rw [List.pairwise_map]
    exact m.sorted⟩

/-! ### Looking up -/

/-- The value put in the place of a name is found under it. -/
theorem find?_insertEntry_self (name : String) (value : α) (l : List (String × α)) :
  (insertEntry name value l).find? (·.1 == name) = some (name, value)
  := by
  induction l with
  | nil => simp [insertEntry]
  | cons e rest ih =>
    simp only [insertEntry]
    split
    · simp
    · split
      · simp
      · rename_i hne
        rw [List.find?_cons_of_neg]
        · apply ih
        · simpa using Ne.symm hne

/-- A value put in the place of a name hides no other name. -/
theorem find?_insertEntry_of_ne {name other : String} (value : α) (l : List (String × α))
    (h : name ≠ other) :
  (insertEntry name value l).find? (·.1 == other) = l.find? (·.1 == other)
  := by
  induction l with
  | nil => simp [insertEntry, h]
  | cons e rest ih =>
    simp only [insertEntry]
    split
    · rw [List.find?_cons_of_neg]
      simpa using h
    · split
      · rename_i heq
        rw [List.find?_cons_of_neg, List.find?_cons_of_neg]
        · simpa [← heq] using h
        · simpa using h
      · rw [List.find?_cons, List.find?_cons, ih]

@[simp]
theorem get?_empty (name : String) :
  (empty : ByName α).get? name = none
  := rfl

@[simp]
theorem get?_insert_self (m : ByName α) (name : String) (value : α) :
  (m.insert name value).get? name = some value
  := by
  simp only [get?, insert, find?_insertEntry_self, Option.map_some]

theorem get?_insert_of_ne (m : ByName α) {name other : String} (value : α) (h : name ≠ other) :
  (m.insert name value).get? other = m.get? other
  := by
  simp only [get?, insert, find?_insertEntry_of_ne value _ h]

@[simp]
theorem get?_erase_self (m : ByName α) (name : String) :
  (m.erase name).get? name = none
  := by
  simp [get?, erase, List.find?_filter]

theorem get?_erase_of_ne (m : ByName α) {name other : String} (h : name ≠ other) :
  (m.erase name).get? other = m.get? other
  := by
  simp only [get?, erase, List.find?_filter]
  congr 2
  funext e
  by_cases he : e.1 = other
  · simp [he, Ne.symm h]
  · simp [he]

/-- The names are in strictly increasing order. -/
theorem pairwise_names (m : ByName α) :
  m.names.Pairwise (· < ·)
  := List.pairwise_map.2 m.sorted

theorem names_erase (m : ByName α) (name : String) :
  (m.erase name).names = m.names.filter (· != name)
  := by
  simp only [names, erase, List.filter_map]
  rfl

end ByName

end PluginHost

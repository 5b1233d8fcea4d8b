import Mathlib.Data.List.Basic
import PluginHost.Json.Record

/-!
# Removing members of objects

A member of an object inside a value is found by the steps that lead to it, and `Json.Removal` says
of such members which are removed.  `Json.prune` removes them from a value.  A shape follows a change
of what it reads (`Json.Follows`) if a value that is read is still read without the members, and then
what is read is changed.  A field that is removed is read as one that is not there
(`Json.fieldOf_pruneMembers`), so it is empty if it is optional or has an empty default, and
otherwise it is changed inside.
-/

namespace PluginHost.Json

/-- A step from a value to one inside it: to a member of an object, or to an item of an array. -/
inductive Step where
  | member (key : Option String)
  | item (index : Nat)
  deriving DecidableEq

/-- Which members of objects are removed, by the steps that lead to them. -/
abbrev Removal := List Step → Bool

namespace Removal

variable (r : Removal)

/-- What is removed below a step. -/
def below (step : Step) : Removal := fun steps => r (step :: steps)

/-- What is removed inside the field of a name. -/
def inside (name : String) : Removal := r.below (.member (some name))

/-- Whether the members of a key are removed. -/
def drops (key : Option String) : Bool := r [.member key]

/-- The value of a field, or an empty one if the field is removed. -/
def keep {α : Type} (name : String) (empty value : α) : α :=
  if r.drops (some name) then empty else value

/-- The items of a list, each changed by what is removed inside it. -/
def each {α : Type} (change : Removal → α → α) (items : List α) : List α :=
  items.mapIdx fun index => change (r.below (.item index))

end Removal

mutual

/-- A value without the members that are removed. -/
def prune (r : Removal) : Json → Json
  | .null => .null
  | .bool b => .bool b
  | .number digits => .number digits
  | .string text => .string text
  | .array items => .array (pruneItems r 0 items)
  | .object members => .object (pruneMembers r members)

/-- The items of an array from an index on, without the members that are removed from them. -/
def pruneItems (r : Removal) (index : Nat) : List Json → List Json
  | [] => []
  | item :: items => prune (r.below (.item index)) item :: pruneItems r (index + 1) items

/-- The members of an object without those that are removed. -/
def pruneMembers (r : Removal) : List (Option String × Json) → List (Option String × Json)
  | [] => []
  | (key, value) :: members =>
    if r.drops key then pruneMembers r members
    else (key, prune (r.below (.member key)) value) :: pruneMembers r members

end

variable {r : Removal} {n : Nat} {members : List (Option String × Json)} {names : List String}
  {name : String}

/-- Nothing is left of null but null, and of nothing else. -/
theorem prune_eq_null_iff {value : Json} :
  value.prune r = .null ↔ value = .null
  := by cases value <;> simp [prune]

/-! ### Values of any shape -/

mutual

/-- A value that can be read whole still can without members of its objects. -/
theorem isReadable_prune (r : Removal) (n : Nat) :
    (value : Json) → isReadable n value = true → isReadable n (value.prune r) = true
  | .null, h | .bool _, h | .number _, h | .string _, h => by simpa only [prune] using h
  | .array items, h => by
    simp only [prune, isReadable, Bool.and_eq_true] at h ⊢
    exact ⟨h.1, areReadable_prune r 0 (n - 1) items h.2⟩
  | .object members, h => by
    simp only [prune, isReadable, Bool.and_eq_true] at h ⊢
    exact ⟨h.1, membersReadable_prune r (n - 1) members h.2⟩

theorem areReadable_prune (r : Removal) (index n : Nat) :
    (items : List Json) → areReadable n items = true → areReadable n (pruneItems r index items) = true
  | [], h => h
  | item :: items, h => by
    simp only [pruneItems, areReadable, Bool.and_eq_true] at h ⊢
    exact ⟨isReadable_prune (r.below (.item index)) n item h.1,
      areReadable_prune r (index + 1) n items h.2⟩

theorem membersReadable_prune (r : Removal) (n : Nat) :
    (members : List (Option String × Json)) → membersReadable n members = true →
      membersReadable n (pruneMembers r members) = true
  | [], h => h
  | (key, value) :: members, h => by
    simp only [membersReadable, Bool.and_eq_true] at h
    rw [pruneMembers]
    split
    · exact membersReadable_prune r n members h.2
    · simp only [membersReadable, Bool.and_eq_true]
      exact ⟨⟨h.1.1, isReadable_prune (r.below (.member key)) n value h.1.2⟩,
        membersReadable_prune r n members h.2⟩

end

/-! ### Lists -/

section Lists

variable {α β : Type} {f : α → Option β} {xs : List α} {ys : List β}

/-- A function that goes through a list from an index on maps each item with its index. -/
theorem eq_mapIdx {go : Nat → List α → List β} {g : Nat → α → β} (hnil : ∀ k, go k [] = [])
    (hcons : ∀ k x xs, go k (x :: xs) = g k x :: go (k + 1) xs) (xs : List α) :
  go 0 xs = xs.mapIdx g
  := by
  have hfrom : ∀ k, go k xs = xs.mapIdx fun i => g (k + i) := by
    induction xs with
    | nil => exact hnil
    | cons x xs ih =>
      intro k
      rw [hcons, ih, List.mapIdx_cons]
      simp only [Nat.add_zero, Nat.add_right_comm, Nat.add_assoc]
  rw [hfrom]
  simp only [Nat.zero_add]

theorem pruneItems_eq (r : Removal) (items : List Json) :
  pruneItems r 0 items = r.each prune items
  := by apply eq_mapIdx (fun _ => rfl) (fun _ _ _ => rfl) items

theorem mapM_eq_some_iff :
  xs.mapM f = some ys ↔ xs.map f = ys.map some
  := by
  induction xs generalizing ys with
  | nil => cases ys <;> simp
  | cons x xs ih =>
    simp only [List.mapM_cons, Option.bind_eq_bind, Option.bind_eq_some_iff, Option.pure_def,
      Option.some.injEq, ih, List.map_cons]
    constructor
    · rintro ⟨y, hy, ys, hys, rfl⟩
      rw [List.map_cons, hy, hys]
    · intro h
      cases ys with
      | nil => cases h
      | cons y ys =>
        obtain ⟨hy, hys⟩ := List.cons.inj h
        exact ⟨y, hy, ys, hys, rfl⟩

/-- If every item is still read when it is changed, and is read as what was read of it with a change,
then all are. -/
theorem mapM_mapIdx {g : Nat → α → α} {g' : Nat → β → β} (hread : xs.mapM f = some ys)
    (h : ∀ x ∈ xs, ∀ y, f x = some y → ∀ i, f (g i x) = some (g' i y)) :
  (xs.mapIdx g).mapM f = some (ys.mapIdx g')
  := by
  rw [mapM_eq_some_iff] at hread ⊢
  -- the changes are general, since behind the first item every index is one more
  induction xs generalizing ys g g' with
  | nil =>
    obtain rfl : ys = [] := by simpa using hread.symm
    rfl
  | cons x xs ih =>
    cases ys with
    | nil => cases hread
    | cons y ys =>
      obtain ⟨hx, hxs⟩ := List.cons.inj hread
      rw [List.mapIdx_cons, List.mapIdx_cons, List.map_cons, List.map_cons,
        h x List.mem_cons_self y hx 0]
      congr 1
      apply ih hxs
      intro x' hx' y' hy' i
      apply h x' (List.mem_cons_of_mem x hx') y' hy'

end Lists

/-! ### Fields -/

/-- What is known of the field of a name in an object of some members. -/
def fieldOf (members : List (Option String × Json)) (name : String) : Field :=
  match members.find? fun m => m.1 == some name with
  | some (_, value) => .given value
  | none => .omitted

/-- Whether the keys of the members of an object are texts, and none of some names is there twice. -/
def HasFields (names : List String) (members : List (Option String × Json)) : Prop :=
  ∃ keys : List String, members.map (·.1) = keys.map some ∧ ∀ name ∈ names, keys.count name ≤ 1

/-- A field without the members that are removed from it, or left out if it is removed itself. -/
def Field.prune (r : Removal) (name : String) : Field → Field
  | .given value => if r.drops (some name) then .omitted else .given (value.prune (r.inside name))
  | field => field

theorem prune_of_drops (h : r.drops (some name)) :
  (fieldOf members name).prune r name = .omitted
  := by
  rw [fieldOf]
  split
  · rw [Field.prune, if_pos h]
  · rfl

theorem mem_of_fieldOf {value : Json} (h : fieldOf members name = .given value) :
  (some name, value) ∈ members
  := by
  rw [fieldOf] at h
  split at h
  · next key found hfind =>
    cases h
    have hkey : key = some name := by simpa using List.find?_some hfind
    rw [← hkey]
    apply List.mem_of_find?_eq_some hfind
  · cases h

/-- The fields of an object are read by their names, if it has fields of these names. -/
theorem fields?_object_eq_some_iff {fields : List Field} :
  fields? names (.object members) = some fields
    ↔ HasFields names members ∧ fields = names.map (fieldOf members)
  := by
  have hrepeats (keys : List String) : (names.any fun name => 1 < keys.count name) = false
      ↔ ∀ name ∈ names, keys.count name ≤ 1 := by
    simp only [List.any_eq_false, decide_eq_true_eq, Nat.not_lt]
  rw [fields?, Option.bind_eq_bind, Option.bind_eq_some_iff]
  simp only [mapM_eq_some_iff]
  constructor
  · rintro ⟨keys, hkeys, h⟩
    split at h
    · cases h
    · next hnames =>
      refine ⟨⟨keys, hkeys, ?_⟩, (Option.some.inj h).symm⟩
      apply (hrepeats keys).1 (Bool.eq_false_iff.2 hnames)
  · rintro ⟨⟨keys, hkeys, hdistinct⟩, rfl⟩
    use keys, hkeys
    rw [(hrepeats keys).2 hdistinct]
    rfl

/-- A field that is removed is left out, and the others are changed inside. -/
theorem fieldOf_pruneMembers (r : Removal) (members : List (Option String × Json)) (name : String) :
  fieldOf (pruneMembers r members) name = (fieldOf members name).prune r name
  := by
  induction members with
  | nil => rfl
  | cons m members ih =>
    obtain ⟨key, value⟩ := m
    rw [pruneMembers]
    by_cases hkey : key = some name
    · subst hkey
      split
      · next hdrops =>
        rw [ih, prune_of_drops hdrops, prune_of_drops hdrops]
      · next hdrops => simp [fieldOf, Field.prune, hdrops, Removal.inside]
    · split
      · rw [ih]
        simp [fieldOf, hkey]
      · simpa [fieldOf, hkey] using ih

theorem keys_pruneMembers (r : Removal) (members : List (Option String × Json)) :
  ((pruneMembers r members).map (·.1)).Sublist (members.map (·.1))
  := by
  induction members with
  | nil => apply List.Sublist.refl
  | cons m members ih =>
    obtain ⟨key, value⟩ := m
    rw [pruneMembers]
    split
    · apply ih.cons key
    · apply ih.cons_cons key

/-- No key comes twice that did not before. -/
theorem HasFields.prune (r : Removal) (h : HasFields names members) :
  HasFields names (pruneMembers r members)
  := by
  obtain ⟨keys, hkeys, hdistinct⟩ := h
  have hfewer := keys_pruneMembers r members
  rw [hkeys] at hfewer
  obtain ⟨left, hleft, hkeys'⟩ := List.sublist_map_iff.1 hfewer
  use left, hkeys'
  intro name hname
  apply Nat.le_trans (hleft.count_le name) (hdistinct name hname)

/-! ### Shapes -/

section Shapes

variable {α : Type} {shape : Shape α} {admits : Json → Prop} {change : Removal → α → α}

/-- Whether values that are read under a bound, and admitted, are still read without the members of
objects that are removed, and what is read is changed according to the removal. -/
def Follows (shape : Shape α) (n : Nat) (admits : Json → Prop) (change : Removal → α → α) : Prop :=
  ∀ (r : Removal) (value : Json) (a : α), admits value → shape n value = some a →
    shape n (value.prune r) = some (change r a)

theorem follows_text (n : Nat) :
  Follows text n (fun _ => True) fun _ s => s
  := by
  rintro r (_ | _ | _ | s | _ | _) a - h
  case string => exact h
  all_goals cases h

theorem follows_anything (n : Nat) :
  Follows anything n (fun _ => True) fun r value => value.prune r
  := by
  intro r value a _ h
  rw [anything] at h
  split at h
  · next hreadable =>
    cases h
    rw [anything, if_pos (isReadable_prune r n value hreadable)]
  · cases h

theorem follows_list (h : ∀ k < n, Follows shape k admits change) :
  Follows (list shape) n (fun value => ∀ items, value = .array items → ∀ item ∈ items, admits item)
    fun r => r.each change
  := by
  rintro r (_ | _ | _ | _ | items | _) as hadmits hread
  case array =>
    cases n with
    | zero => cases hread
    | succ n =>
      rw [prune, pruneItems_eq]
      apply mapM_mapIdx hread
      intro item hitem a ha i
      apply h n (Nat.lt_succ_self n) (r.below (.item i)) item a (hadmits items rfl item hitem) ha
  all_goals cases n <;> cases hread

theorem each_self (r : Removal) (items : List α) :
  r.each (fun _ a => a) items = items
  := by
  apply List.ext_getElem
  · apply List.length_mapIdx
  · intro i _ _
    apply List.getElem_mapIdx

theorem follows_texts (n : Nat) :
  Follows (list text) n (fun _ => True) fun _ texts => texts
  := by
  intro r value texts _ hread
  have h := follows_list (fun k _ => follows_text k) r value texts (fun _ _ _ _ => trivial) hread
  simpa only [each_self] using h

/-- Removing entries of a table, those of a key together, is the same before one is put into it and
after. -/
theorem filter_put (left : String → Bool) (entries : List (String × α)) (e : String × α) :
  (table.put entries e).filter (fun e => left e.1)
    = if left e.1 then table.put (entries.filter fun e => left e.1) e
      else entries.filter fun e => left e.1
  := by
  have hreplace : (entries.map fun a => if a.1 == e.1 then e else a).filter (fun a => left a.1)
      = (entries.filter fun a => left a.1).map fun a => if a.1 == e.1 then e else a := by
    rw [List.filter_map]
    congr 2
    funext a
    dsimp only [Function.comp]
    split
    · next hkey => rw [beq_iff_eq.1 hkey]
    · rfl
  by_cases he : left e.1 = true
  · have hany : (entries.filter fun a => left a.1).any (·.1 == e.1) = entries.any (·.1 == e.1) := by
      rw [List.any_filter]
      congr 1
      funext a
      by_cases hkey : a.1 = e.1
      · rw [hkey, he, Bool.true_and]
      · rw [beq_false_of_ne hkey, Bool.and_false]
    rw [if_pos he, table.put, table.put, hany]
    split
    · apply hreplace
    · simp [he]
  · rw [if_neg he, table.put]
    split
    · have hothers : ∀ a ∈ entries.filter fun a => left a.1,
          (if a.1 == e.1 then e else a) = a := by
        intro a ha
        rw [if_neg]
        intro hkey
        apply he
        rw [← beq_iff_eq.1 hkey]
        apply (List.mem_filter.1 ha).2
      rw [hreplace, List.map_congr_left hothers, List.map_id']
    · simp [he]

/-- The entries that are left of a table are put into it one after another. -/
theorem filter_foldl_put (left : String → Bool) (front entries : List (String × α)) :
  (entries.foldl table.put front).filter (fun e => left e.1)
    = (entries.filter fun e => left e.1).foldl table.put (front.filter fun e => left e.1)
  := by
  induction entries generalizing front with
  | nil => rfl
  | cons e entries ih =>
    rw [List.foldl_cons, ih, filter_put, List.filter_cons]
    split <;> rfl

/-- The members that are left of a table are read as the entries that are left. -/
theorem mapM_pruneMembers {entries : List (String × String)}
    (hread : (members.mapM fun m => do return (← m.1, ← text n m.2)) = some entries) :
  ((pruneMembers r members).mapM fun m => do return (← m.1, ← text n m.2))
    = some (entries.filter fun e => !r.drops (some e.1))
  := by
  rw [mapM_eq_some_iff] at hread ⊢
  induction members generalizing entries with
  | nil =>
    obtain rfl : entries = [] := by simpa using hread.symm
    rfl
  | cons m members ih =>
    cases entries with
    | nil => cases hread
    | cons e entries =>
      obtain ⟨key, value⟩ := m
      obtain ⟨hm, hmembers⟩ := List.cons.inj hread
      simp only [Option.bind_eq_bind, Option.bind_eq_some_iff] at hm
      obtain ⟨name, rfl, s, hs, he⟩ := hm
      obtain rfl := Option.some.inj he
      rw [pruneMembers, List.filter_cons]
      split
      · next hdrops =>
        simp only [hdrops, Bool.not_true, Bool.false_eq_true, if_false]
        apply ih hmembers
      · next hdrops =>
        simp only [hdrops, Bool.not_false, if_true, List.map_cons]
        rw [ih hmembers, follows_text n _ value s trivial hs]
        rfl

theorem follows_table (n : Nat) :
  Follows (table text) n (fun _ => True) fun r entries => entries.filter fun e => !r.drops (some e.1)
  := by
  rintro r (_ | _ | _ | _ | _ | members) a - hread
  case object =>
    cases n with
    | zero => cases hread
    | succ n =>
      obtain ⟨entries, hentries, ha⟩ := Option.bind_eq_some_iff.1 hread
      obtain rfl := Option.some.inj ha
      have hleft := mapM_pruneMembers (r := r) hentries
      dsimp only
      rw [prune, table, filter_foldl_put fun key => !r.drops (some key)]
      apply Option.bind_eq_some_iff.2
      exact ⟨_, hleft, rfl⟩
  all_goals cases n <;> cases hread

theorem nullable_of_ne_null {value : Json} (h : value ≠ .null) :
  nullable shape n value = (shape n value).map some
  := by
  cases value <;> first | rfl | contradiction

/-- A field that may be left out is read without members of the object, and is empty if it is removed
itself. -/
theorem optional_prune (r : Removal) {a : Option α} (h : Follows shape n admits change)
    (hadmits : ∀ value, (some name, value) ∈ members → value ≠ .null → admits value)
    (hread : optional shape n (fieldOf members name) = some a) :
  optional shape n (fieldOf (pruneMembers r members) name)
    = some (r.keep name none (a.map (change (r.inside name))))
  := by
  rw [fieldOf_pruneMembers]
  by_cases hdrops : r.drops (some name) = true
  · rw [prune_of_drops hdrops, Removal.keep, if_pos hdrops, optional]
  · rw [Removal.keep, if_neg hdrops]
    cases hfield : fieldOf members name with
    | given value =>
      rw [hfield] at hread
      rw [Field.prune, if_neg hdrops, optional]
      by_cases hnull : value = .null
      · subst hnull
        cases hread
        rfl
      · rw [optional, nullable_of_ne_null hnull] at hread
        obtain ⟨b, hb, rfl⟩ := Option.map_eq_some_iff.1 hread
        rw [nullable_of_ne_null (mt prune_eq_null_iff.1 hnull),
          h (r.inside name) value b (hadmits value (mem_of_fieldOf hfield) hnull) hb]
        rfl
    | omitted =>
      rw [hfield] at hread
      cases hread
      rfl
    | pastEnd =>
      rw [hfield] at hread
      cases hread

/-- A field with a value when it is not there is read without members of the object, and has this
value if it is removed itself. -/
theorem defaulted_prune (r : Removal) {default a : α} (h : Follows shape n admits change)
    (hdefault : ∀ r, change r default = default)
    (hadmits : ∀ value, (some name, value) ∈ members → admits value)
    (hread : defaulted default shape n (fieldOf members name) = some a) :
  defaulted default shape n (fieldOf (pruneMembers r members) name)
    = some (r.keep name default (change (r.inside name) a))
  := by
  rw [fieldOf_pruneMembers]
  by_cases hdrops : r.drops (some name) = true
  · rw [prune_of_drops hdrops, Removal.keep, if_pos hdrops, defaulted]
    rintro value ⟨⟩
  · rw [Removal.keep, if_neg hdrops]
    cases hfield : fieldOf members name with
    | given value =>
      rw [hfield] at hread
      rw [Field.prune, if_neg hdrops, defaulted]
      apply h (r.inside name) value a (hadmits value (mem_of_fieldOf hfield)) hread
    | omitted =>
      rw [hfield] at hread
      cases hread
      rw [hdefault]
      rfl
    | pastEnd =>
      rw [hfield] at hread
      cases hread
      rw [hdefault]
      rfl

theorem optional_text_prune (r : Removal) {a : Option String}
    (hread : optional text n (fieldOf members name) = some a) :
  optional text n (fieldOf (pruneMembers r members) name) = some (r.keep name none a)
  := by
  have h := optional_prune r (follows_text n) (fun _ _ _ => trivial) hread
  simpa only [Option.map_id'] using h

theorem defaulted_texts_prune (r : Removal) {texts : List String}
    (hread : defaulted [] (list text) n (fieldOf members name) = some texts) :
  defaulted [] (list text) n (fieldOf (pruneMembers r members) name) = some (r.keep name [] texts)
  := by
  apply defaulted_prune r (follows_texts n) (fun _ => rfl) (fun _ _ => trivial) hread

end Shapes

end PluginHost.Json

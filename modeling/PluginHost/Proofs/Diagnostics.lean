import PluginHost.Proofs.Description
import PluginHost.Proofs.Pass

/-!
# Diagnostics of definitions

A definition is reached by the indices of the lists on the way to it, from outside to inside, where
the way leads through groups only (`Definition.Reaches`).  Ordered from the left these addresses are
in the order of a walk that visits a definition before those inside it.  The check of some
definitions finds for each that is reached what it lacks, once, in this order, and nothing else
(`Definition.exists_faults`).  All that is found becomes errors of the plugin, and what is recorded
about other plugins stays as it is (`Definition.defects_noted_in_preorder`).
-/

namespace PluginHost

namespace Definition

variable {locate : String → Option Path} {root : Path}

/-! ### What is reached, and what it lacks -/

/-- Whether an address leads from some definitions to a given one: each index is that of a definition
in its list, and every definition on the way is a group. -/
inductive Reaches (target : Definition) : List Definition → List Nat → Prop
  | here {ds : List Definition} {index : Nat} (h : ds[index]? = some target) :
    Reaches target ds [index]
  | through {ds : List Definition} {index : Nat} {group : Definition} {address : List Nat}
    (h : ds[index]? = some group) (hkind : group.kind = some "group")
    (hrest : Reaches target group.inside address) : Reaches target ds (index :: address)

/-- Whether a definition has a defect: there is no name, there is no description, or it is not clear
what it does. -/
inductive Lacks (locate : String → Option Path) (root : Path) (d : Definition) : Defect → Prop
  | unnamed (h : d.name = none) : Lacks locate root d .unnamed
  | undescribed (h : d.description = none) : Lacks locate root d .undescribed
  | untyped (h : d.kind = none) : Lacks locate root d .untyped
  | unknownType {type : String} (h : d.kind = some type) (hcommand : type ≠ "command")
    (hgroup : type ≠ "group") : Lacks locate root d (.unknownType type)
  | noHandler (hkind : d.kind = some "command") (h : d.handler = none) :
    Lacks locate root d .noHandler
  | missingHandler {request : String} (hkind : d.kind = some "command")
    (hhandler : d.handler = some request) (h : locate request = none) :
    Lacks locate root d (.missingHandler request root)
  | noChildren (hkind : d.kind = some "group") (h : d.inside = []) :
    Lacks locate root d .noChildren

end Definition

/-- The order in which the defects of one definition are reported: the name, the description, and
what it does. -/
def Defect.rank : Defect → Nat
  | unnamed => 0
  | undescribed => 1
  | _ => 2

/-- A defect of the definition at an address. -/
structure Fault where
  address : List Nat
  definition : Definition
  defect : Defect

namespace Fault

/-- Where the definition of a fault stands: as deep as its address is long, at the last index. -/
def place (f : Fault) : Place := ⟨f.address.length, f.address.getLastD 0, f.definition.name⟩

/-- What is found wrong. -/
def finding (f : Fault) : Finding := .defect f.place f.defect

/-- The wording of a fault. -/
def message (f : Fault) : String := f.defect.message f.place

/-- Whether a fault is one of those that can be reached from some definitions. -/
structure IsIn (locate : String → Option Path) (root : Path) (ds : List Definition) (f : Fault) :
    Prop where
  reaches : f.definition.Reaches ds f.address
  lacks : f.definition.Lacks locate root f.defect

/-- Whether a fault is reported before another one: its definition is visited before, or it is a
defect of the same definition that comes before. -/
def Before (f g : Fault) : Prop :=
  f.address < g.address ∨ f.address = g.address ∧ f.defect.rank < g.defect.rank

/-- Whether a list has exactly the faults with a property, each once, in order. -/
structure Lists (faults : List Fault) (P : Fault → Prop) : Prop where
  ordered : faults.Pairwise Before
  mem_iff : ∀ f, f ∈ faults ↔ P f

variable {faults others : List Fault} {P Q : Fault → Prop}

theorem Lists.append (h : Lists faults P) (hothers : Lists others Q)
    (hcross : ∀ f g, P f → Q g → f.Before g) :
  Lists (faults ++ others) fun f => P f ∨ Q f
  := by
  constructor
  · rw [List.pairwise_append]
    use h.ordered, hothers.ordered
    intro f hf g hg
    apply hcross f g ((h.mem_iff f).1 hf) ((hothers.mem_iff g).1 hg)
  · intro f
    rw [List.mem_append, h.mem_iff, hothers.mem_iff]

theorem Lists.congr (h : Lists faults P) (hiff : ∀ f, P f ↔ Q f) :
  Lists faults Q
  := by
  use h.ordered
  intro f
  rw [h.mem_iff, hiff]

end Fault

/-! ### Addresses -/

/-- Addresses that differ in an index are ordered as that is. -/
theorem append_cons_lt (front : List Nat) {i j : Nat} (h : i < j) (rest other : List Nat) :
  front ++ i :: rest < front ++ j :: other
  := by
  induction front with
  | nil => exact List.cons_lt_cons_iff.2 (.inl h)
  | cons k front ih => exact List.cons_lt_cons_iff.2 (.inr ⟨rfl, ih⟩)

/-- An address comes before those that lead on from it. -/
theorem lt_append_of_ne_nil (front : List Nat) {rest : List Nat} (h : rest ≠ []) :
  front < front ++ rest
  := by
  induction front with
  | nil =>
    obtain ⟨i, rest, rfl⟩ := List.exists_cons_of_ne_nil h
    apply List.nil_lt_cons
  | cons k front ih => exact List.cons_lt_cons_iff.2 (.inr ⟨rfl, ih⟩)

namespace Definition

variable {locate : String → Option Path} {root : Path}

theorem reaches_nil {target : Definition} {address : List Nat} :
  ¬ Reaches target [] address
  := by
  rintro (h | ⟨h, -, -⟩)
  · simp at h
  · simp at h

theorem Reaches.ne_nil {target : Definition} {ds : List Definition} {address : List Nat}
    (h : Reaches target ds address) :
  address ≠ []
  := by
  cases h <;> apply List.cons_ne_nil

/-- The definitions inside a definition that the check goes on with: those of a group. -/
def members (d : Definition) : List Definition := if d.kind = some "group" then d.inside else []

theorem reaches_members_iff {target d : Definition} {address : List Nat} :
  Reaches target d.members address ↔ d.kind = some "group" ∧ Reaches target d.inside address
  := by
  rw [members]
  split
  · next h => simp [h]
  · next h => simp [h, reaches_nil]

/-- The first index 0 leads to the first definition of a list, or goes on inside it. -/
theorem reaches_zero_iff {target d : Definition} {ds : List Definition} {rest : List Nat} :
  Reaches target (d :: ds) (0 :: rest) ↔ rest = [] ∧ target = d ∨ Reaches target d.members rest
  := by
  rw [reaches_members_iff]
  constructor
  · rintro (h | ⟨h, hkind, hrest⟩)
    · left
      exact ⟨rfl, (Option.some.inj h).symm⟩
    · right
      obtain rfl := Option.some.inj h
      exact ⟨hkind, hrest⟩
  · rintro (⟨rfl, rfl⟩ | ⟨hkind, hrest⟩)
    · apply Reaches.here rfl
    · apply Reaches.through rfl hkind hrest

/-- A greater first index leads on behind the first definition. -/
theorem reaches_succ_iff {target d : Definition} {ds : List Definition} {index : Nat}
    {rest : List Nat} :
  Reaches target (d :: ds) ((index + 1) :: rest) ↔ Reaches target ds (index :: rest)
  := by
  have hget : (d :: ds)[index + 1]? = ds[index]? := List.getElem?_cons_succ
  constructor
  · rintro (h | ⟨h, hkind, hrest⟩)
    · apply Reaches.here (hget.symm.trans h)
    · apply Reaches.through (hget.symm.trans h) hkind hrest
  · rintro (h | ⟨h, hkind, hrest⟩)
    · apply Reaches.here (hget.trans h)
    · apply Reaches.through (hget.trans h) hkind hrest

/-! ### The check of one definition -/

/-- What is not clear about what a definition does. -/
def kindDefects (locate : String → Option Path) (root : Path) (d : Definition) : List Defect :=
  match d.kind with
  | none => [.untyped]
  | some "command" => handlerDefects locate root d.handler
  | some "group" => if d.inside.isEmpty then [.noChildren] else []
  | some other => [.unknownType other]

/-- What a definition lacks itself. -/
def ownDefects (locate : String → Option Path) (root : Path) (d : Definition) : List Defect :=
  labelDefects d.name d.description ++ kindDefects locate root d

/-- What is found about a definition is what it lacks itself, and then what is found about those
inside it that the check goes on with. -/
theorem findings_eq (depth index : Nat) (d : Definition) :
  findings locate root depth index d
    = (ownDefects locate root d).map (.defect ⟨depth, index, d.name⟩)
      ++ listFindings locate root (depth + 1) 0 d.members
  := by
  obtain ⟨name, kind, description, aliases, summary, handler, children⟩ := d
  simp only [findings, ownDefects, kindDefects, members, List.map_append, List.append_assoc]
  congr 1
  split
  · simp [listFindings]
  · simp [listFindings]
  · rcases children with _ | _ | ⟨e, rest⟩
    · simp [childFindings, inside, listFindings]
    · simp [childFindings, inside, listFindings]
    · simp [childFindings, inside]
  · next other hcommand hgroup =>
    have hother : other ≠ "group" := hgroup
    simp [listFindings, hother]

theorem mem_labelDefects {d : Definition} {defect : Defect} :
  defect ∈ labelDefects d.name d.description ↔ defect.rank < 2 ∧ d.Lacks locate root defect
  := by
  rw [labelDefects, List.mem_append]
  constructor
  · rintro (h | h)
    · obtain ⟨hname, h⟩ := List.mem_ite_nil_right.1 h
      obtain rfl := List.mem_singleton.1 h
      exact ⟨by decide, .unnamed (by simpa using hname)⟩
    · obtain ⟨hdescription, h⟩ := List.mem_ite_nil_right.1 h
      obtain rfl := List.mem_singleton.1 h
      exact ⟨by decide, .undescribed (by simpa using hdescription)⟩
  · rintro ⟨hrank, h⟩
    cases h with
    | unnamed h => simp [h]
    | undescribed h => simp [h]
    | _ => cases Nat.lt_irrefl 2 hrank

theorem mem_kindDefects {d : Definition} {defect : Defect} :
  defect ∈ kindDefects locate root d ↔ defect.rank = 2 ∧ d.Lacks locate root defect
  := by
  constructor
  · intro h
    unfold kindDefects handlerDefects at h
    split at h
    · next hkind =>
      obtain rfl := List.mem_singleton.1 h
      exact ⟨rfl, .untyped hkind⟩
    · next hkind =>
      split at h
      · next hhandler =>
        obtain rfl := List.mem_singleton.1 h
        exact ⟨rfl, .noHandler hkind hhandler⟩
      · next hhandler =>
        split at h
        · next hlocate =>
          obtain rfl := List.mem_singleton.1 h
          exact ⟨rfl, .missingHandler hkind hhandler (by simpa using hlocate)⟩
        · cases h
    · next hkind =>
      split at h
      · next hinside =>
        obtain rfl := List.mem_singleton.1 h
        exact ⟨rfl, .noChildren hkind (by simpa using hinside)⟩
      · cases h
    · next other hcommand hgroup hkind =>
      obtain rfl := List.mem_singleton.1 h
      exact ⟨rfl, .unknownType hkind hcommand hgroup⟩
  · rintro ⟨hrank, h⟩
    cases h with
    | unnamed h => cases hrank
    | undescribed h => cases hrank
    | untyped h => simp [kindDefects, h]
    | unknownType h hcommand hgroup =>
      rw [kindDefects, h]
      simp
    | noHandler hkind h => simp [kindDefects, hkind, handlerDefects, h]
    | missingHandler hkind hhandler h => simp [kindDefects, hkind, handlerDefects, hhandler, h]
    | noChildren hkind h => simp [kindDefects, hkind, h]

theorem mem_ownDefects {d : Definition} {defect : Defect} :
  defect ∈ ownDefects locate root d ↔ d.Lacks locate root defect
  := by
  have hrank : defect.rank < 2 ∨ defect.rank = 2 := by
    cases defect <;> simp [Defect.rank]
  rw [ownDefects, List.mem_append, mem_labelDefects, mem_kindDefects, ← or_and_right]
  apply and_iff_right hrank

/-- At most one thing is not clear about what a definition does. -/
theorem length_kindDefects_le (d : Definition) :
  (kindDefects locate root d).length ≤ 1
  := by
  unfold kindDefects handlerDefects
  split
  · apply Nat.le_refl
  · split
    · apply Nat.le_refl
    · split <;> simp
  · split <;> simp
  · apply Nat.le_refl

/-- What a definition lacks itself is in order. -/
theorem pairwise_ownDefects (d : Definition) :
  (ownDefects locate root d).Pairwise fun a b => a.rank < b.rank
  := by
  rw [ownDefects, List.pairwise_append]
  refine ⟨?_, ?_, ?_⟩
  · rw [labelDefects]
    cases d.name <;> cases d.description <;> simp [Defect.rank]
  · rw [List.pairwise_iff_forall_sublist]
    intro a b h
    have hle := Nat.le_trans h.length_le (length_kindDefects_le d)
    simp at hle
  · intro a ha b hb
    have hlabel : a.rank < 2 ∧ d.Lacks locate root a := mem_labelDefects.1 ha
    rw [(mem_kindDefects.1 hb).1]
    apply hlabel.1

/-- What a definition at an address lacks itself. -/
theorem lists_own (locate : String → Option Path) (root : Path) (address : List Nat)
    (d : Definition) :
  Fault.Lists ((ownDefects locate root d).map (Fault.mk address d)) fun f =>
    f.address = address ∧ f.definition = d ∧ d.Lacks locate root f.defect
  := by
  constructor
  · rw [List.pairwise_map]
    apply (pairwise_ownDefects d).imp
    intro a b hrank
    exact .inr ⟨rfl, hrank⟩
  · rintro ⟨other, e, defect⟩
    simp only [List.mem_map, mem_ownDefects, Fault.mk.injEq]
    constructor
    · rintro ⟨_, hlacks, rfl, rfl, rfl⟩
      exact ⟨rfl, rfl, hlacks⟩
    · rintro ⟨rfl, rfl, hlacks⟩
      exact ⟨defect, hlacks, rfl, rfl, rfl⟩

/-! ### The check of several definitions -/

/-- What is found about the definitions of a list, from an index on, are the faults that are reached
from it, if this is so for each of them. -/
theorem exists_faults_of_forall (ds : List Definition) (front : List Nat)
    (h : ∀ d ∈ ds, ∀ index, ∃ faults : List Fault,
      findings locate root (front.length + 1) index d = faults.map Fault.finding
        ∧ Fault.Lists faults fun f => ∃ rest, f.address = front ++ index :: rest
          ∧ (rest = [] ∧ f.definition = d ∨ f.definition.Reaches d.members rest)
          ∧ f.definition.Lacks locate root f.defect) (index : Nat) :
  ∃ faults : List Fault,
    listFindings locate root (front.length + 1) index ds = faults.map Fault.finding
      ∧ Fault.Lists faults fun f => ∃ i rest, f.address = front ++ (index + i) :: rest
        ∧ f.definition.Reaches ds (i :: rest) ∧ f.definition.Lacks locate root f.defect
  := by
  induction ds generalizing index with
  | nil =>
    use [], rfl
    constructor
    · apply List.Pairwise.nil
    · simp [reaches_nil]
  | cons d ds ih =>
    obtain ⟨hd, hds⟩ := List.forall_mem_cons.1 h
    obtain ⟨first, hfirst, hfirst_lists⟩ := hd index
    obtain ⟨others, hothers, hothers_lists⟩ := ih hds (index + 1)
    use first ++ others
    rw [listFindings, hfirst, hothers, List.map_append]
    use rfl
    apply (hfirst_lists.append hothers_lists _).congr
    · intro f
      constructor
      · rintro (⟨rest, haddress, hreach, hlacks⟩ | ⟨i, rest, haddress, hreach, hlacks⟩)
        · exact ⟨0, rest, haddress, reaches_zero_iff.2 hreach, hlacks⟩
        · refine ⟨i + 1, rest, ?_, reaches_succ_iff.2 hreach, hlacks⟩
          rw [haddress, Nat.add_right_comm, Nat.add_assoc]
      · rintro ⟨i, rest, haddress, hreach, hlacks⟩
        cases i with
        | zero =>
          left
          exact ⟨rest, haddress, reaches_zero_iff.1 hreach, hlacks⟩
        | succ i =>
          right
          refine ⟨i, rest, ?_, reaches_succ_iff.1 hreach, hlacks⟩
          rw [haddress, Nat.add_right_comm, Nat.add_assoc]
    · rintro f g ⟨rest, hf, -⟩ ⟨i, other, hg, -⟩
      left
      rw [hf, hg]
      apply append_cons_lt
      omega

/-- What is found about a definition are its own faults, and then those that are reached inside it. -/
theorem exists_faults_of_definition (locate : String → Option Path) (root : Path) (d : Definition)
    (front : List Nat) (index : Nat) :
  ∃ faults : List Fault,
    findings locate root (front.length + 1) index d = faults.map Fault.finding
      ∧ Fault.Lists faults fun f => ∃ rest, f.address = front ++ index :: rest
        ∧ (rest = [] ∧ f.definition = d ∨ f.definition.Reaches d.members rest)
        ∧ f.definition.Lacks locate root f.defect
  := by
  induction d using inside_induction generalizing front index with
  | h d ih =>
    have hmembers : ∀ e ∈ d.members, e ∈ d.inside := by
      rw [members]
      split <;> simp
    have hlength : (front ++ [index]).length = front.length + 1 := by simp
    obtain ⟨others, hothers, hothers_lists⟩ := exists_faults_of_forall d.members
      (front ++ [index]) (fun e he i => ih e (hmembers e he) (front ++ [index]) i) 0
    have hown := lists_own locate root (front ++ [index]) d
    use (ownDefects locate root d).map (Fault.mk (front ++ [index]) d) ++ others
    rw [findings_eq, ← hlength, hothers, List.map_append, List.map_map]
    constructor
    · congr 2
      funext defect
      simp [Fault.finding, Fault.place]
    · apply (hown.append hothers_lists _).congr
      · intro f
        constructor
        · rintro (⟨haddress, rfl, hlacks⟩ | ⟨i, rest, haddress, hreach, hlacks⟩)
          · exact ⟨[], haddress, .inl ⟨rfl, rfl⟩, hlacks⟩
          · refine ⟨i :: rest, ?_, .inr hreach, hlacks⟩
            rw [haddress, Nat.zero_add, List.append_assoc, List.singleton_append]
        · rintro ⟨rest, haddress, ⟨rfl, rfl⟩ | hreach, hlacks⟩
          · exact .inl ⟨haddress, rfl, hlacks⟩
          · right
            obtain ⟨i, rest, rfl⟩ := List.exists_cons_of_ne_nil hreach.ne_nil
            refine ⟨i, rest, ?_, hreach, hlacks⟩
            rw [haddress, Nat.zero_add, List.append_assoc, List.singleton_append]
      · rintro f g ⟨hf, -⟩ ⟨i, rest, hg, -⟩
        left
        rw [hf, hg]
        apply lt_append_of_ne_nil _ (List.cons_ne_nil _ _)

/-- What is found about some definitions are the faults that are reached from them, in order. -/
theorem exists_faults (locate : String → Option Path) (root : Path) (ds : List Definition) :
  ∃ faults : List Fault, listFindings locate root 1 0 ds = faults.map Fault.finding
    ∧ Fault.Lists faults (Fault.IsIn locate root ds)
  := by
  obtain ⟨faults, hfaults, hlists⟩ := exists_faults_of_forall ds []
    (fun d _ index => exists_faults_of_definition locate root d [] index) 0
  use faults, hfaults
  apply hlists.congr
  intro f
  constructor
  · rintro ⟨i, rest, haddress, hreach, hlacks⟩
    constructor
    · rw [haddress, List.nil_append, Nat.zero_add]
      apply hreach
    · apply hlacks
  · rintro ⟨hreach, hlacks⟩
    obtain ⟨i, rest, haddress⟩ := List.exists_cons_of_ne_nil hreach.ne_nil
    rw [haddress] at hreach
    refine ⟨i, rest, ?_, hreach, hlacks⟩
    rw [haddress, List.nil_append, Nat.zero_add]

end Definition

/-! ### What the diagnostics say -/

/-- Whether a text has another one in it. -/
def Text.Mentions (s text : String) : Prop := ∃ before after, s = before ++ text ++ after

section

open Text

variable {s text other : String}

theorem Text.mentions_append (before text after : String) :
  Mentions (before ++ text ++ after) text
  := ⟨before, after, rfl⟩

theorem Text.Mentions.append (h : Mentions s text) (after : String) :
  Mentions (s ++ after) text
  := by
  obtain ⟨before, between, rfl⟩ := h
  use before, between ++ after
  simp only [String.append_assoc]

theorem Text.Mentions.trans (h : Mentions s text) (htext : Mentions text other) :
  Mentions s other
  := by
  obtain ⟨before, after, rfl⟩ := h
  obtain ⟨front, back, rfl⟩ := htext
  use before ++ front, back ++ after
  simp only [String.append_assoc]

end

namespace Fault

open Text (Mentions mentions_append)

variable {locate : String → Option Path} {root : Path} {ds : List Definition} {f : Fault}

/-- Every fault but a handler without a file is worded with the name of its definition, or else its
number, and with its depth. -/
theorem IsIn.mentions_text (h : f.IsIn locate root ds)
    (hdefect : ∀ request, f.defect ≠ .missingHandler request root) :
  Mentions f.message f.place.text
  := by
  obtain ⟨address, ⟨name, kind, description, aliases, summary, handler, children⟩, defect⟩ := f
  obtain ⟨-, hlacks⟩ := h
  cases hlacks with
  | unnamed h =>
    obtain rfl := h
    use "Command definition ", " has no 'name' property"
    change "Command definition #" ++ _ ++ " at depth " ++ _ ++ _
      = "Command definition " ++ ("#" ++ _ ++ " at depth " ++ _) ++ _
    simp only [← String.append_assoc]
    rfl
  | undescribed h => apply mentions_append "Command "
  | untyped h => apply mentions_append "Command "
  | unknownType h hcommand hgroup =>
    apply Mentions.append
    apply Mentions.append
    apply mentions_append "Command "
  | noHandler hkind h => apply mentions_append "Command "
  | missingHandler hkind hhandler h => cases hdefect _ rfl
  | noChildren hkind h =>
    apply Mentions.append
    apply mentions_append "Group "

/-- Every fault is worded with the name of its definition, or else its number. -/
theorem IsIn.mentions_label (h : f.IsIn locate root ds) :
  Mentions f.message f.place.label
  := by
  by_cases hdefect : ∃ request, f.defect = .missingHandler request root
  · obtain ⟨request, hdefect⟩ := hdefect
    rw [message, hdefect]
    apply Mentions.append
    apply mentions_append
  · have hlabel : Mentions f.place.text f.place.label := by
      use "", " at depth " ++ Text.decimal f.place.depth
      rw [Place.text, String.empty_append, String.append_assoc]
    apply (h.mentions_text (not_exists.1 hdefect)).trans hlabel

end Fault

namespace IssueLog

/-- What is recorded about a plugin leaves everything about others as it is. -/
theorem get?_recordAll_of_ne (log : IssueLog) {plugin other : String}
    (found : List (Severity × String)) (h : plugin ≠ other) :
  (log.recordAll plugin found).get? other = log.get? other
  := by
  induction found generalizing log with
  | nil => rfl
  | cons f rest ih =>
    rw [recordAll, List.foldl_cons, ← recordAll, ih, record, ByName.get?_insert_of_ne _ _ h]

end IssueLog

namespace Definition

open Text (Mentions)

/-- The check of some definitions records an error for each fault that is reached from them, in the
order of the walk, and changes nothing else: not what has been recorded before, and nothing about
other plugins.  Each error names the definition, or else its number, and its depth.  The exception
is the error about a handler without a file, which is the same for a definition at any depth. -/
theorem defects_noted_in_preorder (ds : List Definition) (root : Path) (r : Redirect)
    (files : Files) (i : Inspection) :
  ∃ faults : List Fault, Fault.Lists faults (Fault.IsIn (r.locate? files root) root ds)
    ∧ (i.note (listFindings (r.locate? files root) root 1 0 ds)).log.issuesOf i.plugin
      = i.log.issuesOf i.plugin ++ faults.map (fun f => ⟨i.plugin, .error, f.message⟩)
    ∧ (∀ other, i.plugin ≠ other →
      (i.note (listFindings (r.locate? files root) root 1 0 ds)).log.get? other
        = i.log.get? other)
    ∧ (faults = [] → i.note (listFindings (r.locate? files root) root 1 0 ds) = i)
    ∧ ∀ f ∈ faults, Mentions f.message f.place.label
      ∧ (Mentions f.message f.place.text
        ∨ ∃ request, f.defect = .missingHandler request root
          ∧ ∀ depth, f.defect.message { f.place with depth } = f.message)
  := by
  obtain ⟨faults, hfaults, hlists⟩ := exists_faults (r.locate? files root) root ds
  use faults, hlists
  rw [hfaults]
  refine ⟨?_, ?_, ?_, ?_⟩
  · rw [Inspection.note, IssueLog.issuesOf_recordFindings_self, List.map_map]
    rfl
  · intro other hother
    apply IssueLog.get?_recordAll_of_ne _ _ hother
  · rintro rfl
    rfl
  · intro f hf
    have hin := (hlists.mem_iff f).1 hf
    use hin.mentions_label
    by_cases hdefect : ∃ request, f.defect = .missingHandler request root
    · right
      obtain ⟨request, hdefect⟩ := hdefect
      use request, hdefect
      intro depth
      rw [Fault.message, hdefect]
      rfl
    · left
      apply hin.mentions_text (not_exists.1 hdefect)

/-- A command with a handler that has no file. -/
def sampleOrphan : Definition where
  name := some "ghost"
  kind := some "command"
  description := some "-"
  aliases := []
  summary := none
  handler := some "gone"
  children := none

/-- The depth of a command whose handler has no file is not named. -/
theorem depth_of_missing_handler_is_not_named :
  (Fault.mk [0] sampleOrphan (.missingHandler "gone" ⟨"/m/data"⟩)).place.depth = 1
    ∧ listFindings (Loader.sample.redirect.locate? Files.sample ⟨"/m/data"⟩) ⟨"/m/data"⟩ 1 0
        [sampleOrphan]
      = [(Fault.mk [0] sampleOrphan (.missingHandler "gone" ⟨"/m/data"⟩)).finding]
    ∧ (Fault.mk [0] sampleOrphan (.missingHandler "gone" ⟨"/m/data"⟩)).message
      = "The handler 'gone' for command 'ghost' does not exist in /m/data"
    ∧ ¬ Mentions (Fault.mk [0] sampleOrphan (.missingHandler "gone" ⟨"/m/data"⟩)).message
      (Text.decimal 1)
  := by
  refine ⟨rfl, by decide +kernel, by decide +kernel, ?_⟩
  have habsent : ¬ ['1'] <:+: (Fault.mk [0] sampleOrphan
      (.missingHandler "gone" ⟨"/m/data"⟩)).message.toList := by decide +kernel
  rintro ⟨before, after, h⟩
  apply habsent
  rw [h, String.toList_append, String.toList_append]
  apply List.infix_append

end Definition

end PluginHost

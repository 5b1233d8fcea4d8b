import PluginHost.Proofs.Diagnostics
import PluginHost.Proofs.Ownership

/-!
# Diagnostics of profile types

A flaw of the profiles of a plugin beside some known types is a profile without a type, a pair of
profiles of the same type, or a profile of a known type (`ProfileType.Flaw.IsIn`).  The check of
profiles finds every flaw once, in this order and in the order of the indices
(`ProfileType.map_finding_flaws`, `ProfileType.mem_flaws_iff`, `ProfileType.pairwise_flaws`).  Each
becomes an error of the plugin, and nothing else changes, so nothing at all changes exactly if the
plugin owns its types (`ProfileType.flaws_noted_in_order`).
-/

namespace PluginHost.ProfileType

variable {known : List String} {profiles : List ProfileType} {type : String} {index : Nat}

/-! ### Flaws -/

/-- Whether the profile at an index has a type. -/
def HasTypeAt (profiles : List ProfileType) (index : Nat) (type : String) : Prop :=
  ∃ p, profiles[index]? = some p ∧ p.type = some type

/-- Something that is wrong with the types of some profiles. -/
inductive Flaw where
  | untyped (index : Nat)
  | repeated (first second : Nat) (type : String)
  | taken (index : Nat) (type : String)

namespace Flaw

/-- What is found wrong. -/
def finding : Flaw → Finding
  | untyped index => .untypedProfile index
  | repeated first second type => .repeatedProfile type first second
  | taken _ type => .knownProfile type

/-- The wording of a flaw. -/
def message (f : Flaw) : String := f.finding.message

/-- What the wording of a flaw has to name: the index of the profile, the indices of both, or the
known type. -/
def reference : Flaw → String
  | untyped index => Text.decimal index
  | repeated first second _ => Text.decimal first ++ " and again at index " ++ Text.decimal second
  | taken _ type => type

/-- Whether a flaw is one of some profiles beside some known types. -/
inductive IsIn (types : List String) (profiles : List ProfileType) : Flaw → Prop
  | untyped {index : Nat} {p : ProfileType} (h : profiles[index]? = some p) (htype : p.type = none) :
    IsIn types profiles (.untyped index)
  | repeated {first second : Nat} {type : String} (hlt : first < second)
      (hfirst : HasTypeAt profiles first type) (hsecond : HasTypeAt profiles second type) :
    IsIn types profiles (.repeated first second type)
  | taken {index : Nat} {type : String} (h : HasTypeAt profiles index type) (hknown : type ∈ types) :
    IsIn types profiles (.taken index type)

/-- The place of a flaw in the order of the report: the kind first, and then the indices. -/
def place : Flaw → List Nat
  | untyped index => [0, index]
  | repeated first second _ => [1, first, second]
  | taken index _ => [2, index]

/-- Whether a flaw is reported before another one. -/
def Before (f g : Flaw) : Prop := f.place < g.place

/-- Every flaw is worded with what it has to name. -/
theorem mentions_reference (f : Flaw) :
  Text.Mentions f.message f.reference
  := by
  cases f with
  | untyped index => apply Text.mentions_append "The profile definition at index "
  | repeated first second type =>
    refine ⟨"The profile type '" ++ type ++ "' is defined at index ",
      ". Profile types must be unique", ?_⟩
    rw [reference, ← String.append_assoc, ← String.append_assoc]
    rfl
  | taken index type => apply Text.mentions_append "The profile type '"

end Flaw

/-! ### Profiles with their indices -/

theorem pairwise_zipIdx {α : Type} (l : List α) (n : Nat) :
  (l.zipIdx n).Pairwise fun a b => a.2 < b.2
  := by
  rw [← List.pairwise_map, List.zipIdx_map_snd]
  exact List.pairwise_lt_range'

theorem mem_typesFrom_iff :
  (type, index) ∈ typesFrom 0 profiles ↔ HasTypeAt profiles index type
  := by
  rw [typesFrom, List.mem_filterMap, HasTypeAt]
  constructor
  · rintro ⟨⟨p, i⟩, hmem, htype⟩
    obtain ⟨_, hp, heq⟩ := Option.map_eq_some_iff.1 htype
    cases heq
    exact ⟨p, List.mem_zipIdx_iff_getElem?.1 hmem, hp⟩
  · rintro ⟨p, hp, htype⟩
    exact ⟨(p, index), List.mem_zipIdx_iff_getElem?.2 hp, by simp [htype]⟩

theorem pairwise_typesFrom (profiles : List ProfileType) :
  (typesFrom 0 profiles).Pairwise fun a b => a.2 < b.2
  := by
  apply List.Pairwise.filterMap _ _ (pairwise_zipIdx profiles 0)
  rintro ⟨p, i⟩ ⟨q, j⟩ hlt ⟨type, _⟩ htype ⟨other, _⟩ hother
  obtain ⟨_, -, heq⟩ := Option.map_eq_some_iff.1 htype
  obtain ⟨_, -, heq'⟩ := Option.map_eq_some_iff.1 hother
  cases heq
  cases heq'
  apply hlt

/-! ### The flaws of a list of profiles -/

/-- The profiles without a type. -/
def untypedFlaws (profiles : List ProfileType) : List Flaw :=
  profiles.zipIdx.filterMap fun (p, i) => if p.type.isNone then some (.untyped i) else none

/-- The pairs of entries of the same type. -/
def repeatedFlaws : List (String × Nat) → List Flaw
  | [] => []
  | (type, i) :: rest =>
    (rest.filterMap fun (other, j) => if other = type then some (.repeated i j type) else none)
      ++ repeatedFlaws rest

/-- The entries of a known type. -/
def knownFlaws (known : List String) (entries : List (String × Nat)) : List Flaw :=
  entries.filterMap fun (type, i) => if known.contains type then some (.taken i type) else none

/-- The flaws of some profiles. -/
def flaws (known : List String) (profiles : List ProfileType) : List Flaw :=
  untypedFlaws profiles ++ repeatedFlaws (typesFrom 0 profiles)
    ++ knownFlaws known (typesFrom 0 profiles)

theorem map_finding_repeatedFlaws (entries : List (String × Nat)) :
  (repeatedFlaws entries).map Flaw.finding = repeatedFindings entries
  := by
  induction entries with
  | nil => rfl
  | cons e rest ih =>
    obtain ⟨type, i⟩ := e
    rw [repeatedFlaws, repeatedFindings, List.map_append, ih, List.map_filterMap]
    congr 2
    funext e
    obtain ⟨other, j⟩ := e
    dsimp only
    split <;> rfl

/-- What is found about some profiles are their flaws. -/
theorem map_finding_flaws (known : List String) (profiles : List ProfileType) :
  (flaws known profiles).map Flaw.finding = findings known profiles
  := by
  rw [flaws, findings, List.map_append, List.map_append, map_finding_repeatedFlaws]
  congr 1
  · congr 1
    rw [untypedFlaws, untypedFindings, List.map_filterMap]
    congr 1
    funext e
    obtain ⟨p, i⟩ := e
    dsimp only
    split <;> rfl
  · rw [knownFlaws, knownFindings, ← map_typesFrom 0, List.map_filterMap, List.filterMap_map]
    congr 1
    funext e
    obtain ⟨type, i⟩ := e
    dsimp only [Function.comp_apply]
    split <;> rfl

/-! ### Each flaw once -/

theorem mem_untypedFlaws_iff {f : Flaw} :
  f ∈ untypedFlaws profiles ↔ ∃ index p, profiles[index]? = some p ∧ p.type = none ∧ f = .untyped index
  := by
  rw [untypedFlaws, List.mem_filterMap]
  constructor
  · rintro ⟨⟨p, i⟩, hmem, hf⟩
    obtain ⟨htype, hf⟩ := Option.ite_none_right_eq_some.1 hf
    exact ⟨i, p, List.mem_zipIdx_iff_getElem?.1 hmem, Option.isNone_iff_eq_none.1 htype,
      (Option.some.inj hf).symm⟩
  · rintro ⟨i, p, hp, htype, rfl⟩
    exact ⟨(p, i), List.mem_zipIdx_iff_getElem?.2 hp, by simp [htype]⟩

theorem mem_repeatedFlaws_iff {entries : List (String × Nat)}
    (h : entries.Pairwise fun a b => a.2 < b.2) {f : Flaw} :
  f ∈ repeatedFlaws entries ↔ ∃ first second type, first < second ∧ (type, first) ∈ entries
    ∧ (type, second) ∈ entries ∧ f = .repeated first second type
  := by
  induction entries with
  | nil => simp [repeatedFlaws]
  | cons e rest ih =>
    obtain ⟨type, i⟩ := e
    obtain ⟨hfirst, hrest⟩ := List.pairwise_cons.1 h
    rw [repeatedFlaws, List.mem_append, ih hrest, List.mem_filterMap]
    constructor
    · rintro (⟨⟨other, j⟩, hmem, hf⟩ | ⟨first, second, other, hlt, hmem, hmem', rfl⟩)
      · obtain ⟨rfl, hf⟩ := Option.ite_none_right_eq_some.1 hf
        exact ⟨i, j, other, hfirst _ hmem, List.mem_cons_self, List.mem_cons_of_mem _ hmem,
          (Option.some.inj hf).symm⟩
      · exact ⟨first, second, other, hlt, List.mem_cons_of_mem _ hmem, List.mem_cons_of_mem _ hmem',
          rfl⟩
    · rintro ⟨first, second, other, hlt, hmem, hmem', rfl⟩
      rcases List.mem_cons.1 hmem' with heq | hmem'
      · -- no entry has a smaller index than the first one
        cases heq
        rcases List.mem_cons.1 hmem with heq | hmem
        · cases heq
          cases Nat.lt_irrefl _ hlt
        · cases Nat.lt_asymm hlt (hfirst _ hmem)
      · rcases List.mem_cons.1 hmem with heq | hmem
        · cases heq
          exact .inl ⟨(type, second), hmem', by simp⟩
        · exact .inr ⟨first, second, other, hlt, hmem, hmem', rfl⟩

theorem mem_knownFlaws_iff {entries : List (String × Nat)} {f : Flaw} :
  f ∈ knownFlaws known entries ↔ ∃ index type, (type, index) ∈ entries ∧ type ∈ known
    ∧ f = .taken index type
  := by
  rw [knownFlaws, List.mem_filterMap]
  constructor
  · rintro ⟨⟨type, i⟩, hmem, hf⟩
    obtain ⟨hknown, hf⟩ := Option.ite_none_right_eq_some.1 hf
    exact ⟨i, type, hmem, List.contains_iff_mem.1 hknown, (Option.some.inj hf).symm⟩
  · rintro ⟨i, type, hmem, hknown, rfl⟩
    exact ⟨(type, i), hmem, by simp [hknown]⟩

/-- The flaws of some profiles are those that they have beside the known types. -/
theorem mem_flaws_iff {f : Flaw} :
  f ∈ flaws known profiles ↔ f.IsIn known profiles
  := by
  rw [flaws, List.mem_append, List.mem_append, mem_untypedFlaws_iff,
    mem_repeatedFlaws_iff (pairwise_typesFrom profiles), mem_knownFlaws_iff]
  simp only [mem_typesFrom_iff]
  constructor
  · rintro ((⟨i, p, hp, htype, rfl⟩ | ⟨i, j, type, hlt, hi, hj, rfl⟩) | ⟨i, type, hi, hknown, rfl⟩)
    · exact .untyped hp htype
    · exact .repeated hlt hi hj
    · exact .taken hi hknown
  · intro h
    cases h with
    | untyped hp htype => exact .inl (.inl ⟨_, _, hp, htype, rfl⟩)
    | repeated hlt hi hj => exact .inl (.inr ⟨_, _, _, hlt, hi, hj, rfl⟩)
    | taken hi hknown => exact .inr ⟨_, _, hi, hknown, rfl⟩

/-! ### The order of flaws -/

/-- Flaws of one kind are in order if the indices that they begin with are. -/
theorem before_of_lt {kind i j : Nat} {rest other : List Nat} {f g : Flaw}
    (hf : f.place = kind :: i :: rest) (hg : g.place = kind :: j :: other) (h : i < j) :
  f.Before g
  := by
  rw [Flaw.Before, hf, hg]
  apply append_cons_lt [kind] h

theorem pairwise_untypedFlaws (profiles : List ProfileType) :
  (untypedFlaws profiles).Pairwise Flaw.Before
  := by
  apply List.Pairwise.filterMap _ _ (pairwise_zipIdx profiles 0)
  rintro ⟨p, i⟩ ⟨q, j⟩ hlt f hf g hg
  obtain ⟨-, hf⟩ := Option.ite_none_right_eq_some.1 hf
  obtain ⟨-, hg⟩ := Option.ite_none_right_eq_some.1 hg
  cases hf
  cases hg
  apply before_of_lt rfl rfl hlt

theorem pairwise_repeatedFlaws {entries : List (String × Nat)}
    (h : entries.Pairwise fun a b => a.2 < b.2) :
  (repeatedFlaws entries).Pairwise Flaw.Before
  := by
  induction entries with
  | nil => apply List.Pairwise.nil
  | cons e rest ih =>
    obtain ⟨type, i⟩ := e
    obtain ⟨hfirst, hrest⟩ := List.pairwise_cons.1 h
    rw [repeatedFlaws, List.pairwise_append]
    refine ⟨?_, ih hrest, ?_⟩
    · apply List.Pairwise.filterMap _ _ hrest
      rintro ⟨other, j⟩ ⟨another, k⟩ hlt f hf g hg
      obtain ⟨-, hf⟩ := Option.ite_none_right_eq_some.1 hf
      obtain ⟨-, hg⟩ := Option.ite_none_right_eq_some.1 hg
      cases hf
      cases hg
      apply append_cons_lt [1, i] hlt
    · intro f hf g hg
      obtain ⟨⟨other, j⟩, -, hf⟩ := List.mem_filterMap.1 hf
      obtain ⟨-, hf⟩ := Option.ite_none_right_eq_some.1 hf
      cases hf
      obtain ⟨first, second, another, -, hmem, -, rfl⟩ := (mem_repeatedFlaws_iff hrest).1 hg
      apply before_of_lt rfl rfl (hfirst _ hmem)

theorem pairwise_knownFlaws {entries : List (String × Nat)}
    (h : entries.Pairwise fun a b => a.2 < b.2) :
  (knownFlaws known entries).Pairwise Flaw.Before
  := by
  apply List.Pairwise.filterMap _ _ h
  rintro ⟨type, i⟩ ⟨other, j⟩ hlt f hf g hg
  obtain ⟨-, hf⟩ := Option.ite_none_right_eq_some.1 hf
  obtain ⟨-, hg⟩ := Option.ite_none_right_eq_some.1 hg
  cases hf
  cases hg
  apply before_of_lt rfl rfl hlt

/-- The flaws of some profiles are in order. -/
theorem pairwise_flaws (known : List String) (profiles : List ProfileType) :
  (flaws known profiles).Pairwise Flaw.Before
  := by
  have hkind : ∀ {a b : Nat} (rest other : List Nat), a < b → a :: rest < b :: other :=
    fun rest other h => append_cons_lt [] h rest other
  have htypes := pairwise_typesFrom profiles
  rw [flaws, List.pairwise_append, List.pairwise_append]
  refine ⟨⟨pairwise_untypedFlaws profiles, pairwise_repeatedFlaws htypes, ?_⟩,
    pairwise_knownFlaws htypes, ?_⟩
  · intro f hf g hg
    obtain ⟨i, p, -, -, rfl⟩ := mem_untypedFlaws_iff.1 hf
    obtain ⟨j, k, type, -, -, -, rfl⟩ := (mem_repeatedFlaws_iff htypes).1 hg
    apply hkind _ _ (by decide)
  · intro f hf g hg
    obtain ⟨k, type, -, -, rfl⟩ := mem_knownFlaws_iff.1 hg
    rcases List.mem_append.1 hf with hf | hf
    · obtain ⟨i, p, -, -, rfl⟩ := mem_untypedFlaws_iff.1 hf
      apply hkind _ _ (by decide)
    · obtain ⟨i, j, other, -, -, -, rfl⟩ := (mem_repeatedFlaws_iff htypes).1 hf
      apply hkind _ _ (by decide)

/-! ### What is noted -/

/-- The check of the profiles of a plugin records an error for each flaw that they have beside the
known types: first for each profile without a type, then for each pair of profiles of the same type,
then for each profile of a known type.  Each error names the indices, or the known type.  Nothing
else changes: not what has been recorded before, and nothing about other plugins.  So nothing
changes at all exactly if every profile has a type and the types are distinct and not known. -/
theorem flaws_noted_in_order (known : List String) (profiles : List ProfileType) (i : Inspection) :
  ∃ (found : List Flaw) (log : IssueLog), i.note (findings known profiles) = { i with log }
    ∧ found.Pairwise Flaw.Before ∧ (∀ f, f ∈ found ↔ f.IsIn known profiles)
    ∧ log.issuesOf i.plugin
      = i.log.issuesOf i.plugin ++ found.map (fun f => ⟨i.plugin, .error, f.message⟩)
    ∧ (∀ f ∈ found, Text.Mentions f.message f.reference)
    ∧ (∀ other, i.plugin ≠ other → log.get? other = i.log.get? other)
    ∧ (i.note (findings known profiles) = i ↔ Owns known profiles)
  := by
  refine ⟨flaws known profiles, (i.note (findings known profiles)).log, rfl,
    pairwise_flaws known profiles, fun f => mem_flaws_iff, ?_, fun f _ => f.mentions_reference, ?_, ?_⟩
  · rw [← map_finding_flaws, Inspection.note, IssueLog.issuesOf_recordFindings_self, List.map_map]
    congr 2
    funext f
    cases f <;> rfl
  · intro other hother
    apply IssueLog.get?_recordAll_of_ne _ _ hother
  · rw [Inspection.note_eq_self_iff, findings_eq_nil_iff]

/-- A gap between two profiles of the same type hides neither the gap nor the pair. -/
example :
  findings ["base"] [⟨some "db", .null⟩, ⟨none, .null⟩, ⟨some "db", .null⟩, ⟨some "base", .null⟩]
    = [.untypedProfile 1, .repeatedProfile "db" 0 2, .knownProfile "base"]
  := rfl

end PluginHost.ProfileType

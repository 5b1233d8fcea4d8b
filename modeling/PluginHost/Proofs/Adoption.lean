import Mathlib.Tactic.Use
import PluginHost.Composition

/-!
# Adoption and its undoing

`CommandTree.grow` puts nodes behind the children of a group.  A candidate is adopted exactly by
a group none of whose children has its very name, and the result is the group grown by the
candidate.  As no other child has that name, taking the first child of the name out again gives
back the group as it was.
-/

namespace PluginHost.CommandTree

/-- The tree with some nodes behind its children; a command stays as it is. -/
def grow (t : CommandTree) (nodes : List CommandTree) : CommandTree :=
  match t with
  | command .. => t
  | group l cs => group l (cs ++ nodes)

@[simp]
theorem grow_nil (t : CommandTree) :
  t.grow [] = t
  := by
  cases t with
  | command l h => rfl
  | group l cs => rw [grow, List.append_nil]

theorem grow_append (t : CommandTree) (nodes more : List CommandTree) :
  t.grow (nodes ++ more) = (t.grow nodes).grow more
  := by
  cases t with
  | command l h => rfl
  | group l cs => simp only [grow, List.append_assoc]

theorem children_grow {t : CommandTree} (h : t.isGroup = true) (nodes : List CommandTree) :
  (t.grow nodes).children = t.children ++ nodes
  := by
  cases t with
  | command l h' => simp [isGroup] at h
  | group l cs => rfl

/-- A candidate is adopted by a group that has no child of its name, and stands behind the
children of the group then. -/
theorem adopt_eq_ok_iff {t candidate grown : CommandTree} :
  t.adopt candidate = .ok grown
    ↔ t.isGroup = true ∧ (∀ c ∈ t.children, c.name ≠ candidate.name)
      ∧ grown = t.grow [candidate]
  := by
  cases t with
  | command l h => simp [adopt, isGroup]
  | group l cs =>
    by_cases htaken : cs.any (·.name == candidate.name)
    · obtain ⟨c, hc, hname⟩ := List.any_eq_true.1 htaken
      simp only [adopt, htaken, if_true, reduceCtorEq, false_iff]
      rintro ⟨-, hfree, -⟩
      apply hfree c hc
      simpa using hname
    · have hfree : ∀ c ∈ cs, c.name ≠ candidate.name := by
        intro c hc hname
        apply htaken
        apply List.any_eq_true.2
        use c, hc
        simpa using hname
      simp only [adopt, htaken, children, grow]
      constructor
      · intro h
        obtain rfl := Except.ok.inj h
        use rfl, hfree
      · rintro ⟨-, -, rfl⟩
        rfl

/-- An adopted candidate is the first child of its name, so taking that child out gives the tree
before the adoption. -/
theorem dropChild?_of_adopt {t candidate grown : CommandTree}
    (h : t.adopt candidate = .ok grown) :
  grown.dropChild? candidate.name = some (candidate, t)
  := by
  obtain ⟨hgroup, hfree, rfl⟩ := adopt_eq_ok_iff.1 h
  cases t with
  | command l h' => simp [isGroup] at hgroup
  | group l cs =>
    have hnone : cs.find? (·.name == candidate.name) = none := by
      apply List.find?_eq_none.2
      intro c hc
      simpa using hfree c hc
    have herase : (cs ++ [candidate]).eraseP (·.name == candidate.name) = cs := by
      rw [List.eraseP_append_right]
      · simp
      · intro c hc
        simpa using hfree c hc
    simp only [grow, dropChild?, herase]
    rw [List.find?_append, hnone]
    simp

end PluginHost.CommandTree

import PluginHost.Proofs.Words

/-!
# Clashes and look-ups

The words of a candidate are compared with those of the children of a tree one by one, and the clash
that is found is about the first pair that is the same word (`CommandTree.clash?_eq_some_iff`).  This
agrees with how children are looked up: there is a clash exactly if some word of the candidate leads
to a child, and if there is none then the candidate can join the tree, where its words lead to it
and all others lead where they led before (`CommandTree.clash_agrees_with_child`).
-/

namespace PluginHost.CommandTree

variable {t candidate : CommandTree}

/-! ### The first common word -/

/-- Whether a word of a candidate and a word of a child of a tree are the first pair that is the same
word, in letters of any case: no word of the candidate before is one of a child, the word is none of
the children before, and none of the words of the child before. -/
structure IsFirstPair (t candidate : CommandTree) (word : WordKind × String) (child : CommandTree)
    (existing : WordKind × String) : Prop where
  same : Text.sameWord word.2 existing.2 = true
  first_word : ∃ before after, candidate.kindedWords = before ++ word :: after
    ∧ ∀ w ∈ before, ∀ c ∈ t.children, ∀ v ∈ c.words, Text.sameWord w.2 v = false
  first_child : ∃ before after, t.children = before ++ child :: after
    ∧ ∀ c ∈ before, ∀ v ∈ c.words, Text.sameWord word.2 v = false
  first_existing : ∃ before after, child.kindedWords = before ++ existing :: after
    ∧ ∀ v ∈ before, Text.sameWord word.2 v.2 = false

/-- A word and a child clash in the first of the words of the child that is the word. -/
theorem clashWith?_eq_some_iff {word : WordKind × String} {child : CommandTree} {clash : Clash} :
  clashWith? word child = some clash
    ↔ ∃ existing, Text.sameWord word.2 existing.2 = true
      ∧ (∃ before after, child.kindedWords = before ++ existing :: after
        ∧ ∀ v ∈ before, Text.sameWord word.2 v.2 = false)
      ∧ clash = ⟨word.1, word.2, existing.1, existing.2, child.name⟩
  := by
  rw [clashWith?, List.findSome?_eq_some_iff]
  constructor
  · rintro ⟨before, existing, after, hwords, hexisting, hbefore⟩
    obtain ⟨hsame, hclash⟩ := Option.ite_none_right_eq_some.1 hexisting
    use existing, hsame
    constructor
    · use before, after, hwords
      intro v hv
      simpa using hbefore v hv
    · exact (Option.some.inj hclash).symm
  · rintro ⟨existing, hsame, ⟨before, after, hwords, hbefore⟩, rfl⟩
    use before, existing, after, hwords
    constructor
    · rw [if_pos hsame]
    · intro v hv
      simp [hbefore v hv]

/-- The clash that is found is about the first pair of words that are the same. -/
theorem clash?_eq_some_iff {clash : Clash} :
  t.clash? candidate = some clash
    ↔ ∃ word child existing, t.IsFirstPair candidate word child existing
      ∧ clash = ⟨word.1, word.2, existing.1, existing.2, child.name⟩
  := by
  rw [clash?, List.findSome?_eq_some_iff]
  constructor
  · rintro ⟨before, word, after, hwords, hword, hbefore⟩
    obtain ⟨front, child, back, hchildren, hchild, hfront⟩ := List.findSome?_eq_some_iff.1 hword
    obtain ⟨existing, hsame, hexisting, rfl⟩ := clashWith?_eq_some_iff.1 hchild
    use word, child, existing
    refine ⟨⟨hsame, ⟨before, after, hwords, ?_⟩, ⟨front, back, hchildren, ?_⟩, hexisting⟩, rfl⟩
    · intro w hw c hc
      apply clashWith?_eq_none_iff.1 (List.findSome?_eq_none_iff.1 (hbefore w hw) c hc)
    · intro c hc
      apply clashWith?_eq_none_iff.1 (hfront c hc)
  · rintro ⟨word, child, existing, hfirst, rfl⟩
    obtain ⟨before, after, hwords, hbefore⟩ := hfirst.first_word
    obtain ⟨front, back, hchildren, hfront⟩ := hfirst.first_child
    use before, word, after, hwords
    constructor
    · apply List.findSome?_eq_some_iff.2
      use front, child, back, hchildren
      constructor
      · apply clashWith?_eq_some_iff.2
        use existing, hfirst.same, hfirst.first_existing
      · intro c hc
        apply clashWith?_eq_none_iff.2 (hfront c hc)
    · intro w hw
      apply List.findSome?_eq_none_iff.2
      intro c hc
      apply clashWith?_eq_none_iff.2 (hbefore w hw c hc)

/-! ### Looking up words -/

/-- A word leads to some child exactly if a child answers to it. -/
theorem isSome_child?_iff {word : String} :
  (t.child? word).isSome = true ↔ ∃ c ∈ t.children, c.hasWord word = true
  := by
  rw [child?, List.find?_isSome]

/-- There is a clash exactly if a word of the candidate leads to a child. -/
theorem isSome_clash?_iff :
  (t.clash? candidate).isSome = true ↔ ∃ word ∈ candidate.words, (t.child? word).isSome = true
  := by
  have hshared : (t.clash? candidate).isSome = true ↔ ∃ c ∈ t.children, c.SharesWord candidate := by
    rw [Option.isSome_iff_ne_none, ne_eq, clash?_eq_none_iff]
    simp
  rw [hshared]
  simp only [isSome_child?_iff, hasWord_iff]
  constructor
  · rintro ⟨c, hc, w, hw, word, hword, hsame⟩
    exact ⟨word, hword, c, hc, w, hw, hsame⟩
  · rintro ⟨word, hword, c, hc, w, hw, hsame⟩
    exact ⟨c, hc, w, hw, word, hword, hsame⟩

/-- A word to which a candidate does not answer leads where it led before the candidate joined. -/
theorem child?_grow_of_not_hasWord {word : String} (hword : candidate.hasWord word = false) :
  (t.grow [candidate]).child? word = t.child? word
  := by
  cases t with
  | command label handler => rfl
  | group label children =>
    change (children ++ [candidate]).find? _ = children.find? _
    rw [List.find?_append, List.find?_singleton, hword]
    simp

/-- A word to which a candidate answers leads to it after it has joined, if there is no clash. -/
theorem child?_grow_of_hasWord {word : String} (hgroup : t.isGroup = true)
    (hclash : t.clash? candidate = none) (hword : candidate.hasWord word = true) :
  (t.grow [candidate]).child? word = some candidate
  := by
  apply child?_eq_of_split (children_grow hgroup [candidate]) _ hword
  apply clash?_eq_none_iff.1 hclash

/-- The search for clashes agrees with how words are looked up.  There is a clash exactly if a word
of the candidate leads to a child of the tree.  The clash is about the first pair of words that are
the same, in the order of the words of the candidate, then of the children, then of the words of the
child, and its wording names both.  If there is none and the tree is a group, then the candidate is
adopted without a finding.  Its words lead to it afterwards, in letters of any case, and every
other word leads where it led before. -/
theorem clash_agrees_with_child (t candidate : CommandTree) :
  ((t.clash? candidate).isSome = true
      ↔ ∃ word ∈ candidate.words, (t.child? word).isSome = true)
    ∧ (∀ message, (t.clash? candidate).map Clash.message = some message
      ↔ ∃ word child existing, t.IsFirstPair candidate word child existing
        ∧ message = "The plugin's command group " ++ word.1.label ++ " '" ++ word.2
          ++ "' conflicts with the " ++ existing.1.label ++ " '" ++ existing.2
          ++ "' of the existing command '" ++ child.name ++ "'")
    ∧ (t.clash? candidate = none → t.isGroup = true →
      t.adopt candidate = .ok (t.grow [candidate])
        ∧ (∀ i : Inspection, i.hasErrors = false →
          Loader.adopt i t candidate = (i, some (t.grow [candidate])))
        ∧ (∀ word, candidate.hasWord word = true →
          (t.grow [candidate]).child? word = some candidate)
        ∧ ∀ word, candidate.hasWord word = false →
          (t.grow [candidate]).child? word = t.child? word)
  := by
  refine ⟨isSome_clash?_iff, ?_, ?_⟩
  · intro message
    rw [Option.map_eq_some_iff]
    constructor
    · rintro ⟨clash, hclash, rfl⟩
      obtain ⟨word, child, existing, hfirst, rfl⟩ := clash?_eq_some_iff.1 hclash
      exact ⟨word, child, existing, hfirst, rfl⟩
    · rintro ⟨word, child, existing, hfirst, rfl⟩
      exact ⟨_, clash?_eq_some_iff.2 ⟨word, child, existing, hfirst, rfl⟩, rfl⟩
  · intro hclash hgroup
    have hadopt := adopt_of_no_clash hgroup hclash
    refine ⟨hadopt, ?_, ?_, ?_⟩
    · intro i hi
      rw [Loader.adopt, hi, hadopt]
      rfl
    · intro word hword
      apply child?_grow_of_hasWord hgroup hclash hword
    · intro word hword
      apply child?_grow_of_not_hasWord hword

end PluginHost.CommandTree

import PluginHost.Proofs.Pass

/-!
# Words of the children of a tree

Two nodes share a word if some word of the one differs from some word of the other at most in
the case of letters.  A tree is unambiguous if no two of its children share a word; every word
leads then to the only child that answers to it (`child?_eq_of_unambiguous`).  The search for a
clash finds nothing exactly if a candidate shares no word with a child (`clash?_eq_none_iff`), so
loading a plugin keeps the tree unambiguous.
-/

namespace PluginHost

namespace CommandTree

/-- Whether two nodes have a word in common, in letters of any case. -/
def SharesWord (c d : CommandTree) : Prop :=
  ∃ w ∈ c.words, ∃ v ∈ d.words, Text.sameWord w v = true

instance (c d : CommandTree) : Decidable (c.SharesWord d) :=
  inferInstanceAs (Decidable (∃ w ∈ c.words, ∃ v ∈ d.words, Text.sameWord w v = true))

/-- No two children of the tree have a word in common, in letters of any case. -/
def Unambiguous (t : CommandTree) : Prop :=
  t.children.Pairwise fun c d => ¬ c.SharesWord d

instance (t : CommandTree) : Decidable t.Unambiguous :=
  inferInstanceAs (Decidable (t.children.Pairwise fun c d => ¬ c.SharesWord d))

theorem hasWord_iff {c : CommandTree} {word : String} :
  c.hasWord word = true ↔ ∃ w ∈ c.words, Text.sameWord w word = true
  := List.any_eq_true

/-- Two nodes that answer to one word share a word. -/
theorem sharesWord_of_hasWord {c d : CommandTree} {word : String} (hc : c.hasWord word = true)
    (hd : d.hasWord word = true) :
  c.SharesWord d
  := by
  obtain ⟨w, hw, hw'⟩ := hasWord_iff.1 hc
  obtain ⟨v, hv, hv'⟩ := hasWord_iff.1 hd
  use w, hw, v, hv
  apply Text.sameWord_trans hw'
  rw [Text.sameWord_comm]
  apply hv'

theorem mem_words_iff {c : CommandTree} {word : String} :
  word ∈ c.words ↔ ∃ e ∈ c.kindedWords, e.2 = word
  := by
  simp [words, Label.words, kindedWords, name, aliases, eq_comm]

theorem clashWith?_eq_none_iff {existing : CommandTree} {word : WordKind × String} :
  clashWith? word existing = none ↔ ∀ v ∈ existing.words, Text.sameWord word.2 v = false
  := by
  simp only [clashWith?, List.findSome?_eq_none_iff, mem_words_iff]
  constructor
  · rintro h v ⟨e, he, rfl⟩
    simpa using h e he
  · intro h e he
    simp [h e.2 ⟨e, he, rfl⟩]

/-- No clash is found exactly if no child of the tree shares a word with the candidate. -/
theorem clash?_eq_none_iff {t candidate : CommandTree} :
  t.clash? candidate = none ↔ ∀ c ∈ t.children, ¬ c.SharesWord candidate
  := by
  simp only [clash?, List.findSome?_eq_none_iff, clashWith?_eq_none_iff]
  constructor
  · rintro h c hc ⟨w, hw, v, hv, hsame⟩
    obtain ⟨e, he, rfl⟩ := mem_words_iff.1 hv
    rw [Text.sameWord_comm, h e he c hc w hw] at hsame
    cases hsame
  · intro h e he c hc w hw
    apply Bool.eq_false_iff.2
    intro hsame
    apply h c hc
    use w, hw, e.2, mem_words_iff.2 ⟨e, he, rfl⟩
    rw [Text.sameWord_comm]
    apply hsame

/-- A group adopts every candidate that clashes with none of its children. -/
theorem adopt_of_no_clash {t candidate : CommandTree} (hgroup : t.isGroup = true)
    (h : t.clash? candidate = none) :
  t.adopt candidate = .ok (t.grow [candidate])
  := by
  apply adopt_eq_ok_iff.2
  use hgroup
  constructor
  · intro c hc hname
    apply clash?_eq_none_iff.1 h c hc
    use c.name, mem_words_iff.2 ⟨_, List.mem_cons_self, rfl⟩
    use candidate.name, mem_words_iff.2 ⟨_, List.mem_cons_self, rfl⟩
    rw [hname]
    apply Text.sameWord_refl
  · rfl

/-- A tree that a candidate without a common word joins stays unambiguous. -/
theorem Unambiguous.grow {t candidate : CommandTree} (h : t.Unambiguous)
    (hgroup : t.isGroup = true) (hclash : t.clash? candidate = none) :
  (t.grow [candidate]).Unambiguous
  := by
  rw [Unambiguous, children_grow hgroup, List.pairwise_append]
  use h, List.pairwise_singleton _ _
  intro c hc d hd
  obtain rfl := List.mem_singleton.1 hd
  apply clash?_eq_none_iff.1 hclash c hc

/-- A word leads to the child that answers to it, if no child before it shares a word with it. -/
theorem child?_eq_of_split {t n : CommandTree} {before after : List CommandTree} {word : String}
    (hsplit : t.children = before ++ n :: after) (hbefore : ∀ c ∈ before, ¬ c.SharesWord n)
    (hword : n.hasWord word = true) :
  t.child? word = some n
  := by
  have hnone : ∀ c ∈ before, c.hasWord word ≠ true := by
    intro c hc hcword
    apply hbefore c hc (sharesWord_of_hasWord hcword hword)
  rw [child?, hsplit, List.find?_append, List.find?_eq_none.2 hnone]
  simp [hword]

/-- In an unambiguous tree every word leads to the child that answers to it. -/
theorem child?_eq_of_unambiguous {t n : CommandTree} {word : String} (h : t.Unambiguous)
    (hn : n ∈ t.children) (hword : n.hasWord word = true) :
  t.child? word = some n
  := by
  obtain ⟨before, after, hsplit⟩ := List.append_of_mem hn
  rw [Unambiguous, hsplit, List.pairwise_append] at h
  obtain ⟨-, -, hcross⟩ := h
  apply child?_eq_of_split hsplit _ hword
  intro c hc
  apply hcross c hc n List.mem_cons_self

end CommandTree

namespace Loader

/-- Loading a plugin keeps the tree unambiguous. -/
theorem unambiguous_load (l : Loader) (a : Assembly) (plugin : String)
    (h : a.tree.Unambiguous) :
  (l.load a plugin).2.tree.Unambiguous
  := by
  obtain ⟨-, htree, -⟩ | ⟨-, m, -, hjoins, htree, -⟩ := l.load_cases a plugin
  · rw [htree]
    apply h
  · rw [htree]
    apply h.grow hjoins.isGroup hjoins.noClash

/-- If the children of a tree have no words in common before a pass, then they have none at any
stage of it, whichever plugins are decided about: no two children share a word in letters of
any case, so every word that a child answers to leads to that child. -/
theorem unambiguous_at_every_stage (l : Loader) (a : Assembly) (names : List String)
    (h : a.tree.Unambiguous) :
  ∀ b ∈ l.stages a names, b.tree.Unambiguous
    ∧ ∀ n ∈ b.tree.children, ∀ word, n.hasWord word = true → b.tree.child? word = some n
  := by
  intro b hb
  have hunambiguous := l.stages_induction l.unambiguous_load h names b hb
  use hunambiguous
  intro n hn word hword
  apply CommandTree.child?_eq_of_unambiguous hunambiguous hn hword

/-- The commands of the program share no word, and stay unambiguous while the sample plugins are
loaded. -/
theorem unambiguous_at_every_stage_of_sample :
  Host.sample.commandTree.Unambiguous
    ∧ ∀ b ∈ sample.stages Assembly.sample ["data", "extra", "log"], b.tree.Unambiguous
      ∧ ∀ n ∈ b.tree.children, ∀ word, n.hasWord word = true → b.tree.child? word = some n
  := by
  have hhost : Host.sample.commandTree.Unambiguous := by decide +kernel
  use hhost
  apply unambiguous_at_every_stage sample Assembly.sample _ hhost

end Loader

end PluginHost

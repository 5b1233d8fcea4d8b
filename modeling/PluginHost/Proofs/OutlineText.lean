import PluginHost.Proofs.Blanks
import PluginHost.Proofs.Contribution

/-!
# What an outline tells

Two trees have the same skeleton (`CommandTree.SameSkeleton`) if they differ in descriptions,
summaries and handlers only.  If no word of a tree has a character in it that has a meaning in an
outline, then a line tells how deep its node is, how it is called, and whether it is a group
(`CommandTree.outlineLine_inj`).  The lines of the children of a node end where a line is not
deeper than the node, so trees with the same outline have the same skeleton, and the other way
round (`CommandTree.outline_determines_skeleton`).
-/

namespace PluginHost

/-! ### Texts that are cut in one way only -/

namespace Text

variable {p : Char → Bool} {before rest before' rest' : List Char}

/-- A text is cut in only one way into a run of characters that satisfy a test and what begins with
one that does not. -/
theorem append_inj_of_run (hrun : ∀ c ∈ before, p c = true) (hrest : ∀ c ∈ rest.head?, p c = false)
    (hrun' : ∀ c ∈ before', p c = true) (hrest' : ∀ c ∈ rest'.head?, p c = false)
    (h : before ++ rest = before' ++ rest') :
  before = before' ∧ rest = rest'
  := by
  constructor
  · rw [← takeWhile_run hrun hrest, h, takeWhile_run hrun' hrest']
  · rw [← dropWhile_run hrun hrest, h, dropWhile_run hrun' hrest']

/-- Texts that have no character in which the separator starts can be told from what they are
joined to. -/
theorem intercalate_inj {sep : List Char} (hsep : sep ≠ []) {texts others : List (List Char)}
    (hne : texts ≠ []) (hne' : others ≠ []) (h : ∀ text ∈ texts, ∀ c ∈ text, sep.head? ≠ some c)
    (h' : ∀ text ∈ others, ∀ c ∈ text, sep.head? ≠ some c)
    (heq : sep.intercalate texts = sep.intercalate others) :
  texts = others
  := by
  rw [← splitOnText_intercalate hsep hne h, ← splitOnText_intercalate hsep hne' h', heq]

theorem mem_of_mem_intercalate {sep : List Char} {texts : List (List Char)} {c : Char}
    (h : c ∈ sep.intercalate texts) :
  c ∈ sep ∨ ∃ text ∈ texts, c ∈ text
  := by
  induction texts with
  | nil => cases h
  | cons text others ih =>
    cases others with
    | nil =>
      rw [List.intercalate_singleton] at h
      exact .inr ⟨text, List.mem_cons_self, h⟩
    | cons other more =>
      rw [List.intercalate_cons_cons, List.mem_append, List.mem_append] at h
      rcases h with (htext | hsep) | hmore
      · exact .inr ⟨text, List.mem_cons_self, htext⟩
      · exact .inl hsep
      · obtain hsep | ⟨piece, hpiece, hc⟩ := ih hmore
        · exact .inl hsep
        · exact .inr ⟨piece, List.mem_cons_of_mem text hpiece, hc⟩

end Text

namespace CommandTree

variable {t t' node : CommandTree} {trees others : List CommandTree} {depth depth' : Nat}

/-! ### Skeletons -/

/-- Whether two trees have the same names, the same aliases, the same groups and commands, and the
same order of children, at every depth. -/
inductive SameSkeleton : CommandTree → CommandTree → Prop
  | intro {t t' : CommandTree} (hname : t.name = t'.name) (haliases : t.aliases = t'.aliases)
      (hkind : t.isGroup = t'.isGroup)
      (hchildren : List.Forall₂ SameSkeleton t.children t'.children) : SameSkeleton t t'

/-- What holds of no trees, and of a first tree with others as soon as it holds of its children and
of the others, holds of all lists of trees. -/
@[elab_as_elim]
theorem children_induction {P : List CommandTree → Prop} (nil : P [])
    (cons : ∀ t trees, P t.children → P trees → P (t :: trees)) :
    ∀ trees, P trees
  | [] => nil
  | .command label handler :: trees =>
    cons (.command label handler) trees nil (children_induction nil cons trees)
  | .group label children :: trees =>
    cons (.group label children) trees (children_induction nil cons children)
      (children_induction nil cons trees)

/-- The characters that have a meaning in an outline. -/
def outlineMarks : List Char := ['\n', ' ', ',', '(', ')', '/']

/-- Whether no word of a node has a character in it that has a meaning in an outline. -/
def HasPlainWords (t : CommandTree) : Prop :=
  ∀ word ∈ t.words, ∀ c ∈ word.toList, c ∉ outlineMarks

instance (t : CommandTree) : Decidable t.HasPlainWords :=
  inferInstanceAs (Decidable (∀ word ∈ t.words, ∀ c ∈ word.toList, c ∉ outlineMarks))

/-- Whether the words of all nodes of a tree are plain. -/
def IsPlain (t : CommandTree) : Prop := ∀ node : CommandTree, node.IsSubtree t → node.HasPlainWords

theorem isPlain_iff :
  t.IsPlain ↔ t.HasPlainWords ∧ ∀ c ∈ t.children, c.IsPlain
  := by
  constructor
  · intro h
    use h t .root
    intro c hc node hnode
    cases t with
    | command => cases hc
    | group => apply h node (.inner hc hnode)
  · rintro ⟨ht, hchildren⟩ node hnode
    cases hnode with
    | root => apply ht
    | inner hmem hbelow => apply hchildren _ hmem node hbelow

theorem isPlain_command {label : Label} {handler : Handler} :
  (command label handler).IsPlain ↔ (command label handler).HasPlainWords
  := isPlain_iff.trans (and_iff_left nofun)

theorem isPlain_group {label : Label} :
  (group label trees).IsPlain ↔ (group label trees).HasPlainWords ∧ ∀ c ∈ trees, c.IsPlain
  := isPlain_iff

/-! ### What a line tells -/

/-- What follows the name of a node on its line. -/
def closing (aliases : List String) (isGroup : Bool) : List Char :=
  (if aliases.isEmpty then []
    else ' ' :: '(' :: ([',', ' '].intercalate (aliases.map String.toList) ++ [')']))
    ++ (if isGroup then ['/'] else [])

theorem toList_outlineLine (depth : Nat) (t : CommandTree) :
  (outlineLine depth t).toList
    = List.replicate (2 * depth) ' ' ++ (t.name.toList ++ closing t.aliases t.isGroup)
  := by
  rw [outlineLine, closing]
  cases t.aliases <;> cases t.isGroup <;> simp

theorem not_mem_closing {aliases : List String} (h : ∀ word ∈ aliases, '\n' ∉ word.toList)
    (isGroup : Bool) :
  '\n' ∉ closing aliases isGroup
  := by
  have hjoined : '\n' ∉ [',', ' '].intercalate (aliases.map String.toList) := by
    intro hmem
    obtain hsep | ⟨text, htext, hfeed⟩ := Text.mem_of_mem_intercalate hmem
    · revert hsep
      decide
    · obtain ⟨word, hword, rfl⟩ := List.mem_map.1 htext
      apply h word hword hfeed
  rw [closing]
  cases aliases <;> cases isGroup <;> simp_all

/-- What follows a name begins with a space or a slash. -/
theorem head?_closing {aliases : List String} {isGroup : Bool} :
  ∀ c ∈ (closing aliases isGroup).head?, c = ' ' ∨ c = '/'
  := by
  rw [closing]
  cases aliases <;> cases isGroup <;> simp

/-- No line has a line feed in it. -/
theorem not_mem_outlineLine (h : t.HasPlainWords) (depth : Nat) :
  '\n' ∉ (outlineLine depth t).toList
  := by
  have hwords : ∀ word ∈ t.words, '\n' ∉ word.toList := by
    intro word hword hfeed
    apply h word hword _ hfeed
    decide
  obtain ⟨hname, haliases⟩ := List.forall_mem_cons.1 hwords
  rw [toList_outlineLine, List.mem_append, List.mem_append]
  rintro (hmargin | hmem | hmem)
  · cases List.eq_of_mem_replicate hmargin
  · apply hname hmem
  · apply not_mem_closing haliases _ hmem

/-- What follows a name tells the aliases and whether the node is a group. -/
theorem closing_inj {aliases aliases' : List String} {isGroup isGroup' : Bool}
    (hplain : ∀ word ∈ aliases, ∀ c ∈ word.toList, c ∉ outlineMarks)
    (hplain' : ∀ word ∈ aliases', ∀ c ∈ word.toList, c ∉ outlineMarks)
    (h : closing aliases isGroup = closing aliases' isGroup') :
  aliases = aliases' ∧ isGroup = isGroup'
  := by
  have hslash : ∀ {b b' : Bool}, (if b then ['/'] else []) = (if b' then ['/'] else []) → b = b' := by
    decide
  -- no alias has a character that ends the list of aliases or an entry of it
  have hends : ∀ {words : List String}, (∀ word ∈ words, ∀ c ∈ word.toList, c ∉ outlineMarks) →
      ∀ text ∈ words.map String.toList, ∀ c ∈ text, c ≠ ',' ∧ c ≠ ')' := by
    intro words hwords text htext c hc
    obtain ⟨word, hword, rfl⟩ := List.mem_map.1 htext
    have hmark := hwords word hword c hc
    constructor
    all_goals
      rintro rfl
      revert hmark
      decide
  have hinside : ∀ {words : List String}, (∀ word ∈ words, ∀ c ∈ word.toList, c ∉ outlineMarks) →
      ∀ c ∈ [',', ' '].intercalate (words.map String.toList), (c != ')') = true := by
    intro words hwords c hc
    obtain hsep | ⟨text, htext, hc⟩ := Text.mem_of_mem_intercalate hc
    · obtain rfl | rfl : c = ',' ∨ c = ' ' := by simpa using hsep
      all_goals decide
    · simpa using (hends hwords text htext c hc).2
  rw [closing, closing] at h
  cases aliases with
  | nil =>
    cases aliases' with
    | nil => exact ⟨rfl, hslash h⟩
    | cons => cases isGroup <;> cases h
  | cons first others =>
    cases aliases' with
    | nil => cases isGroup' <;> cases h
    | cons first' others' =>
      simp only [List.isEmpty_cons, Bool.false_eq_true, if_false, List.cons_append, List.append_assoc,
        List.cons.injEq, true_and] at h
      obtain ⟨hjoined, h⟩ := Text.append_inj_of_run (hinside hplain) (by simp) (hinside hplain')
        (by simp) h
      have htexts := Text.intercalate_inj (by simp) (by simp) (by simp)
        (fun text htext c hc => by simpa using Ne.symm (hends hplain text htext c hc).1)
        (fun text htext c hc => by simpa using Ne.symm (hends hplain' text htext c hc).1) hjoined
      refine ⟨List.map_injective_iff.2 (fun _ _ => String.toList_inj.1) htexts, hslash ?_⟩
      simpa using h

/-- No line has two spaces behind its margin. -/
theorem ne_spaces_of_closing {name : String} (hname : ∀ c ∈ name.toList, c ∉ outlineMarks)
    (aliases : List String) (isGroup : Bool) (rest : List Char) :
  name.toList ++ closing aliases isGroup ≠ ' ' :: ' ' :: rest
  := by
  cases hchars : name.toList with
  | nil =>
    rw [closing]
    cases aliases <;> cases isGroup <;> simp
  | cons c cs =>
    rintro h
    obtain ⟨rfl, -⟩ := List.cons.inj h
    rw [hchars] at hname
    apply hname ' ' List.mem_cons_self
    decide

/-- What stands behind a margin tells how deep the margin is. -/
theorem margin_inj {body body' : List Char} (hbody : ∀ rest, body ≠ ' ' :: ' ' :: rest)
    (hbody' : ∀ rest, body' ≠ ' ' :: ' ' :: rest)
    (h : List.replicate (2 * depth) ' ' ++ body = List.replicate (2 * depth') ' ' ++ body') :
  depth = depth' ∧ body = body'
  := by
  induction depth generalizing depth' with
  | zero =>
    cases depth' with
    | zero => simpa using h
    | succ depth' =>
      rw [Nat.mul_succ, List.replicate_succ, List.replicate_succ] at h
      cases hbody _ h
  | succ depth ih =>
    cases depth' with
    | zero =>
      rw [Nat.mul_succ, List.replicate_succ, List.replicate_succ] at h
      cases hbody' _ h.symm
    | succ depth' =>
      rw [Nat.mul_succ, Nat.mul_succ] at h
      simp only [List.replicate_succ, List.cons_append, List.cons.injEq, true_and] at h
      obtain ⟨rfl, hrest⟩ := ih h
      exact ⟨rfl, hrest⟩

/-- A line tells how deep its node is, the words of the node, and whether it is a group. -/
theorem outlineLine_inj (ht : t.HasPlainWords) (ht' : t'.HasPlainWords)
    (h : outlineLine depth t = outlineLine depth' t') :
  depth = depth' ∧ t.name = t'.name ∧ t.aliases = t'.aliases ∧ t.isGroup = t'.isGroup
  := by
  obtain ⟨hname, haliases⟩ := List.forall_mem_cons.1 ht
  obtain ⟨hname', haliases'⟩ := List.forall_mem_cons.1 ht'
  have hrun : ∀ {name : String}, (∀ c ∈ name.toList, c ∉ outlineMarks) →
      ∀ c ∈ name.toList, (c != ' ' && c != '/') = true := by
    intro name hplain c hc
    have hmark := hplain c hc
    rw [outlineMarks] at hmark
    simp_all
  have hends : ∀ (aliases : List String) (isGroup : Bool),
      ∀ c ∈ (closing aliases isGroup).head?, (c != ' ' && c != '/') = false := by
    intro aliases isGroup c hc
    obtain rfl | rfl := head?_closing c hc <;> decide
  have hlines := congrArg String.toList h
  rw [toList_outlineLine, toList_outlineLine] at hlines
  obtain ⟨hdepth, hbody⟩ := margin_inj (ne_spaces_of_closing hname _ _)
    (ne_spaces_of_closing hname' _ _) hlines
  obtain ⟨hchars, hclosing⟩ := Text.append_inj_of_run (hrun hname) (hends _ _) (hrun hname')
    (hends _ _) hbody
  use hdepth, String.toList_inj.1 hchars
  apply closing_inj haliases haliases' hclosing

/-! ### What the lines of a tree tell -/

theorem outlineLines_eq (depth : Nat) (t : CommandTree) :
  outlineLines depth t = outlineLine depth t :: outlinesLines (depth + 1) t.children
  := by cases t <;> rfl

/-- The lines of some trees are that of the first node, those of its children, and those of the other
trees. -/
theorem outlinesLines_cons (depth : Nat) (t : CommandTree) (trees : List CommandTree)
    (rest : List String) :
  outlinesLines depth (t :: trees) ++ rest
    = outlineLine depth t
      :: (outlinesLines (depth + 1) t.children ++ (outlinesLines depth trees ++ rest))
  := by
  rw [outlinesLines, outlineLines_eq, List.cons_append, List.cons_append, List.append_assoc]

/-- Whether some lines can follow those of trees at a depth: the first of them shows a node that is
less deep. -/
def Behind (depth : Nat) (lines : List String) : Prop :=
  ∀ line ∈ lines.head?, ∃ d < depth, ∃ node : CommandTree, node.HasPlainWords
    ∧ line = outlineLine d node

theorem behind_nil (depth : Nat) :
  Behind depth []
  := by
  intro line hline
  cases hline

/-- The lines of trees do not stand behind those of trees at the same depth. -/
theorem not_behind_cons (ht : t.HasPlainWords) (rest : List String) :
  ¬ Behind depth (outlinesLines depth (t :: trees) ++ rest)
  := by
  intro h
  rw [outlinesLines_cons] at h
  obtain ⟨d, hd, node, hnode, hline⟩ := h _ rfl
  obtain ⟨rfl, -⟩ := outlineLine_inj ht hnode hline
  apply Nat.lt_irrefl _ hd

/-- The lines of trees, and what follows them, stand behind those of deeper trees. -/
theorem Behind.append {rest : List String} (h : Behind depth rest) (htrees : ∀ t ∈ trees, t.IsPlain) :
  Behind (depth + 1) (outlinesLines depth trees ++ rest)
  := by
  cases trees with
  | nil =>
    intro line hline
    obtain ⟨d, hd, hnode⟩ := h line hline
    exact ⟨d, Nat.lt_succ_of_lt hd, hnode⟩
  | cons t trees =>
    rw [outlinesLines_cons]
    intro line hline
    cases hline
    refine ⟨depth, Nat.lt_succ_self depth, t, ?_, rfl⟩
    apply (isPlain_iff.1 (htrees t List.mem_cons_self)).1

/-- The lines of some trees tell the skeletons of the trees, and where the lines end. -/
theorem sameSkeleton_of_outlinesLines {rest rest' : List String} (htrees : ∀ t ∈ trees, t.IsPlain)
    (hothers : ∀ t ∈ others, t.IsPlain) (hrest : Behind depth rest) (hrest' : Behind depth rest')
    (h : outlinesLines depth trees ++ rest = outlinesLines depth others ++ rest') :
  List.Forall₂ SameSkeleton trees others ∧ rest = rest'
  := by
  induction trees using children_induction generalizing others depth rest rest' with
  | nil =>
    cases others with
    | nil => exact ⟨.nil, h⟩
    | cons t' others =>
      have ht' := (isPlain_iff.1 (hothers t' List.mem_cons_self)).1
      rw [outlinesLines, List.nil_append] at h
      rw [h] at hrest
      cases not_behind_cons ht' _ hrest
  | cons t trees hchildren ih =>
    obtain ⟨ht, htrees⟩ := List.forall_mem_cons.1 htrees
    obtain ⟨hwords, hplain⟩ := isPlain_iff.1 ht
    cases others with
    | nil =>
      rw [outlinesLines, List.nil_append] at h
      rw [← h] at hrest'
      cases not_behind_cons hwords _ hrest'
    | cons t' others =>
      obtain ⟨ht', hothers⟩ := List.forall_mem_cons.1 hothers
      obtain ⟨hwords', hplain'⟩ := isPlain_iff.1 ht'
      rw [outlinesLines_cons, outlinesLines_cons] at h
      obtain ⟨hline, hlines⟩ := List.cons.inj h
      obtain ⟨-, hname, haliases, hkind⟩ := outlineLine_inj hwords hwords' hline
      -- the children end where the lines of the other trees begin
      obtain ⟨hbelow, hbehind⟩ := hchildren hplain hplain' (hrest.append htrees)
        (hrest'.append hothers) hlines
      obtain ⟨hskeletons, hends⟩ := ih htrees hothers hrest hrest' hbehind
      exact ⟨.cons (.intro hname haliases hkind hbelow) hskeletons, hends⟩

/-- The lines of trees depend on their skeletons only. -/
theorem outlinesLines_congr (h : List.Forall₂ SameSkeleton trees others) (depth : Nat) :
  outlinesLines depth trees = outlinesLines depth others
  := by
  induction trees using children_induction generalizing others depth with
  | nil =>
    cases h
    rfl
  | cons t trees hchildren ih =>
    cases h with
    | cons ht htrees =>
      obtain ⟨hname, haliases, hkind, hbelow⟩ := ht
      rw [outlinesLines, outlinesLines, outlineLines_eq, outlineLines_eq, hchildren hbelow,
        ih htrees, outlineLine, outlineLine, hname, haliases, hkind]

theorem mem_outlinesLines {line : String} (h : line ∈ outlinesLines depth trees) :
  ∃ t ∈ trees, ∃ node : CommandTree, node.IsSubtree t ∧ ∃ d, line = outlineLine d node
  := by
  induction trees using children_induction generalizing depth with
  | nil => cases h
  | cons t trees hchildren ih =>
    rw [outlinesLines, outlineLines_eq, List.cons_append, List.mem_cons, List.mem_append] at h
    rcases h with rfl | hbelow | hothers
    · exact ⟨t, List.mem_cons_self, t, .root, depth, rfl⟩
    · obtain ⟨c, hc, node, hnode, hline⟩ := hchildren hbelow
      refine ⟨t, List.mem_cons_self, node, ?_, hline⟩
      cases t with
      | command => cases hc
      | group => apply IsSubtree.inner hc hnode
    · obtain ⟨t', ht', hnode⟩ := ih hothers
      exact ⟨t', List.mem_cons_of_mem t ht', hnode⟩

/-- Outlines are the same exactly if the lines are. -/
theorem outline_eq_iff (ht : t.IsPlain) (ht' : t'.IsPlain) :
  t.outline = t'.outline ↔ outlinesLines 0 [t] = outlinesLines 0 [t']
  := by
  have hone : ∀ t : CommandTree, outlinesLines 0 [t] = outlineLines 0 t := by
    intro t
    rw [outlinesLines, outlinesLines, List.append_nil]
  have hfeed : ∀ {t : CommandTree}, t.IsPlain →
      ∀ text ∈ (outlineLines 0 t).map String.toList, ∀ c ∈ text, ['\n'].head? ≠ some c := by
    intro t ht text htext c hc
    obtain ⟨line, hline, rfl⟩ := List.mem_map.1 htext
    rw [← hone] at hline
    obtain ⟨t₀, ht₀, node, hnode, d, rfl⟩ := mem_outlinesLines hline
    obtain rfl := List.mem_singleton.1 ht₀
    rintro ⟨⟩
    apply not_mem_outlineLine (ht node hnode) d hc
  rw [hone, hone]
  constructor
  · intro h
    have htexts := congrArg String.toList h
    rw [outline, outline, String.toList_intercalate, String.toList_intercalate] at htexts
    have hlines := Text.intercalate_inj (by simp) (by simp [outlineLines_eq])
      (by simp [outlineLines_eq]) (hfeed ht) (hfeed ht') htexts
    apply List.map_injective_iff.2 (fun _ _ => String.toList_inj.1) hlines
  · intro h
    rw [outline, outline, h]

/-- Trees of plain words have the same outline exactly if they have the same skeleton: the same names
and aliases, the same groups and commands, and the same order of children at every depth. -/
theorem outline_determines_skeleton (ht : t.IsPlain) (ht' : t'.IsPlain) :
  t.outline = t'.outline ↔ t.SameSkeleton t'
  := by
  rw [outline_eq_iff ht ht']
  constructor
  · intro h
    have hskeletons := sameSkeleton_of_outlinesLines (by simpa using ht) (by simpa using ht')
      (behind_nil 0) (behind_nil 0) (congrArg (· ++ []) h)
    simpa using hskeletons
  · intro h
    apply outlinesLines_congr (by simpa using h)

/-- A tree with empty words, a group without children, and a command that follows a deeper one. -/
def sampleOutlined (description : String) (handler : Handler) : CommandTree :=
  .group ⟨"", description, [""], none⟩
    [.group ⟨"a", description, ["b", ""], none⟩ [.command ⟨"c", description, [], none⟩ handler],
      .group ⟨"d", description, [], none⟩ [],
      .command ⟨"", description, [], none⟩ handler]

/-- The same words, where the last command is inside the group that has no children. -/
def sampleNested : CommandTree :=
  .group ⟨"", "", [""], none⟩
    [.group ⟨"a", "", ["b", ""], none⟩ [.command ⟨"c", "", [], none⟩ (.builtin "")],
      .group ⟨"d", "", [], none⟩ [.command ⟨"", "", [], none⟩ (.builtin "")]]

theorem isPlain_sampleOutlined (description : String) (handler : Handler) :
  (sampleOutlined description handler).IsPlain
  := by simp [sampleOutlined, isPlain_group, isPlain_command, HasPlainWords, words, label, Label.words,
    outlineMarks]

theorem isPlain_sampleNested :
  sampleNested.IsPlain
  := by simp [sampleNested, isPlain_group, isPlain_command, HasPlainWords, words, label, Label.words,
    outlineMarks]

/-- Two trees with other descriptions and handlers have the same outline and the same skeleton, and a
tree with the same words in another order of groups has neither. -/
theorem outline_determines_skeleton_of_sample :
  (sampleOutlined "one" (.builtin "run")).outline
      = (sampleOutlined "two" (.file ⟨"/m/run"⟩)).outline
    ∧ (sampleOutlined "one" (.builtin "run")).SameSkeleton (sampleOutlined "two" (.file ⟨"/m/run"⟩))
    ∧ ¬ (sampleOutlined "one" (.builtin "run")).SameSkeleton sampleNested
    ∧ (sampleOutlined "one" (.builtin "run")).outline ≠ sampleNested.outline
  := by
  have hplain := isPlain_sampleOutlined
  have hsame : (sampleOutlined "one" (.builtin "run")).outline
      = (sampleOutlined "two" (.file ⟨"/m/run"⟩)).outline := rfl
  have hother : ¬ (sampleOutlined "one" (.builtin "run")).SameSkeleton sampleNested := by
    rintro ⟨-, -, -, hchildren⟩
    cases hchildren.length_eq
  use hsame, (outline_determines_skeleton (hplain _ _) (hplain _ _)).1 hsame, hother
  apply (outline_determines_skeleton (hplain _ _) isPlain_sampleNested).not.2 hother

end CommandTree

end PluginHost

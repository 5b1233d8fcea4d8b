import Mathlib.Tactic.Use
import PluginHost.Yaml.Node.Reader

/-!
# Nodes that are read back

`NodeReader.ReadsNode` holds of tokens and a node if the tokens are read as the node as the value of
a mapping.  Scalars are (`readsNode_scalar`), and so are lists of scalars that are not indented
(`readsNode_list`) and mappings whose values are read back (`readsNode_mapping`).  A mapping that is
all of a text is read as its document (`document?_of_entries`).
-/

namespace PluginHost.Yaml.NodeReader

variable {tokens rest : List Token} {anchors : List (List Char × Nat)} {handles : Handles}
  {pos : Position} {stop : List Token} {r r' r'' : Remaining} {n : Nat}

/-! ### Steps -/

/-- A scalar without properties. -/
abbrev scalarNode (style : ScalarStyle) (text : List Char) : Node :=
  .scalar Properties.none style text

theorem node_scalar (n : Nat) (style : ScalarStyle) (text : List Char) :
  (node handles pos (n + 1)).run ⟨.scalar style text :: tokens, anchors⟩
    = some (scalarNode style text, ⟨tokens, anchors⟩)
  := by
  rw [node]
  rfl

/-- Before a token that does not stand for a node that is missing there is a node. -/
theorem nodeUnless_of_not_mem {t : Token} (h : t ∉ stop) (n : Nat) :
  (nodeUnless handles pos stop (n + 1)).run ⟨t :: tokens, anchors⟩
    = (node handles pos n).run ⟨t :: tokens, anchors⟩
  := by
  have hat : (atAny stop).run ⟨t :: tokens, anchors⟩ = some (false, ⟨t :: tokens, anchors⟩) := by
    have hcontains : stop.contains t = false := by simpa using h
    change some (stop.contains t, (⟨t :: tokens, anchors⟩ : Remaining)) = _
    rw [hcontains]
  rw [nodeUnless, StateT.run_bind, hat]
  rfl

/-- A token that is next is accepted. -/
theorem accept_same (t : Token) :
  (accept t).run ⟨t :: tokens, anchors⟩ = some (true, ⟨tokens, anchors⟩)
  := by simp [accept, peek, advance]

theorem accept_other {t : Token} (h : tokens.head? ≠ some t) :
  (accept t).run ⟨tokens, anchors⟩ = some (false, ⟨tokens, anchors⟩)
  := by simp [accept, peek, h]

theorem bareItems_entry {item : Node} {items : List Node}
    (hitem : (nodeUnless handles .block [.blockEntry, .key, .value, .blockEnd] n).run ⟨tokens, anchors⟩
      = some (item, r))
    (hitems : (bareItems handles n).run r = some (items, r')) :
  (bareItems handles (n + 1)).run ⟨.blockEntry :: tokens, anchors⟩ = some (item :: items, r')
  := by simp [bareItems, accept_same, hitem, hitems]

theorem bareItems_end (h : tokens.head? ≠ some .blockEntry) (n : Nat) :
  (bareItems handles (n + 1)).run ⟨tokens, anchors⟩ = some ([], ⟨tokens, anchors⟩)
  := by simp [bareItems, accept_other h]

theorem blockEntries_entry {key value : Node} {entries : List (Node × Node)}
    (hkey : (nodeUnless handles .entry [.key, .value, .blockEnd] n).run ⟨tokens, anchors⟩
      = some (key, r))
    (hvalue : (blockValue handles n).run r = some (value, r'))
    (hentries : (blockEntries handles n).run r' = some (entries, r'')) :
  (blockEntries handles (n + 1)).run ⟨.key :: tokens, anchors⟩
    = some ((key, value) :: entries, r'')
  := by simp [blockEntries, accept_same, hkey, hvalue, hentries]

theorem blockEntries_end (n : Nat) :
  (blockEntries handles (n + 1)).run ⟨.blockEnd :: tokens, anchors⟩
    = some ([], ⟨tokens, anchors⟩)
  := by
  rw [blockEntries]
  rfl

theorem blockValue_value (n : Nat) :
  (blockValue handles (n + 1)).run ⟨.value :: tokens, anchors⟩
    = (nodeUnless handles .entry [.key, .value, .blockEnd] n).run ⟨tokens, anchors⟩
  := by
  rw [blockValue]
  rfl

theorem node_mapping {entries : List (Node × Node)} (hpos : pos ≠ .flow)
    (h : (blockEntries handles n).run ⟨tokens, anchors⟩ = some (entries, r)) :
  (node handles pos (n + 1)).run ⟨.blockMapping :: tokens, anchors⟩
    = some (.mapping Properties.none entries, r)
  := by
  simp [node, peek, properties, anchor?, tag?, advance, hpos, h]
  rfl

theorem node_bareItems {items : List Node}
    (h : (bareItems handles n).run ⟨.blockEntry :: tokens, anchors⟩ = some (items, r)) :
  (node handles .entry (n + 1)).run ⟨.blockEntry :: tokens, anchors⟩
    = some (.sequence Properties.none items, r)
  := by
  simp [node, peek, properties, anchor?, tag?, h]
  rfl

/-! ### Values -/

/-- Whether tokens are read as a node where the value of a mapping stands. -/
structure ReadsNode (tokens : List Token) (value : Node) : Prop where
  reads : ∀ n rest anchors, 2 * tokens.length + 2 ≤ n → rest.head? ≠ some .blockEntry →
    (nodeUnless defaultHandles .entry [.key, .value, .blockEnd] n).run ⟨tokens ++ rest, anchors⟩
      = some (value, ⟨rest, anchors⟩)

/-- Whether tokens are read as the entries of a mapping, up to its end. -/
structure ReadsEntries (tokens : List Token) (entries : List (Node × Node)) : Prop where
  first : ∀ rest, (tokens ++ rest).head? ≠ some .blockEntry
  reads : ∀ n rest anchors, 2 * tokens.length + 1 ≤ n →
    (blockEntries defaultHandles n).run ⟨tokens ++ rest, anchors⟩ = some (entries, ⟨rest, anchors⟩)

theorem nodeUnless_scalar {style : ScalarStyle} {text : List Char}
    (hstop : .scalar style text ∉ stop) (n : Nat) :
  (nodeUnless handles pos stop (n + 2)).run ⟨.scalar style text :: tokens, anchors⟩
    = some (scalarNode style text, ⟨tokens, anchors⟩)
  := by rw [nodeUnless_of_not_mem hstop, node_scalar]

theorem readsNode_scalar (style : ScalarStyle) (text : List Char) :
  ReadsNode [.scalar style text] (scalarNode style text)
  := by
  constructor
  intro n rest anchors hn hrest
  obtain ⟨n, rfl⟩ := Nat.exists_eq_add_of_le' (Nat.le_trans (by decide : 2 ≤ 4) hn)
  apply nodeUnless_scalar (by simp)

/-- Entries of a list that is not indented are read as its items. -/
theorem bareItems_scalars (scalars : List (ScalarStyle × List Char))
    (hrest : rest.head? ≠ some .blockEntry) (hn : scalars.length + 2 ≤ n) :
  (bareItems handles n).run
      ⟨(scalars.flatMap fun s => [Token.blockEntry, .scalar s.1 s.2]) ++ rest, anchors⟩
    = some (scalars.map fun s => scalarNode s.1 s.2, ⟨rest, anchors⟩)
  := by
  induction scalars generalizing n with
  | nil =>
    obtain ⟨n, rfl⟩ := Nat.exists_eq_add_of_le' (Nat.le_trans (by decide : 1 ≤ 2) hn)
    apply bareItems_end hrest
  | cons s scalars ih =>
    obtain ⟨n, rfl⟩ := Nat.exists_eq_add_of_le' (Nat.le_trans (by simp : 3 ≤ _) hn)
    apply bareItems_entry
    · apply nodeUnless_scalar (by simp)
    · apply ih
      simp at hn
      omega

theorem readsNode_list {scalars : List (ScalarStyle × List Char)} (hne : scalars ≠ []) :
  ReadsNode (scalars.flatMap fun s => [Token.blockEntry, .scalar s.1 s.2])
    (.sequence Properties.none (scalars.map fun s => scalarNode s.1 s.2))
  := by
  have hlength : ∀ scalars : List (ScalarStyle × List Char),
      (scalars.flatMap fun s => [Token.blockEntry, .scalar s.1 s.2]).length = 2 * scalars.length := by
    intro scalars
    induction scalars with
    | nil => rfl
    | cons s scalars ih =>
      simp only [List.flatMap_cons, List.length_append, ih, List.length_cons, List.length_nil]
      omega
  obtain ⟨s, others, rfl⟩ := List.exists_cons_of_ne_nil hne
  constructor
  intro n rest anchors hn hrest
  simp only [hlength, List.length_cons] at hn
  obtain ⟨n, rfl⟩ := Nat.exists_eq_add_of_le' (Nat.le_trans (by omega : 2 ≤ _) hn)
  have hfuel : (s :: others).length + 2 ≤ n := by
    simp only [List.length_cons]
    omega
  have hitems : (bareItems defaultHandles n).run ⟨_, anchors⟩ = _ :=
    bareItems_scalars (s :: others) hrest hfuel
  rw [List.flatMap_cons, List.append_assoc, List.cons_append] at hitems ⊢
  rw [nodeUnless_of_not_mem (by simp)]
  apply node_bareItems hitems

theorem readsEntries_nil :
  ReadsEntries [.blockEnd] []
  := by
  refine ⟨by simp, ?_⟩
  intro n rest anchors hn
  obtain ⟨n, rfl⟩ := Nat.exists_eq_add_of_le' (Nat.le_trans (by decide : 1 ≤ 3) hn)
  apply blockEntries_end

/-- An entry is read in front of others. -/
theorem ReadsEntries.cons {value : Node} {more : List Token} {entries : List (Node × Node)}
    (hvalue : ReadsNode tokens value) (hentries : ReadsEntries more entries) (key : List Char) :
  ReadsEntries ([.key, .scalar .plain key, .value] ++ tokens ++ more)
    ((scalarNode .plain key, value) :: entries)
  := by
  refine ⟨by simp, ?_⟩
  intro n rest anchors hn
  simp only [List.length_append, List.length_cons, List.length_nil] at hn
  obtain ⟨n, rfl⟩ := Nat.exists_eq_add_of_le' (Nat.le_trans (by omega : 3 ≤ _) hn)
  have hvalue := hvalue.reads (n + 1) (more ++ rest) anchors (by omega) (hentries.first rest)
  have hentries := hentries.reads (n + 2) rest anchors (by omega)
  simp only [List.append_assoc, List.cons_append, List.nil_append]
  apply blockEntries_entry (r := ⟨.value :: (tokens ++ (more ++ rest)), anchors⟩) _ _ hentries
  · apply nodeUnless_scalar (by simp)
  · rw [blockValue_value, hvalue]

theorem readsNode_mapping {entries : List (Node × Node)} (h : ReadsEntries tokens entries) :
  ReadsNode (.blockMapping :: tokens) (.mapping Properties.none entries)
  := by
  constructor
  intro n rest anchors hn hrest
  simp only [List.length_cons] at hn
  obtain ⟨n, rfl⟩ := Nat.exists_eq_add_of_le' (Nat.le_trans (by omega : 2 ≤ _) hn)
  rw [List.cons_append, nodeUnless_of_not_mem (by decide)]
  apply node_mapping (by decide) (h.reads n rest anchors (by omega))

/-- A mapping that is all of a text is read as its document. -/
theorem document?_of_entries {entries : List (Node × Node)} (h : ReadsEntries tokens entries)
    (hn : 2 * tokens.length + 2 ≤ n) :
  (document? n).run ⟨.blockMapping :: tokens, []⟩
    = some (some (.mapping Properties.none entries), ⟨[], []⟩)
  := by
  obtain ⟨n, rfl⟩ := Nat.exists_eq_add_of_le' (Nat.le_trans (by omega : 1 ≤ _) hn)
  have hentries := h.reads n [] [] (by omega)
  rw [List.append_nil] at hentries
  have hroot : (node defaultHandles .block (n + 1)).run ⟨.blockMapping :: tokens, []⟩
      = some (.mapping Properties.none entries, ⟨[], []⟩) := node_mapping (by decide) hentries
  have hends : (accept .documentEnd).run ⟨[], []⟩ = some (false, ⟨[], []⟩) := accept_other (by simp)
  simp [document?, peek, beginsBare, hroot, skipEnds, hends]

end PluginHost.Yaml.NodeReader

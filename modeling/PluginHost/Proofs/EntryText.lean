import PluginHost.Proofs.NodeText
import PluginHost.Proofs.PrintedText
import PluginHost.Proofs.TokenText

/-!
# Entries that are read back

`Reading.Entries` holds of a text and tokens if the text, on lines of its own in a mapping, is read as
the tokens.  Keys with a scalar behind them are read so (`Entries.entry`), keys with a list of
scalars below them (`Entries.list`), and such texts one after another (`Entries.append`).  A mapping
that consists of such texts and a mapping inside it is read as its entries (`Node.read?_of_spells`).
-/

namespace PluginHost.Yaml

namespace Reading

variable {key text more text₁ text₂ : List Char} {tokens ts ts₁ ts₂ result : List Token}
  {line : Nat} {margins : List Nat}

/-- Whether a text is printed plainly as a key, and is not too long for one. -/
structure IsKey (key : List Char) : Prop where
  fits : FitsPlain key
  ne_nil : key ≠ []
  length : key.length ≤ 1024
  unmarked : ∀ c ∈ key.head?, c ≠ '-' ∧ c ≠ '.'

/-- Whether a text is a key can be computed. -/
theorem isKey_of_check
    (h : (fitsPlain key && decide (key.length ≤ 1024)
      && key.head?.any fun c => c != '-' && c != '.') = true) :
  IsKey key
  := by
  simp only [Bool.and_eq_true, decide_eq_true_eq, Option.any_eq_true, bne_iff_ne] at h
  obtain ⟨⟨hfits, hlength⟩, c, hc, hmark⟩ := h
  refine ⟨.of_fits hfits, ?_, hlength, ?_⟩
  · rintro rfl
    cases hc
  · intro d hd
    obtain rfl := Option.mem_unique hc hd
    apply hmark

theorem IsKey.startsLine (h : IsKey key) (rest : List Char) :
  StartsLine (key ++ rest)
  := startsLine_of_fitsPlain h.fits h.ne_nil rest

/-- The start of a printed scalar is that of a token. -/
theorem startsLine_printScalar (text more : List Char) :
  StartsLine (printScalar text ++ more)
  := by
  have hindicator : ∀ c, isWhite c = false ∧ c ≠ '#' ∧ c ≠ '\ufeff' →
      ∀ rest, StartsLine (c :: rest) := by
    rintro c hc rest d ⟨rfl⟩
    apply hc
  have hwritten := written text
  generalize scalarStyle text = style at hwritten
  generalize printScalar text = printed at hwritten
  cases hwritten with
  | plain h hambiguous =>
    rw [List.append_assoc]
    apply startsLine_of_fitsPlain h (ne_nil_of_isAmbiguous hambiguous)
  | single h hfeed => exact hindicator '\'' (by decide) _
  | literal h hfeed => exact hindicator '|' (by decide) _
  | double => exact hindicator '"' (by decide) _

/-- An entry with a scalar is read in front of what follows it. -/
theorem Finishes.of_entry {column margin : Nat} (hkey : IsKey key) (hmargin : margin ≤ column + 1)
    (hcolumn : column = 0 ∨ '\n' ∉ text) (hstart : StartsLine more)
    (hmore : ∀ next, Finishes ⟨⟨more, next, 0⟩, column + 1,
      if margin ≤ column then margin :: margins else margins, [none], true,
      tokens ++ (if margin ≤ column then [.blockMapping] else [])
        ++ [.key, .scalar .plain key, .value, .scalar (scalarStyle text) text]⟩ result) :
  Finishes ⟨⟨key ++ ':' :: ' ' :: (printScalar text ++ more), line, column⟩, margin, margins, [none],
    true, tokens⟩ result
  := by
  have hends : ∀ rest, endsWord (' ' :: rest) = true := fun _ => rfl
  apply Finishes.of_key hkey.fits hkey.ne_nil hkey.length (fun _ => hkey.unmarked) (hends _) hmargin
  apply Finishes.of_space (startsLine_printScalar text more) (by omega)
  refine Finishes.of_scalar hstart (by omega) (by omega) (by simp) ?_ ?_
  · rcases hcolumn with rfl | hfeed
    · exact .inl rfl
    · exact .inr ⟨Nat.succ_pos column, hfeed⟩
  · simpa using hmore

/-- A text on lines of its own that is read as tokens of the entries of a mapping. -/
structure Entries (text : List Char) (ts : List Token) : Prop where
  starts : ∀ more, StartsLine more → StartsLine (text ++ more)
  reads : ∀ more line margins tokens result, StartsLine more →
    (∀ next, Finishes ⟨⟨more, next, 0⟩, 1, margins, [none], true, tokens ++ ts⟩ result) →
    Finishes ⟨⟨text ++ more, line, 0⟩, 1, margins, [none], true, tokens⟩ result

theorem Entries.nil :
  Entries [] []
  := by
  refine ⟨fun more h => h, ?_⟩
  intro more line margins tokens result hstart h
  simpa using h line

theorem Entries.append (h₁ : Entries text₁ ts₁) (h₂ : Entries text₂ ts₂) :
  Entries (text₁ ++ text₂) (ts₁ ++ ts₂)
  := by
  refine ⟨?_, ?_⟩
  · intro more hmore
    rw [List.append_assoc]
    apply h₁.starts _ (h₂.starts more hmore)
  · intro more line margins tokens result hstart h
    rw [List.append_assoc]
    apply h₁.reads _ _ _ _ _ (h₂.starts more hstart)
    intro next
    apply h₂.reads _ _ _ _ _ hstart
    simpa using h

/-- A key with a scalar behind it. -/
theorem Entries.entry (hkey : IsKey key) (text : List Char) :
  Entries (key ++ ':' :: ' ' :: printScalar text)
    [.key, .scalar .plain key, .value, .scalar (scalarStyle text) text]
  := by
  refine ⟨?_, ?_⟩
  · intro more hmore
    rw [List.append_assoc]
    apply hkey.startsLine
  · intro more line margins tokens result hstart h
    simp only [List.append_assoc, List.cons_append]
    apply Finishes.of_entry hkey (Nat.le_refl 1) (.inl rfl) hstart
    simpa using h

/-- The entry of a list that is not indented. -/
theorem Entries.item (text : List Char) :
  Entries ('-' :: ' ' :: printScalar text) [.blockEntry, .scalar (scalarStyle text) text]
  := by
  have hdash : ∀ rest, StartsLine ('-' :: rest) := by
    rintro rest c ⟨rfl⟩
    decide
  refine ⟨fun more hmore => hdash _, ?_⟩
  intro more line margins tokens result hstart h
  have hread : next ⟨⟨'-' :: ' ' :: (printScalar text ++ more), line, 0⟩, 1, margins, [none], true,
        tokens⟩ '-' (' ' :: (printScalar text ++ more))
      = some ⟨⟨' ' :: (printScalar text ++ more), line, 1⟩, 1, margins, [none], true,
        tokens ++ [.blockEntry]⟩ := by
    have hmark : ∀ rest, isMark '-' ('-' :: ' ' :: rest) = false := by
      intro rest
      cases rest <;> rfl
    have hdots : isMark '.' ('-' :: ' ' :: (printScalar text ++ more)) = false :=
      isMark_of_ne (by decide) _
    have hends : endsWord (' ' :: (printScalar text ++ more)) = true := rfl
    have hbreak : ∀ c ∈ ['-'], isBreak c = false := List.forall_mem_singleton.2 rfl
    have hplace : (⟨'-' :: ' ' :: (printScalar text ++ more), line, 0⟩ : Cursor).past 1
        = ⟨' ' :: (printScalar text ++ more), line, 1⟩ :=
      (Cursor.past_append ['-'] _ line 0).trans (Cursor.after_of_no_break hbreak _ _)
    simp [next, hmark, hdots, hends, entryMark, openBlock, inFlow, setKey, forget, allowKey, skip, emit,
      hplace]
  apply Finishes.of_next (settle_of_startsLine (hdash _) (Nat.le_refl 1)) rfl hread
  · simp
  apply Finishes.of_space (startsLine_printScalar text more) (by decide)
  refine Finishes.of_scalar hstart (by decide) (by decide) (by decide) (.inl rfl) ?_
  simpa using h

/-- A list of scalars that is not indented. -/
theorem Entries.items (texts : List (List Char)) :
  Entries (texts.flatMap fun text => '-' :: ' ' :: printScalar text)
    (texts.flatMap fun text => [.blockEntry, .scalar (scalarStyle text) text])
  := by
  induction texts with
  | nil => exact .nil
  | cons text texts ih =>
    rw [List.flatMap_cons, List.flatMap_cons]
    exact .append (.item text) ih

/-- A key with a list of scalars below it. -/
theorem Entries.list (hkey : IsKey key) (texts : List (List Char)) :
  Entries (key ++ ':' :: '\n' :: texts.flatMap fun text => '-' :: ' ' :: printScalar text)
    ([.key, .scalar .plain key, .value]
      ++ texts.flatMap fun text => [.blockEntry, .scalar (scalarStyle text) text])
  := by
  refine ⟨?_, ?_⟩
  · intro more hmore
    rw [List.append_assoc]
    apply hkey.startsLine
  · intro more line margins tokens result hstart h
    have hitems := Entries.items texts
    have hbegins := hitems.starts more hstart
    have hends : ∀ rest, endsWord ('\n' :: rest) = true := fun _ => rfl
    simp only [List.append_assoc, List.cons_append]
    apply Finishes.of_key hkey.fits hkey.ne_nil hkey.length (fun _ => hkey.unmarked) (hends _)
      (Nat.le_refl 1)
    apply Finishes.of_lineEnd ⟨by simp, by simp⟩ 0 hbegins
    intro next
    apply hitems.reads _ _ _ _ _ hstart
    simpa using h

/-! ### Whole texts -/

/-- At the end of a text the collections that are open end. -/
theorem finishes_end (line : Nat) (tokens : List Token) :
  Finishes ⟨⟨[], line, 0⟩, 3, [1, 0], [none], true, tokens⟩ (tokens ++ [.blockEnd, .blockEnd])
  := by
  intro n hn
  obtain ⟨n, rfl⟩ := Nat.exists_eq_succ_of_ne_zero (Nat.ne_zero_of_lt hn)
  have hstart : StartsLine [] := by simp [StartsLine]
  have hsettle : settle ⟨⟨[], line, 0⟩, 3, [1, 0], [none], true, tokens⟩
      = some ⟨⟨[], line, 0⟩, 1, [0], [none], true, tokens ++ [.blockEnd]⟩ := by
    rw [settle, toNext_of_startsLine hstart, dropStale_of_passed ⟨by simp, by simp⟩]
    rfl
  rw [finish_succ, hsettle]
  simp [closeBlocks, closeAbove, inFlow, setKey, forget]

/-- A key with a mapping of one key and a plain scalar below it. -/
def nested (outer key text : List Char) : List Char :=
  outer ++ ':' :: '\n' :: (List.replicate 2 ' ' ++ (key ++ ':' :: ' ' :: (text ++ ['\n'])))

/-- The tokens of a key with a mapping below it, where the mapping around it ends too. -/
def nestedTokens (outer key text : List Char) : List Token :=
  [.key, .scalar .plain outer, .value, .blockMapping, .key, .scalar .plain key, .value,
    .scalar .plain text, .blockEnd, .blockEnd]

/-- At the end of a text a mapping with a plain scalar is read as the value of a key. -/
theorem finishes_nested {outer : List Char} (houter : IsKey outer) (hkey : IsKey key)
    (hfits : FitsPlain text) (hne : text ≠ []) (line : Nat) (tokens : List Token) :
  Finishes ⟨⟨nested outer key text, line, 0⟩, 1, [0], [none], true, tokens⟩
    (tokens ++ nestedTokens outer key text)
  := by
  have hend : StartsLine [] := by simp [StartsLine]
  apply Finishes.of_key houter.fits houter.ne_nil houter.length (fun _ => houter.unmarked) rfl
    (Nat.le_refl 1)
  apply Finishes.of_lineEnd ⟨by simp, by simp⟩ 2 (hkey.startsLine _)
  intro next
  apply Finishes.of_key hkey.fits hkey.ne_nil hkey.length (by simp) rfl (by decide)
  apply Finishes.of_space (startsLine_of_fitsPlain hfits hne _) (by omega)
  refine Finishes.of_plain hend (by omega) (by omega) (by simp) hfits hne (by decide) ?_
  intro last
  have hfinishes := finishes_end last (tokens ++ [.key, .scalar .plain outer, .value, .blockMapping,
    .key, .scalar .plain key, .value, .scalar .plain text])
  rw [List.append_assoc] at hfinishes
  simpa [nestedTokens] using hfinishes

end Reading

/-- The tokens of a text that consists of characters that are printed as they are. -/
theorem read?_of_finishes {text : String} {tokens : List Token} (h : ∀ c ∈ text.toList, Printed c)
    (hfinishes : (Reading.start text.toList).Finishes tokens) :
  Token.read? text = some tokens
  := by
  rw [Token.read?, all_allowed_of_printed h, if_pos rfl, normalize_of_printed h]
  apply hfinishes
  apply Nat.lt_succ_self

/-! ### Entries and their nodes -/

open PluginHost.Yaml.Reading (IsKey nested nestedTokens)
open NodeReader (ReadsEntries scalarNode)

variable {key outer text text₁ text₂ : List Char} {entries entries₁ entries₂ : List (Node × Node)}

/-- The scalar that a text is read as from what is printed for it. -/
def textNode (text : List Char) : Node := scalarNode (scalarStyle text) text

/-- Whether a text is read as entries of a mapping in front of others. -/
structure Spells (text : List Char) (entries : List (Node × Node)) : Prop where
  printed : ∀ c ∈ text, Printed c
  reads : ∃ ts, Reading.Entries text ts
    ∧ ∀ more others, ReadsEntries more others → ReadsEntries (ts ++ more) (entries ++ others)

theorem Spells.nil :
  Spells [] []
  := ⟨by simp, [], .nil, fun _ _ h => h⟩

theorem Spells.append (h₁ : Spells text₁ entries₁) (h₂ : Spells text₂ entries₂) :
  Spells (text₁ ++ text₂) (entries₁ ++ entries₂)
  := by
  obtain ⟨ts₁, hread₁, hentries₁⟩ := h₁.reads
  obtain ⟨ts₂, hread₂, hentries₂⟩ := h₂.reads
  refine ⟨List.forall_mem_append.2 ⟨h₁.printed, h₂.printed⟩, ts₁ ++ ts₂, hread₁.append hread₂, ?_⟩
  intro more others h
  rw [List.append_assoc, List.append_assoc]
  apply hentries₁ _ _ (hentries₂ _ _ h)

/-- Behind a key the characters of its value are printed as they are. -/
theorem printed_keyed (hkey : IsKey key) {c : Char} (hc : Printed c) (h : ∀ d ∈ text, Printed d) :
  ∀ d ∈ key ++ ':' :: c :: text, Printed d
  := by
  have hcolon : Printed ':' := printed_of_isPrintable rfl
  exact List.forall_mem_append.2 ⟨hkey.fits.printed,
    List.forall_mem_cons.2 ⟨hcolon, List.forall_mem_cons.2 ⟨hc, h⟩⟩⟩

theorem printed_space :
  Printed ' '
  := printed_of_isPrintable rfl

theorem Spells.entry (hkey : IsKey key) (text : List Char) :
  Spells (key ++ ':' :: ' ' :: printScalar text) [(scalarNode .plain key, textNode text)]
  := by
  refine ⟨printed_keyed hkey printed_space (printed_printScalar text), _,
    Reading.Entries.entry hkey text, ?_⟩
  intro more others h
  exact .cons (NodeReader.readsNode_scalar _ _) h key

theorem Spells.list (hkey : IsKey key) {texts : List (List Char)} (hne : texts ≠ []) :
  Spells (key ++ ':' :: '\n' :: texts.flatMap fun text => '-' :: ' ' :: printScalar text)
    [(scalarNode .plain key, .sequence Properties.none (texts.map textNode))]
  := by
  have hdash : Printed '-' := printed_of_isPrintable rfl
  have hitems : ∀ c ∈ texts.flatMap fun text => '-' :: ' ' :: printScalar text, Printed c := by
    intro c hc
    obtain ⟨text, -, hc⟩ := List.mem_flatMap.1 hc
    have hitem : ∀ d ∈ '-' :: ' ' :: printScalar text, Printed d :=
      List.forall_mem_cons.2 ⟨hdash, List.forall_mem_cons.2 ⟨printed_space, printed_printScalar text⟩⟩
    apply hitem c hc
  have hsome : texts.map (fun t => (scalarStyle t, t)) ≠ [] := by simpa using hne
  have hlist := NodeReader.readsNode_list hsome
  rw [List.flatMap_map, List.map_map] at hlist
  refine ⟨printed_keyed hkey printed_feed hitems, _, Reading.Entries.list hkey texts, ?_⟩
  intro more others h
  exact .cons hlist h key

/-! ### Documents -/

/-- The tokens of a mapping that begins with a key and a scalar and ends with a mapping of one key. -/
theorem readTokens?_of_spells {inner flag : List Char} {ts : List Token} (hkey : IsKey key)
    (houter : IsKey outer) (hinner : IsKey inner) (hflag : FitsPlain flag) (hne : flag ≠ [])
    (hprinted : ∀ c ∈ text₂, Printed c) (hread : Reading.Entries text₂ ts) (text : List Char) :
  Token.read? (String.ofList (key ++ ':' :: ' ' :: (printScalar text
      ++ (text₂ ++ nested outer inner flag))))
    = some (.blockMapping :: ([.key, .scalar .plain key, .value] ++ [.scalar (scalarStyle text) text]
      ++ (ts ++ nestedTokens outer inner flag)))
  := by
  have hend : ∀ c ∈ flag ++ ['\n'], Printed c :=
    List.forall_mem_append.2 ⟨hflag.printed, by simpa using printed_feed⟩
  have hspaces : ∀ c ∈ List.replicate 2 ' ', Printed c := by simpa using printed_space
  have hnested : ∀ c ∈ nested outer inner flag, Printed c :=
    printed_keyed houter printed_feed (List.forall_mem_append.2 ⟨hspaces,
      printed_keyed hinner printed_space hend⟩)
  have hstart : StartsLine (nested outer inner flag) := houter.startsLine _
  apply read?_of_finishes
  · rw [String.toList_ofList]
    exact printed_keyed hkey printed_space (List.forall_mem_append.2 ⟨printed_printScalar text,
      List.forall_mem_append.2 ⟨hprinted, hnested⟩⟩)
  · rw [String.toList_ofList, Reading.start]
    apply Reading.Finishes.of_entry hkey (by decide) (.inl rfl) (hread.starts _ hstart)
    intro next
    apply hread.reads _ _ _ _ _ hstart
    intro last
    have hfinishes := Reading.finishes_nested houter hinner hflag hne last
      ([.blockMapping, .key, .scalar .plain key, .value, .scalar (scalarStyle text) text] ++ ts)
    simpa using hfinishes

/-- A mapping that begins with a key and a scalar and ends with a mapping of one key is read as its
entries. -/
theorem Node.read?_of_spells {inner flag : List Char} (hkey : IsKey key) (houter : IsKey outer)
    (hinner : IsKey inner) (hflag : FitsPlain flag) (hne : flag ≠ []) (hspells : Spells text₂ entries)
    (text : List Char) :
  Node.read? (String.ofList (key ++ ':' :: ' ' :: (printScalar text
      ++ (text₂ ++ nested outer inner flag))))
    = some (some (.mapping Properties.none ((scalarNode .plain key, textNode text) :: (entries
      ++ [(scalarNode .plain outer,
        .mapping Properties.none [(scalarNode .plain inner, scalarNode .plain flag)])]))))
  := by
  obtain ⟨ts, hread, hentries⟩ := hspells.reads
  have htokens := readTokens?_of_spells hkey houter hinner hflag hne hspells.printed hread text
  have hflagEntries : ReadsEntries _ _ :=
    .cons (NodeReader.readsNode_scalar .plain flag) NodeReader.readsEntries_nil inner
  have hlast : ReadsEntries (nestedTokens outer inner flag) _ :=
    .cons (NodeReader.readsNode_mapping hflagEntries) NodeReader.readsEntries_nil outer
  have hall : ReadsEntries _ _ :=
    .cons (NodeReader.readsNode_scalar (scalarStyle text) text) (hentries _ _ hlast) key
  rw [Node.read?, htokens, Option.bind_eq_bind, Option.bind_some,
    NodeReader.document?_of_entries hall (by simp; omega)]
  rfl

end PluginHost.Yaml

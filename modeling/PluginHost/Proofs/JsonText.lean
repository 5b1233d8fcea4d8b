import Mathlib.Data.List.Forall2
import Mathlib.Tactic.Use
import PluginHost.Json.Printer
import PluginHost.Json.Record

/-!
# Reading printed JSON

`Json.Spells` holds of a text and a value if the text is read as the value whatever follows it.
A string that is written between quotes spells itself, whatever characters it has
(`spells_quote`), and an object written over several lines spells the object of what its members
spell (`spells_printObject`).  No value takes more steps to read than its text has characters,
so a text that spells a value is read as that value (`read?_of_spells`).
-/

namespace PluginHost.Json

/-! ### Strings -/

theorem scanString_plain {c : Char} (hquote : c ≠ '"') (hescape : c ≠ '\\')
    (hcontrol : ¬ c.toNat < 0x20) (rest : List Char) :
  scanString (c :: rest) = (scanString rest).map fun p => (c.toNat :: p.1, p.2)
  := by
  rw [scanString]
  · simp only [hcontrol, hescape, or_self, if_false]
    cases scanString rest <;> rfl
  all_goals simp_all

theorem scanString_escaped {c e : Char} (hescaped : escaped? e = some c) (hunit : e ≠ 'u')
    (rest : List Char) :
  scanString ('\\' :: e :: rest) = (scanString rest).map fun p => (c.toNat :: p.1, p.2)
  := by
  rw [scanString]
  · rw [hescaped]
    cases scanString rest <;> rfl
  all_goals simp_all

theorem numberIn?_control :
  ∀ n < 0x20, Text.numberIn? 16 ['0', '0', Nat.digitChar (n / 16), Nat.digitChar (n % 16)]
    = some n
  := by decide

/-- A character is scanned from what is written for it inside a string. -/
theorem scanString_quoteChar (c : Char) (rest : List Char) :
  scanString (quoteChar c ++ rest) = (scanString rest).map fun p => (c.toNat :: p.1, p.2)
  := by
  unfold quoteChar
  split
  -- seven characters have an escape of their own
  iterate 7 exact scanString_escaped rfl (by decide) rest
  split
  · next hcontrol =>
    simp only [List.cons_append, List.nil_append]
    rw [scanString, numberIn?_control _ hcontrol]
    cases scanString rest <;> rfl
  · apply scanString_plain <;> assumption

theorem scanString_quote (cs rest : List Char) :
  scanString (cs.flatMap quoteChar ++ '"' :: rest) = some (cs.map Char.toNat, rest)
  := by
  induction cs with
  | nil => rfl
  | cons c cs ih =>
    rw [List.flatMap_cons, List.append_assoc, scanString_quoteChar, ih]
    rfl

/-- Characters are no halves of surrogate pairs. -/
theorem joinHalves_map_toNat (cs : List Char) :
  joinHalves (cs.map Char.toNat) = some cs
  := by
  induction cs with
  | nil => rfl
  | cons c cs ih =>
    have hvalid : c.toNat < 0xD800 ∨ 0xDFFF < c.toNat := by
      have h := c.valid
      simp only [UInt32.isValidChar, Nat.isValidChar] at h
      change c.val.toNat < 0xD800 ∨ 0xDFFF < c.val.toNat
      omega
    rw [List.map_cons]
    unfold joinHalves
    rw [if_neg (by omega), if_neg (by omega), ih, Char.ofNat_toNat]
    rfl

/-! ### Values -/

/-- Whether a text is read as a value, whatever follows it.  No blank stands in front. -/
structure Spells (text : List Char) (value : Json) : Prop where
  reads : ∀ n rest, text.length ≤ n → readValue n (text ++ rest) = some (value, rest)
  unblank : ∀ rest, skipBlanks (text ++ rest) = text ++ rest

theorem skipBlanks_cons {c : Char} (hspace : c ≠ ' ') (htab : c ≠ '\t') (hfeed : c ≠ '\n')
    (hreturn : c ≠ '\r') (rest : List Char) :
  skipBlanks (c :: rest) = c :: rest
  := by
  simp [skipBlanks, *]

/-- A text that spells a value is read as that value. -/
theorem read?_of_spells {text : List Char} {value : Json} (h : Spells text value) :
  read? (String.ofList text) = some value
  := by
  have hblank := h.unblank []
  have hreads := h.reads (text.length + 1) [] (Nat.le_succ _)
  rw [List.append_nil] at hblank hreads
  rw [read?, String.toList_ofList, String.length_ofList, hblank, hreads]
  rfl

/-- A string between quotes spells itself. -/
theorem spells_quote (s : String) :
  Spells (quote s) (.string (some s))
  := by
  constructor
  · intro n rest hn
    cases n with
    | zero => simp [quote] at hn
    | succ n =>
      simp only [quote, List.cons_append, List.append_assoc, readValue, readString]
      rw [List.nil_append, scanString_quote]
      simp [joinHalves_map_toNat]
  · intro rest
    apply skipBlanks_cons <;> decide

/-! ### Objects -/

theorem quote_unblank (s : String) (rest : List Char) :
  skipBlanks (quote s ++ rest) = quote s ++ rest
  := (spells_quote s).unblank rest

theorem skipBlanks_blank {c : Char} (h : c = ' ' ∨ c = '\n') (rest : List Char) :
  skipBlanks (c :: rest) = skipBlanks rest
  := by
  rcases h with rfl | rfl <;> rfl

theorem skipBlanks_margin (depth : Nat) (rest : List Char) :
  skipBlanks (margin depth ++ rest) = skipBlanks rest
  := by
  rw [margin]
  induction 2 * depth with
  | zero => rfl
  | succ k ih => rw [List.replicate_succ, List.cons_append, skipBlanks_blank (.inl rfl), ih]

/-- Whether a member of an object is what a key and the text of a value spell. -/
def SpellsMember (text : String × List Char) (member : Option String × Json) : Prop :=
  member.1 = some text.1 ∧ Spells text.2 member.2

/-- A member of an object is read from its key and the text of its value; what stands behind it says
whether it is the last one. -/
theorem readMembers_quote {key : String} {text : List Char} {value : Json} {n : Nat}
    (h : Spells text value) (hn : text.length ≤ n) (rest : List Char) :
  readMembers (n + 1) (quote key ++ ':' :: ' ' :: (text ++ rest))
    = match skipBlanks rest with
      | '\x7d' :: after => some ([(some key, value)], after)
      | ',' :: more => do
        let (members, after) ← readMembers n (skipBlanks more)
        return ((some key, value) :: members, after)
      | _ => none
  := by
  simp only [quote, List.cons_append, List.append_assoc, readMembers, readString]
  rw [List.nil_append, scanString_quote]
  simp only [joinHalves_map_toNat, Option.map_some, String.ofList_toList, bind, Option.bind_some]
  rw [skipBlanks_cons (by decide) (by decide) (by decide) (by decide)]
  simp only [skipBlanks_blank (.inl rfl), h.unblank, h.reads n rest hn, Option.bind_some]
  rfl

/-- The members of an object begin with the quote of the first key. -/
theorem quoted_of_readMembers {n : Nat} {cs : List Char}
    {p : List (Option String × Json) × List Char} (h : readMembers n cs = some p) :
  ∃ more, cs = '"' :: more
  := by
  unfold readMembers at h
  split at h
  · cases h
  · exact ⟨_, rfl⟩
  · cases h

/-- The members of an object are read from what is printed for them. -/
theorem readMembers_printMembers {texts : List (String × List Char)}
    {members : List (Option String × Json)} (h : List.Forall₂ SpellsMember texts members)
    (hne : texts ≠ []) (depth outer n : Nat) (hn : (printMembers depth texts).length ≤ n)
    (rest : List Char) :
  readMembers n (skipBlanks (printMembers depth texts ++ (margin outer ++ '\x7d' :: rest)))
    = some (members, rest)
  := by
  induction h generalizing n with
  | nil => cases hne rfl
  | @cons text member texts members hmember htexts ih =>
    obtain ⟨key, body⟩ := text
    obtain ⟨key', value⟩ := member
    obtain ⟨rfl, hspells⟩ := hmember
    cases n with
    | zero => cases texts <;> simp [printMembers] at hn
    | succ n =>
      cases texts with
      | nil =>
        cases htexts
        have hbody : body.length ≤ n := by
          simp [printMembers] at hn
          omega
        have hrest : skipBlanks ('\n' :: (margin outer ++ '\x7d' :: rest)) = '\x7d' :: rest := by
          rw [skipBlanks_blank (.inr rfl), skipBlanks_margin]
          rfl
        simp only [printMembers, List.append_assoc, List.cons_append, List.nil_append]
        rw [skipBlanks_margin, quote_unblank, readMembers_quote hspells hbody, hrest]
        rfl
      | cons next more =>
        have hlength : body.length ≤ n ∧ (printMembers depth (next :: more)).length ≤ n := by
          simp [printMembers] at hn
          omega
        simp only [printMembers, List.append_assoc, List.cons_append, List.nil_append]
        rw [skipBlanks_margin, quote_unblank, readMembers_quote hspells hlength.1,
          skipBlanks_cons (by decide) (by decide) (by decide) (by decide)]
        simp only
        rw [skipBlanks_blank (.inr rfl), ih (List.cons_ne_nil _ _) n hlength.2]
        rfl

/-- An object that is printed over several lines spells the object of its members. -/
theorem spells_printObject {texts : List (String × List Char)}
    {members : List (Option String × Json)} (h : List.Forall₂ SpellsMember texts members)
    (depth : Nat) :
  Spells (printObject depth texts) (.object members)
  := by
  cases h with
  | nil =>
    constructor
    · intro n rest hn
      cases n with
      | zero => cases hn
      | succ n => rfl
    · intro rest
      rfl
  | @cons text member texts members hmember htexts =>
    constructor
    · intro n rest hn
      cases n with
      | zero => simp [printObject] at hn
      | succ n =>
        have hlength : (printMembers (depth + 1) (text :: texts)).length ≤ n := by
          simp [printObject] at hn
          omega
        have hread := readMembers_printMembers (.cons hmember htexts) (List.cons_ne_nil _ _)
          (depth + 1) depth n hlength rest
        simp only [printObject, List.append_assoc, List.cons_append, List.nil_append, readValue]
        rw [skipBlanks_blank (.inr rfl)]
        generalize hmore : skipBlanks (printMembers (depth + 1) (text :: texts)
          ++ (margin depth ++ '\x7d' :: rest)) = more at hread ⊢
        -- what is read as members begins with a quote, so it does not close the object
        obtain ⟨more', rfl⟩ := quoted_of_readMembers hread
        simp [hread]
    · intro rest
      rfl

end PluginHost.Json

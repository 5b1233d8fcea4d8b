import PluginHost.Proofs.LiteralText

/-!
# Characters that are printed

Every character that is printed for a scalar is printed as it is (`printed_printScalar`), so it may
stand in a text, and there is no spelling of a break among them that is read as another one
(`normalize_of_printed`).
-/

namespace PluginHost.Yaml

variable {c : Char} {cs : List Char}

theorem printed_feed :
  Printed '\n'
  := printed_of_isPrintable rfl

/-- Whether all characters of a text are printed as they are can be computed. -/
theorem printed_of_all (h : cs.all isPrintable = true) :
  ∀ c ∈ cs, Printed c
  := fun c hc => printed_of_isPrintable (List.all_eq_true.1 h c hc)

theorem printed_indentation :
  ∀ c ∈ indentation, Printed c
  := printed_of_all rfl

/-- A text with indentation is printed as it is if its characters are. -/
theorem printed_indentLines {print : Char → List Char} (hcs : ∀ c ∈ cs, Printed c)
    (hprint : ∀ c ∈ cs, ∀ d ∈ print c, Printed d) (atStart : Bool) :
  ∀ c ∈ indentLines print atStart cs, Printed c
  := by
  induction cs generalizing atStart with
  | nil => simp [indentLines]
  | cons c cs ih =>
    obtain ⟨hc, hcs⟩ := List.forall_mem_cons.1 hcs
    obtain ⟨hcprint, hprint⟩ := List.forall_mem_cons.1 hprint
    rw [indentLines]
    split
    · exact List.forall_mem_cons.2 ⟨hc, ih hcs hprint true⟩
    · refine List.forall_mem_append.2 ⟨List.forall_mem_append.2 ⟨?_, hcprint⟩, ih hcs hprint false⟩
      split
      · apply printed_indentation
      · simp

theorem printed_quoted (hc : Printed c) :
  ∀ d ∈ quoted c, Printed d
  := by
  rw [quoted]
  split
  · apply printed_of_all rfl
  · simpa using hc

theorem printed_printSingle (h : ∀ c ∈ cs, Printed c) :
  ∀ c ∈ printSingle cs, Printed c
  := by
  have hquote : Printed '\'' := printed_of_isPrintable rfl
  rw [printSingle_eq, singleBody]
  refine List.forall_mem_cons.2 ⟨hquote, List.forall_mem_append.2 ⟨?_,
    List.forall_mem_append.2 ⟨?_, ?_⟩⟩⟩
  · apply printed_indentLines h fun c hc => printed_quoted (h c hc)
  · rw [indentAfter]
    split
    · apply printed_indentation
    · simp
  · simpa using hquote

theorem printed_printLiteral (h : ∀ c ∈ cs, Printed c) :
  ∀ c ∈ printLiteral cs, Printed c
  := by
  have hheader : ∀ c ∈ literalHeader cs, Printed c := by
    rw [literalHeader]
    split <;> split
    all_goals try split
    all_goals exact printed_of_all rfl
  rw [printLiteral]
  refine List.forall_mem_append.2 ⟨hheader,
    List.forall_mem_cons.2 ⟨printed_feed, List.forall_mem_append.2 ⟨?_, ?_⟩⟩⟩
  · apply printed_indentLines h
    intro c hc
    simpa using h c hc
  · split
    · simp
    · simpa using printed_feed

theorem isPrintable_capital :
  ∀ d < 16, isPrintable (Nat.digitChar d).toUpper = true
  := by decide

/-- Hexadecimal capitals are printed as they are. -/
theorem printed_capitalHex (width n : Nat) :
  ∀ c ∈ (Text.capitalHex width n).toList, Printed c
  := by
  have hdigits : ∀ c ∈ (Nat.toDigits 16 n).map Char.toUpper, isPrintable c = true := by
    induction n using Nat.strongRecOn with
    | ind n ih =>
      by_cases hn : n < 16
      · simpa [Nat.toDigits_of_lt_base hn] using isPrintable_capital n hn
      · rw [Nat.toDigits_of_base_le (by decide) (Nat.le_of_not_lt hn), List.map_append]
        refine List.forall_mem_append.2 ⟨ih (n / 16) (by omega), ?_⟩
        simpa using isPrintable_capital _ (Nat.mod_lt n (by decide))
  intro c hc
  rw [Text.capitalHex, String.toList_ofList] at hc
  rcases List.mem_append.1 hc with hc | hc
  · rw [List.eq_of_mem_replicate hc]
    exact printed_of_isPrintable rfl
  · apply printed_of_isPrintable (hdigits c hc)

theorem isPrintable_of_letter? {l : Char} (h : letter? c = some l) :
  isPrintable l = true
  := by
  unfold letter? at h
  split at h
  all_goals
    cases h
  all_goals rfl

/-- An escape is printed as it is. -/
theorem printed_escape (c : Char) :
  ∀ d ∈ escape c, Printed d
  := by
  have hbackslash : Printed '\\' := printed_of_isPrintable rfl
  have hhex : ∀ mark, isPrintable mark = true → ∀ width, ∀ d ∈
      '\\' :: mark :: (Text.capitalHex width c.toNat).toList, Printed d := by
    intro mark hmark width
    exact List.forall_mem_cons.2 ⟨hbackslash, List.forall_mem_cons.2
      ⟨printed_of_isPrintable hmark, printed_capitalHex width c.toNat⟩⟩
  rw [escape]
  split
  · next hletter =>
    simpa using ⟨hbackslash, printed_of_isPrintable (isPrintable_of_letter? hletter)⟩
  · dsimp only
    split
    · exact hhex 'x' rfl 2
    · split
      · exact hhex 'u' rfl 4
      · exact hhex 'U' rfl 8

theorem printed_printDouble (cs : List Char) :
  ∀ c ∈ printDouble cs, Printed c
  := by
  have hquote : Printed '"' := printed_of_isPrintable rfl
  have hchars : ∀ c ∈ cs.flatMap printDoubleChar, Printed c := by
    intro c hc
    obtain ⟨d, -, hd⟩ := List.mem_flatMap.1 hc
    rw [printDoubleChar] at hd
    split at hd
    · apply printed_escape d c hd
    · next hplain =>
      simp only [Bool.or_eq_true, Bool.not_eq_true', not_or, Bool.not_eq_false] at hplain
      rw [List.mem_singleton.1 hd]
      apply printed_of_isPrintable hplain.1.1.1
  rw [printDouble]
  exact List.forall_mem_cons.2 ⟨hquote, List.forall_mem_append.2 ⟨hchars, by simpa using hquote⟩⟩

/-- Every character that is printed for a scalar is printed as it is. -/
theorem printed_printScalar (cs : List Char) :
  ∀ c ∈ printScalar cs, Printed c
  := by
  have hfeed : ∀ c ∈ ['\n'], Printed c := by simpa using printed_feed
  have hwritten := written cs
  generalize scalarStyle cs = style at hwritten
  generalize printScalar cs = printed at hwritten
  cases hwritten with
  | plain h hambiguous => exact List.forall_mem_append.2 ⟨h.printed, hfeed⟩
  | single h hnone =>
    simp only [fitsSingle, Bool.and_eq_true, Bool.not_eq_true', needsEscapes_eq_false_iff] at h
    exact List.forall_mem_append.2 ⟨printed_printSingle h.1.printed, hfeed⟩
  | literal h hsome =>
    simp only [fitsLiteral, Bool.and_eq_true, Bool.not_eq_true', needsEscapes_eq_false_iff] at h
    exact printed_printLiteral h.1.printed
  | double => exact List.forall_mem_append.2 ⟨printed_printDouble cs, hfeed⟩

/-! ### Texts that may be read -/

theorem all_allowed_of_printed (h : ∀ c ∈ cs, Printed c) :
  cs.all allowed = true
  := List.all_eq_true.2 fun c hc => (h c hc).allowed

/-- No break is spelled in another way than it is read. -/
theorem normalize_of_printed (h : ∀ c ∈ cs, Printed c) :
  normalize cs = cs
  := by
  induction cs with
  | nil => rfl
  | cons c cs ih =>
    obtain ⟨hc, hcs⟩ := List.forall_mem_cons.1 h
    rw [normalize, ih hcs]
    all_goals simp [hc.ne_return, hc.ne_nextLine]

end PluginHost.Yaml

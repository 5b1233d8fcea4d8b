import PluginHost.Proofs.LiteralText
import PluginHost.Yaml.Token.Reader

/-!
# Tokens that are read back

`Reading.Finishes` holds of the state of a reading and the tokens that the whole text has.  It is shown
token by token from the end of the text: for each kind of token there is a state in front of it that
finishes if the one behind it does.  Keys with the colon behind them are such tokens
(`Finishes.of_key`), and so is all that is printed for a scalar (`Finishes.of_scalar`).
-/

namespace PluginHost.Yaml

variable {c : Char} {cs rest more : List Char}

/-! ### Places -/

namespace Cursor

theorem upTo_append (passed rest : List Char) (line column : Nat) :
  (⟨passed ++ rest, line, column⟩ : Cursor).upTo rest
    = (⟨passed ++ rest, line, column⟩ : Cursor).after passed rest
  := by simp [upTo]

/-- The place after the first characters of a text. -/
theorem past_append (passed rest : List Char) (line column : Nat) :
  (⟨passed ++ rest, line, column⟩ : Cursor).past passed.length
    = (⟨passed ++ rest, line, column⟩ : Cursor).after passed rest
  := by
  rw [past, List.drop_left, upTo_append]

/-- Without breaks only the column changes. -/
theorem after_of_no_break {passed : List Char} (h : ∀ c ∈ passed, isBreak c = false)
    (place : Cursor) (rest : List Char) :
  place.after passed rest = ⟨rest, place.line, place.column + passed.length⟩
  := by
  have hnone : passed.countP isBreak = 0 := by
    rw [List.countP_eq_zero]
    intro c hc
    simp [h c hc]
  rw [after, hnone]
  rfl

/-- No place is on a line before one that it comes after. -/
theorem exists_after (place : Cursor) (passed rest : List Char) :
  ∃ line column, place.line ≤ line ∧ place.after passed rest = ⟨rest, line, column⟩
  := by
  rw [after]
  split
  · exact ⟨_, _, Nat.le_refl _, rfl⟩
  · exact ⟨_, _, Nat.le_add_right _ _, rfl⟩

/-- Behind a break and further characters of a line the column is the number of these. -/
theorem after_of_break {spaces : List Char} {b : Char} (hb : isBreak b = true)
    (hspaces : ∀ c ∈ spaces, isBreak c = false) (passed : List Char) (place : Cursor)
    (rest : List Char) :
  ∃ line, place.line < line
    ∧ place.after (passed ++ b :: spaces) rest = ⟨rest, line, spaces.length⟩
  := by
  have hcount : (passed ++ b :: spaces).countP isBreak ≠ 0 := by
    rw [Ne, List.countP_eq_zero]
    intro h
    cases h b (by simp) hb
  have htake : ((passed ++ b :: spaces).reverse.takeWhile fun d => !isBreak d) = spaces.reverse := by
    have hreverse : (passed ++ b :: spaces).reverse = spaces.reverse ++ b :: passed.reverse := by simp
    rw [hreverse, Text.takeWhile_run]
    · intro c hc
      simp [hspaces c (List.mem_reverse.1 hc)]
    · simp [hb]
  refine ⟨place.line + (passed ++ b :: spaces).countP isBreak, by omega, ?_⟩
  rw [after, if_neg hcount, htake, List.length_reverse]

/-- Behind characters that end with a break a line begins. -/
theorem upTo_of_break {b : Char} (hb : isBreak b = true) (front rest : List Char)
    (line column : Nat) :
  ∃ next, line < next
    ∧ (⟨front ++ b :: rest, line, column⟩ : Cursor).upTo rest = ⟨rest, next, 0⟩
  := by
  have hnone : ∀ c ∈ ([] : List Char), isBreak c = false := by simp
  obtain ⟨next, hnext, hplace⟩ := after_of_break hb hnone front ⟨front ++ b :: rest, line, column⟩ rest
  have hup := upTo_append (front ++ [b]) rest line column
  rw [List.append_assoc, List.singleton_append] at hup
  exact ⟨next, hnext, hup.trans hplace⟩

end Cursor

namespace Reading

variable {r r₀ r₁ : Reading} {tokens result : List Token}

/-! ### Steps -/

/-- The reading at the start of its next token, behind the ends of the collections that end before
it. -/
def settle (r : Reading) : Option Reading := do
  let r ← r.toNext.dropStale
  return r.closeBlocks (r.cursor.column + 1)

theorem finish_succ (r : Reading) (n : Nat) :
  r.finish (n + 1) = r.settle.bind fun r =>
    match r.cursor.rest with
    | [] => (r.closeBlocks 0).setKey none |>.map (·.tokens)
    | c :: cs => (r.next c cs).bind (·.finish n)
  := by
  rw [finish, settle]
  cases r.toNext.dropStale with
  | none => rfl
  | some r =>
    simp only [Option.bind_eq_bind, Option.bind_some, Option.pure_def]
    generalize r.closeBlocks (r.cursor.column + 1) = settled
    cases settled.cursor.rest with
    | nil => cases (settled.closeBlocks 0).setKey none <;> rfl
    | cons c cs => rfl

/-- Whether the tokens of the whole text are given, however many steps more than the rest has characters
may be taken. -/
def Finishes (r : Reading) (result : List Token) : Prop :=
  ∀ n, r.cursor.rest.length < n → r.finish n = some result

/-- A token is read in front of the others. -/
theorem Finishes.of_next (hsettle : r.settle = some r₀) (hrest : r₀.cursor.rest = c :: cs)
    (hnext : r₀.next c cs = some r₁) (hlength : r₁.cursor.rest.length < r.cursor.rest.length)
    (h : r₁.Finishes result) :
  r.Finishes result
  := by
  intro n hn
  obtain ⟨n, rfl⟩ := Nat.exists_eq_succ_of_ne_zero (Nat.ne_zero_of_lt hn)
  rw [finish_succ, hsettle, Option.bind_some, hrest]
  dsimp only
  rw [hnext, Option.bind_some]
  apply h
  omega

/-- Readings that come to the same token have the same tokens. -/
theorem Finishes.of_settle (hsettle : r.settle = r₀.settle)
    (hlength : r₀.cursor.rest.length ≤ r.cursor.rest.length) (h : r₀.Finishes result) :
  r.Finishes result
  := by
  intro n hn
  obtain ⟨n, rfl⟩ := Nat.exists_eq_succ_of_ne_zero (Nat.ne_zero_of_lt hn)
  rw [finish_succ, hsettle, ← finish_succ]
  apply h
  omega

/-! ### The start of a token -/

variable {line column margin : Nat} {margins : List Nat} {keys : List (Option PossibleKey)}
  {keyAllowed : Bool}

theorem skipWhite_of_startsLine (h : StartsLine more) (keyAllowed lineBegins : Bool) :
  skipWhite false keyAllowed lineBegins more = (more, keyAllowed)
  := by
  cases more with
  | nil => rfl
  | cons c cs =>
    obtain ⟨hwhite, hsign, hmark⟩ := h c rfl
    simp only [isWhite, isBlank, Bool.or_eq_false_iff, beq_eq_false_iff_ne] at hwhite
    obtain ⟨⟨hspace, htab⟩, hbreak⟩ := hwhite
    simp [skipWhite, hspace, htab, hbreak, hsign, hmark]

theorem skipWhite_spaces (n : Nat) (h : StartsLine more) (keyAllowed lineBegins : Bool) :
  skipWhite false keyAllowed lineBegins (List.replicate n ' ' ++ more) = (more, keyAllowed)
  := by
  induction n generalizing lineBegins with
  | zero => apply skipWhite_of_startsLine h
  | succ n ih => simpa [List.replicate_succ, skipWhite] using ih false

theorem skipWhite_break (n : Nat) (h : StartsLine more) (keyAllowed lineBegins : Bool) :
  skipWhite false keyAllowed lineBegins ('\n' :: (List.replicate n ' ' ++ more)) = (more, true)
  := by
  have hbreak : isBreak '\n' = true := rfl
  have hspaces := skipWhite_spaces n h true true
  simpa [skipWhite, hbreak] using hspaces

theorem closeBlocks_of_le {r : Reading} {bound : Nat} (h : r.margin ≤ bound) :
  r.closeBlocks bound = r
  := by
  obtain ⟨cursor, margin, margins, keys, keyAllowed, tokens⟩ := r
  rw [closeBlocks]
  split
  · rfl
  · cases margins with
    | nil => rfl
    | cons outer margins =>
      have hbound : ¬ bound < margin := Nat.not_lt.2 h
      simp [closeAbove, hbound]

/-- A possible key, if there is one, that need not be one and is on an earlier line. -/
structure Passed (line : Nat) (k : Option PossibleKey) : Prop where
  line : ∀ x ∈ k, x.line < line
  notRequired : ∀ x ∈ k, x.isRequired = false

theorem Passed.mono {k : Option PossibleKey} {next : Nat} (hk : Passed line k) (hnext : line ≤ next) :
  Passed next k
  := ⟨fun x hx => Nat.lt_of_lt_of_le (hk.line x hx) hnext, hk.notRequired⟩

theorem dropStale_of_passed {cursor : Cursor} {k : Option PossibleKey} (h : Passed cursor.line k) :
  dropStale ⟨cursor, margin, margins, [k], keyAllowed, tokens⟩
    = some ⟨cursor, margin, margins, [none], keyAllowed, tokens⟩
  := by
  cases k with
  | none => rfl
  | some k =>
    have hline := h.line k rfl
    have hrequired := h.notRequired k rfl
    simp [dropStale, isStale, forget, hline, hrequired]

theorem toNext_eq {white : List Char} {allowed : Bool}
    (h : skipWhite false keyAllowed (column == 0) (white ++ more) = (more, allowed))
    (k : Option PossibleKey) :
  toNext ⟨⟨white ++ more, line, column⟩, margin, margins, [k], keyAllowed, tokens⟩
    = ⟨(⟨white ++ more, line, column⟩ : Cursor).after white more, margin, margins, [k], allowed,
        tokens⟩
  := by
  have hflow : inFlow ⟨⟨white ++ more, line, column⟩, margin, margins, [k], keyAllowed, tokens⟩
      = false := rfl
  rw [toNext, hflow, h]
  simp [allowKey, moveTo, Cursor.upTo_append]

/-- At the start of a token nothing is passed over. -/
theorem toNext_of_startsLine (h : StartsLine more) (k : Option PossibleKey) :
  toNext ⟨⟨more, line, column⟩, margin, margins, [k], keyAllowed, tokens⟩
    = ⟨⟨more, line, column⟩, margin, margins, [k], keyAllowed, tokens⟩
  := by
  have hskip : skipWhite false keyAllowed (column == 0) ([] ++ more) = (more, keyAllowed) :=
    skipWhite_of_startsLine h keyAllowed _
  rw [← List.nil_append more, toNext_eq hskip, Cursor.after_of_no_break (by simp)]
  rfl

theorem isBreak_replicate (n : Nat) :
  ∀ c ∈ List.replicate n ' ', isBreak c = false
  := by
  intro c hc
  rw [List.eq_of_mem_replicate hc]
  rfl

/-- Spaces in front of a token are passed over. -/
theorem settle_spaces (n : Nat) (hstart : StartsLine more) (hmargin : margin ≤ column + n + 1) :
  settle ⟨⟨List.replicate n ' ' ++ more, line, column⟩, margin, margins, [none], keyAllowed, tokens⟩
    = some ⟨⟨more, line, column + n⟩, margin, margins, [none], keyAllowed, tokens⟩
  := by
  rw [settle, toNext_eq (skipWhite_spaces n hstart keyAllowed _),
    Cursor.after_of_no_break (isBreak_replicate n), dropStale_of_passed ⟨by simp, by simp⟩]
  simp [closeBlocks_of_le, hmargin]

/-- At the start of a token that is inside its collections nothing changes. -/
theorem settle_of_startsLine (hstart : StartsLine more) (hmargin : margin ≤ column + 1) :
  settle ⟨⟨more, line, column⟩, margin, margins, [none], keyAllowed, tokens⟩
    = some ⟨⟨more, line, column⟩, margin, margins, [none], keyAllowed, tokens⟩
  := by simpa using settle_spaces 0 hstart hmargin

/-- On a new line the key before it is forgotten, if it need not be one. -/
theorem settle_of_passed {k : Option PossibleKey} (hk : Passed line k) (hstart : StartsLine more) :
  settle ⟨⟨more, line, column⟩, margin, margins, [k], keyAllowed, tokens⟩
    = settle ⟨⟨more, line, column⟩, margin, margins, [none], keyAllowed, tokens⟩
  := by
  rw [settle, settle, toNext_of_startsLine hstart, toNext_of_startsLine hstart,
    dropStale_of_passed hk, dropStale_of_passed ⟨by simp, by simp⟩]

/-- The end of a line and spaces on the next one are passed over, behind which a key may begin. -/
theorem settle_break {k : Option PossibleKey} (hk : Passed (line + 1) k) (n : Nat)
    (hstart : StartsLine more) :
  ∃ next, settle ⟨⟨'\n' :: (List.replicate n ' ' ++ more), line, column⟩, margin, margins, [k],
      keyAllowed, tokens⟩
    = settle ⟨⟨more, next, n⟩, margin, margins, [none], true, tokens⟩
  := by
  have hfeed : isBreak '\n' = true := rfl
  obtain ⟨next, hnext, hplace⟩ := Cursor.after_of_break hfeed (isBreak_replicate n) []
    ⟨'\n' :: (List.replicate n ' ' ++ more), line, column⟩ more
  have hskip : skipWhite false keyAllowed (column == 0) ('\n' :: List.replicate n ' ' ++ more)
      = (more, true) := skipWhite_break n hstart keyAllowed _
  rw [List.nil_append, List.length_replicate] at hplace
  use next
  rw [← settle_of_passed (hk.mono hnext) hstart, settle, settle, toNext_of_startsLine hstart,
    ← List.cons_append, toNext_eq hskip, List.cons_append, hplace]

/-- At the start of a token that is on the line of a key before it, nothing changes. -/
theorem settle_of_key {k : PossibleKey} (hline : k.line = line)
    (hcolumn : column ≤ k.column + 1024) (hmargin : margin ≤ column + 1) (hstart : StartsLine more) :
  settle ⟨⟨more, line, column⟩, margin, margins, [some k], keyAllowed, tokens⟩
    = some ⟨⟨more, line, column⟩, margin, margins, [some k], keyAllowed, tokens⟩
  := by
  have hfresh : ¬ k.column + 1024 < column := Nat.not_lt.2 hcolumn
  rw [settle, toNext_of_startsLine hstart]
  simp [dropStale, isStale, hline, hfresh, closeBlocks_of_le, hmargin]

/-! ### Keys -/

theorem isMark_of_ne {mark : Char} (h : c ≠ mark) (cs : List Char) :
  isMark mark (c :: cs) = false
  := by
  unfold isMark
  split
  · next hcons =>
    obtain ⟨rfl, -⟩ := List.cons.inj hcons
    simp [h]
  · rfl

/-- The first character of a text that is printed plainly is no indicator. -/
theorem head_of_fitsPlain (h : FitsPlain (c :: cs)) :
  ∀ d ∈ "#,[]\x7b\x7d&*!|>'\"%@\x60".toList, (c == d) = false
  := by
  have hbegins := h.begins
  simp only [startsIndicated, Bool.or_eq_false_iff] at hbegins
  obtain ⟨⟨⟨hindicator, -⟩, -⟩, -⟩ := hbegins
  intro d hd
  apply beq_eq_false_iff_ne.2
  rintro rfl
  rw [List.contains_iff_mem.2 hd] at hindicator
  cases hindicator

/-- A dash, a question mark or a colon that such a text begins with is not the end of a word. -/
theorem word_of_fitsPlain (h : FitsPlain (c :: cs)) (rest : List Char) :
  ∀ d ∈ ['-', '?', ':'], (c == d && endsWord (cs ++ rest)) = false
  := by
  have hbegins := h.begins
  have hcolon := h.noIndicator
  simp only [startsIndicated, hasIndicator, Bool.or_eq_false_iff] at hbegins hcolon
  obtain ⟨⟨⟨-, hmark⟩, -⟩, -⟩ := hbegins
  obtain ⟨⟨hcolon, -⟩, -⟩ := hcolon
  intro d hd
  by_cases hcd : c = d
  · have hseparator : atSeparator cs = false := by
      subst hcd
      simp only [List.mem_cons, List.not_mem_nil, or_false] at hd
      rcases hd with rfl | rfl | rfl
      · simpa using hmark
      · simpa using hmark
      · simpa using hcolon
    rw [endsWord_eq_false hseparator, Bool.and_false]
  · rw [beq_eq_false_iff_ne.2 hcd, Bool.false_and]

/-- The first character of such a text is not white. -/
theorem isWhite_of_fitsPlain (h : FitsPlain (c :: cs)) :
  isWhite c = false
  := by
  have hprinted := h.printed c List.mem_cons_self
  have hspace : c ≠ ' ' := by simpa using h.head
  have hbreak : isBreak c = false := by
    rw [← hprinted.breaksLine]
    apply h.noBreak c List.mem_cons_self
  simp [isWhite, hprinted.isBlank, hspace, hbreak]

/-- The start of a text that is printed plainly is that of a token. -/
theorem startsLine_of_fitsPlain {text : List Char} (h : FitsPlain text) (hne : text ≠ [])
    (rest : List Char) :
  StartsLine (text ++ rest)
  := by
  obtain ⟨c, cs, rfl⟩ := List.exists_cons_of_ne_nil hne
  rintro d ⟨rfl⟩
  refine ⟨isWhite_of_fitsPlain h, by simpa using head_of_fitsPlain h '#' (by decide), ?_⟩
  apply (h.printed c List.mem_cons_self).ne_mark

/-- Where a text that is printed plainly begins a plain scalar may begin. -/
theorem beginsPlain_of_fits (h : FitsPlain (c :: cs)) (rest : List Char) :
  beginsPlain false c (cs ++ rest) = true
  := by
  have hword := word_of_fitsPlain h rest
  rw [beginsPlain]
  split
  · next hdash =>
    -- Where the word goes on, no blank follows.
    have hends : endsWord (cs ++ rest) = false := by simpa [hdash] using hword '-' (by decide)
    cases hrest : cs ++ rest with
    | nil => rfl
    | cons d more =>
      rw [hrest] at hends
      have hd : isWhite d = false := hends
      simp [(Bool.or_eq_false_iff.1 hd).1]
  · split
    · next hmark =>
      rcases Bool.or_eq_true_iff.1 hmark with hmark | hmark
      · simpa [hmark] using hword '?' (by decide)
      · simpa [hmark] using hword ':' (by decide)
    · have hnone : ",[]\x7b\x7d#&*!|>'\"%@".toList.contains c = false := by
        apply eq_false_of_ne_true
        intro hmem
        have hsubset : ",[]\x7b\x7d#&*!|>'\"%@".toList ⊆ "#,[]\x7b\x7d&*!|>'\"%@\x60".toList := by
          decide
        have hself := head_of_fitsPlain h c (hsubset (List.contains_iff_mem.1 hmem))
        simp at hself
      have hquote := head_of_fitsPlain h '\x60' (by decide)
      rw [isWhite_of_fitsPlain h, hnone, bne, hquote]
      rfl

/-- A plain scalar is the next token where a text that is printed plainly begins. -/
theorem next_of_fitsPlain (h : FitsPlain (c :: cs)) (hflow : r.inFlow = false)
    (hmark : r.cursor.column = 0 → c ≠ '-' ∧ c ≠ '.') (rest : List Char) :
  r.next c (cs ++ rest) = r.plain
  := by
  have hnot := head_of_fitsPlain h
  have hword := word_of_fitsPlain h rest
  have hdashes : (r.cursor.column == 0 && isMark '-' (c :: (cs ++ rest))) = false := by
    by_cases hcolumn : r.cursor.column = 0
    · rw [isMark_of_ne (hmark hcolumn).1, Bool.and_false]
    · simp [hcolumn]
  have hdots : (r.cursor.column == 0 && isMark '.' (c :: (cs ++ rest))) = false := by
    by_cases hcolumn : r.cursor.column = 0
    · rw [isMark_of_ne (hmark hcolumn).2, Bool.and_false]
    · simp [hcolumn]
  rw [next, hnot '%' (by decide), hdashes, hdots, hnot '[' (by decide), hnot '\x7b' (by decide),
    hnot ']' (by decide), hnot '\x7d' (by decide), hnot ',' (by decide), hflow,
    hword '-' (by decide), Bool.false_or, hword '?' (by decide), hword ':' (by decide),
    hnot '*' (by decide), hnot '&' (by decide), hnot '!' (by decide), hnot '|' (by decide),
    hnot '>' (by decide), hnot '\'' (by decide), hnot '"' (by decide), beginsPlain_of_fits h]
  simp

variable {key : List Char}

/-- A key is read as a plain scalar that is remembered. -/
theorem plain_key (h : FitsPlain key) (hends : endsWord rest = true) :
  plain ⟨⟨key ++ ':' :: rest, line, column⟩, margin, margins, [none], true, tokens⟩
    = some ⟨⟨':' :: rest, line, column + key.length⟩, margin, margins,
        [some ⟨tokens.length, line, column, margin == column + 1⟩], false,
        tokens ++ [.scalar .plain key]⟩
  := by
  have hbreak : ∀ c ∈ key, isBreak c = false := by
    intro c hc
    rw [← (h.printed c hc).breaksLine]
    apply h.noBreak c hc
  have hplace := Cursor.after_of_no_break hbreak ⟨key ++ ':' :: rest, line, column⟩ (':' :: rest)
  simp [plain, saveKey, setKey, forget, inFlow, allowKey, moveTo, emit, h.plainScalar_key hends,
    Cursor.upTo_append, hplace]

/-- The colon behind a remembered key marks it, and begins a mapping if there is none in its column. -/
theorem valueMark_key (hmargin : margin ≤ column + 1) (place : Nat) (isRequired : Bool) (t : Token) :
  valueMark ⟨⟨':' :: rest, line, place⟩, margin, margins,
      [some ⟨tokens.length, line, column, isRequired⟩], false, tokens ++ [t]⟩
    = some ⟨⟨rest, line, place + 1⟩, column + 1, if margin ≤ column then margin :: margins else margins,
        [none], false,
        tokens ++ (if margin ≤ column then [.blockMapping] else []) ++ [.key, t, .value]⟩
  := by
  have hcolon : ∀ c ∈ [':'], isBreak c = false := List.forall_mem_singleton.2 rfl
  have hplace : (⟨':' :: rest, line, place⟩ : Cursor).past 1 = ⟨rest, line, place + 1⟩ :=
    (Cursor.past_append [':'] rest line place).trans (Cursor.after_of_no_break hcolon _ _)
  by_cases hopen : margin ≤ column
  · simp [valueMark, openBlock, inFlow, allowKey, emit, skip, hopen, hplace]
  · obtain rfl : margin = column + 1 := by omega
    simp [valueMark, openBlock, inFlow, allowKey, emit, skip, hopen, hplace]

theorem next_colon (hends : endsWord rest = true) :
  r.next ':' rest = r.valueMark
  := by
  have hword : ∀ mark, mark ≠ ':' → isMark mark (':' :: rest) = false :=
    fun mark hmark => isMark_of_ne hmark.symm rest
  simp [next, hends, hword]

/-- A key with the colon behind it is read in front of its value. -/
theorem Finishes.of_key (h : FitsPlain key) (hne : key ≠ []) (hlength : key.length ≤ 1024)
    (hmark : column = 0 → ∀ c ∈ key.head?, c ≠ '-' ∧ c ≠ '.') (hends : endsWord rest = true)
    (hmargin : margin ≤ column + 1)
    (hvalue : Finishes ⟨⟨rest, line, column + key.length + 1⟩, column + 1,
      if margin ≤ column then margin :: margins else margins, [none], false,
      tokens ++ (if margin ≤ column then [.blockMapping] else [])
        ++ [.key, .scalar .plain key, .value]⟩ result) :
  Finishes ⟨⟨key ++ ':' :: rest, line, column⟩, margin, margins, [none], true, tokens⟩ result
  := by
  have hstart : StartsLine (key ++ ':' :: rest) := startsLine_of_fitsPlain h hne _
  obtain ⟨c, cs, rfl⟩ := List.exists_cons_of_ne_nil hne
  have hcolon : StartsLine (':' :: rest) := by
    rintro d ⟨rfl⟩
    decide
  have hplain := next_of_fitsPlain (r := ⟨⟨c :: cs ++ ':' :: rest, line, column⟩, margin, margins,
    [none], true, tokens⟩) h rfl (fun hcolumn => hmark hcolumn c rfl) (':' :: rest)
  rw [plain_key h hends] at hplain
  apply Finishes.of_next (settle_of_startsLine hstart hmargin) rfl hplain
  · simp only [List.length_append, List.length_cons]
    omega
  have hnear : column + (c :: cs).length ≤ column + 1024 := Nat.add_le_add_left hlength column
  apply Finishes.of_next (settle_of_key (k := ⟨tokens.length, line, column, margin == column + 1⟩) rfl
    hnear (by omega) hcolon) rfl
  · rw [next_colon hends, valueMark_key hmargin]
  · simp
  · apply hvalue

/-! ### Values -/

variable {text : List Char} {style : ScalarStyle}

/-- Where a scalar begins, a possible key is remembered if one may begin there. -/
theorem saveKey_eq (cursor : Cursor) (hrequired : keyAllowed = true → margin ≠ cursor.column + 1) :
  ∃ k, Passed (cursor.line + 1) k
    ∧ saveKey ⟨cursor, margin, margins, [none], keyAllowed, tokens⟩
      = some ⟨cursor, margin, margins, [k], keyAllowed, tokens⟩
  := by
  cases keyAllowed with
  | false => exact ⟨none, ⟨by simp, by simp⟩, rfl⟩
  | true =>
    refine ⟨some ⟨tokens.length, cursor.line, cursor.column, false⟩, ⟨?_, ?_⟩, ?_⟩
    · rintro _ ⟨rfl⟩
      apply Nat.lt_succ_self
    · rintro _ ⟨rfl⟩
      rfl
    · simp [saveKey, setKey, forget, inFlow, hrequired rfl]

/-- A space is passed over in front of a token. -/
theorem Finishes.of_space (hstart : StartsLine more) (hmargin : margin ≤ column + 2)
    (h : Finishes ⟨⟨more, line, column + 1⟩, margin, margins, [none], keyAllowed, tokens⟩ result) :
  Finishes ⟨⟨' ' :: more, line, column⟩, margin, margins, [none], keyAllowed, tokens⟩ result
  := by
  apply Finishes.of_settle _ _ h
  · rw [settle_of_startsLine hstart hmargin]
    exact settle_spaces 1 hstart hmargin
  · simp

/-- What follows a token on a new line is read behind it, whatever key may have begun. -/
theorem Finishes.of_line {k : Option PossibleKey} (hk : Passed line k) (hstart : StartsLine more)
    (h : Finishes ⟨⟨more, line, column⟩, margin, margins, [none], keyAllowed, tokens⟩ result) :
  Finishes ⟨⟨more, line, column⟩, margin, margins, [k], keyAllowed, tokens⟩ result
  := by
  apply Finishes.of_settle (settle_of_passed hk hstart) (Nat.le_refl _) h

/-- The same behind the end of the line. -/
theorem Finishes.of_lineEnd {k : Option PossibleKey} (hk : Passed (line + 1) k) (n : Nat)
    (hstart : StartsLine more)
    (h : ∀ next, Finishes ⟨⟨more, next, n⟩, margin, margins, [none], true, tokens⟩ result) :
  Finishes ⟨⟨'\n' :: (List.replicate n ' ' ++ more), line, column⟩, margin, margins, [k], keyAllowed,
    tokens⟩ result
  := by
  obtain ⟨next, hsettle⟩ := settle_break hk n hstart
  apply Finishes.of_settle hsettle _ (h next)
  simp
  omega

section

variable (hstart : StartsLine more) (hinside : margin ≤ column + 1) (hcolumn : column ≠ 0)
  (hrequired : keyAllowed = true → margin ≠ column + 1)
include hstart hinside hcolumn hrequired

/-- A scalar that is printed plainly is read in front of what follows on the next line. -/
theorem Finishes.of_plain (h : FitsPlain text) (hne : text ≠ []) (hmargin : 0 < margin)
    (hmore : ∀ next, Finishes ⟨⟨more, next, 0⟩, margin, margins, [none], true,
      tokens ++ [.scalar .plain text]⟩ result) :
  Finishes ⟨⟨text ++ '\n' :: more, line, column⟩, margin, margins, [none], keyAllowed, tokens⟩ result
  := by
  have hbegins := startsLine_of_fitsPlain h hne ('\n' :: more)
  obtain ⟨c, cs, rfl⟩ := List.exists_cons_of_ne_nil hne
  let r : Reading :=
    ⟨⟨c :: cs ++ '\n' :: more, line, column⟩, margin, margins, [none], keyAllowed, tokens⟩
  obtain ⟨k, hk, hsave⟩ : ∃ k, Passed (line + 1) k ∧ r.saveKey = some { r with keys := [k] } :=
    saveKey_eq r.cursor hrequired
  obtain ⟨next, hnext, hplace⟩ := Cursor.upTo_of_break (rfl : isBreak '\n' = true) (c :: cs) more line
    column
  have hread : r.next c (cs ++ '\n' :: more)
      = some ⟨⟨more, next, 0⟩, margin, margins, [k], true, tokens ++ [.scalar .plain (c :: cs)]⟩ := by
    have hscalar : plainScalar false margin (c :: cs ++ '\n' :: more) = some (c :: cs, true, more) :=
      h.plainScalar_line hstart hmargin
    have hflow : inFlow { r with keys := [k] } = false := rfl
    rw [next_of_fitsPlain h rfl (fun hzero => absurd hzero hcolumn), plain, hsave,
      Option.bind_eq_bind, Option.bind_some, hflow, hscalar]
    simpa [r, allowKey, moveTo, emit] using hplace
  apply Finishes.of_next (settle_of_startsLine hbegins hinside) rfl hread
  · simp only [List.length_append, List.length_cons]
    omega
  · apply Finishes.of_line (hk.mono hnext) hstart (hmore next)

/-- A scalar between quotes is read up to the end of its line, and then what follows. -/
theorem Finishes.of_property (read : List Char → Option (Token × List Char)) {token : Token}
    {quote : Char} {body : List Char}
    (hquote : ∀ r : Reading, r.cursor.column ≠ 0 → r.inFlow = false → ∀ cs,
      r.next quote cs = r.property read)
    (hwhite : isWhite quote = false ∧ quote ≠ '#' ∧ quote ≠ '\ufeff')
    (hread : read (body ++ '\n' :: more) = some (token, '\n' :: more))
    (hmore : ∀ next, Finishes ⟨⟨more, next, 0⟩, margin, margins, [none], true, tokens ++ [token]⟩
      result) :
  Finishes ⟨⟨quote :: (body ++ '\n' :: more), line, column⟩, margin, margins, [none], keyAllowed,
    tokens⟩ result
  := by
  have hbegins : StartsLine (quote :: (body ++ '\n' :: more)) := by
    rintro c ⟨rfl⟩
    apply hwhite
  let r : Reading :=
    ⟨⟨quote :: (body ++ '\n' :: more), line, column⟩, margin, margins, [none], keyAllowed, tokens⟩
  obtain ⟨k, hk, hsave⟩ : ∃ k, Passed (line + 1) k ∧ r.saveKey = some { r with keys := [k] } :=
    saveKey_eq r.cursor hrequired
  obtain ⟨next, column', hnext, hplace⟩ := Cursor.exists_after r.cursor (quote :: body) ('\n' :: more)
  have hup : r.cursor.upTo ('\n' :: more) = ⟨'\n' :: more, next, column'⟩ :=
    (Cursor.upTo_append (quote :: body) ('\n' :: more) line column).trans hplace
  have hnextToken : r.next quote (body ++ '\n' :: more)
      = some ⟨⟨'\n' :: more, next, column'⟩, margin, margins, [k], false, tokens ++ [token]⟩ := by
    rw [hquote r hcolumn rfl, property, hsave, Option.bind_eq_bind, Option.bind_some]
    simpa [r, hread, allowKey, moveTo, emit] using hup
  apply Finishes.of_next (settle_of_startsLine hbegins hinside) rfl hnextToken
  · simp only [List.length_append, List.length_cons]
    omega
  · have hpassed : Passed (next + 1) k := hk.mono (Nat.succ_le_succ hnext)
    exact Finishes.of_lineEnd hpassed 0 hstart hmore

theorem Finishes.of_single (hfits : fitsSingle text = true) (hfeed : '\n' ∉ text)
    (hmore : ∀ next, Finishes ⟨⟨more, next, 0⟩, margin, margins, [none], true,
      tokens ++ [.scalar .singleQuoted text]⟩ result) :
  Finishes ⟨⟨printSingle text ++ '\n' :: more, line, column⟩, margin, margins, [none], keyAllowed,
    tokens⟩ result
  := by
  rw [printSingle_eq]
  apply Finishes.of_property hstart hinside hcolumn hrequired
    (fun text => (singleQuoted [] text).map fun p => (.scalar .singleQuoted p.1, p.2))
    _ (by decide) _ hmore
  · intro r hcolumn hflow cs
    simp [next, hcolumn, hflow]
  · rw [singleQuoted_singleBody hfits hfeed (by simp)]
    rfl

theorem Finishes.of_double
    (hmore : ∀ next, Finishes ⟨⟨more, next, 0⟩, margin, margins, [none], true,
      tokens ++ [.scalar .doubleQuoted text]⟩ result) :
  Finishes ⟨⟨printDouble text ++ '\n' :: more, line, column⟩, margin, margins, [none], keyAllowed,
    tokens⟩ result
  := by
  have hread : doubleQuoted Gap.none (text.flatMap printDoubleChar ++ '"' :: '\n' :: more)
      = some (text, '\n' :: more) :=
    doubleQuoted_of_spaces (by simp) text ('\n' :: more)
  apply Finishes.of_property hstart hinside hcolumn hrequired
    (fun text => (doubleQuoted Gap.none text).map fun p => (.scalar .doubleQuoted p.1, p.2))
    _ (by decide) _ hmore
  · intro r hcolumn hflow cs
    simp [next, hcolumn, hflow]
  · rw [List.append_assoc, List.singleton_append, hread]
    rfl

omit hrequired in
/-- A scalar that is printed line by line is read in front of what follows it. -/
theorem Finishes.of_literal (hmargin : margin = 1) (hfits : fitsLiteral text = true)
    (hne : text ≠ [])
    (hmore : ∀ next, Finishes ⟨⟨more, next, 0⟩, margin, margins, [none], true,
      tokens ++ [.scalar .literal text]⟩ result) :
  Finishes ⟨⟨printLiteral text ++ more, line, column⟩, margin, margins, [none], keyAllowed,
    tokens⟩ result
  := by
  subst hmargin
  have hblock := blockScalar_literalBody hfits hne hstart
  rw [printLiteral_eq]
  have hbegins : StartsLine ('|' :: (literalBody text ++ more)) := by
    rintro c ⟨rfl⟩
    decide
  obtain ⟨front, b, hbody, hb⟩ : ∃ front b, literalBody text = front ++ [b] ∧ isBreak b = true := by
    simp only [fitsLiteral, Bool.and_eq_true, Bool.not_eq_true', needsEscapes_eq_false_iff] at hfits
    apply exists_literalBody hfits.1.printed
  obtain ⟨next, hnext, hplace⟩ := Cursor.upTo_of_break hb ('|' :: front) more line column
  let r : Reading :=
    ⟨⟨'|' :: (literalBody text ++ more), line, column⟩, 1, margins, [none], keyAllowed, tokens⟩
  have hread : r.next '|' (literalBody text ++ more)
      = some ⟨⟨more, next, 0⟩, 1, margins, [none], true, tokens ++ [.scalar .literal text]⟩ := by
    have hliteral : r.next '|' (literalBody text ++ more) = r.block .literal := by
      simp [Reading.next, r, hcolumn, inFlow]
    have hkey : r.setKey none = some r := rfl
    have hfolded : (ScalarStyle.literal == ScalarStyle.folded) = false := rfl
    have hup : r.cursor.upTo more = ⟨more, next, 0⟩ := by simpa [r, hbody] using hplace
    rw [hliteral, block, hkey, Option.bind_eq_bind, Option.bind_some, hfolded]
    simpa [r, hblock, allowKey, moveTo, emit] using hup
  apply Finishes.of_next (settle_of_startsLine hbegins hinside) rfl hread
  · simp only [List.length_append, List.length_cons]
    omega
  · apply hmore next

/-- A scalar is read from what is printed for it, in front of what follows. -/
theorem Finishes.of_scalar (hmargin : margin = 1 ∨ (0 < margin ∧ '\n' ∉ text))
    (hmore : ∀ next, Finishes ⟨⟨more, next, 0⟩, margin, margins, [none], true,
      tokens ++ [.scalar (scalarStyle text) text]⟩ result) :
  Finishes ⟨⟨printScalar text ++ more, line, column⟩, margin, margins, [none], keyAllowed, tokens⟩
    result
  := by
  have hpositive : 0 < margin := by
    rcases hmargin with rfl | ⟨h, -⟩
    · decide
    · apply h
  have hwritten := written text
  generalize scalarStyle text = style at hwritten hmore
  generalize printScalar text = printed at hwritten
  cases hwritten with
  | plain h hambiguous =>
    rw [List.append_assoc]
    apply Finishes.of_plain hstart hinside hcolumn hrequired h (ne_nil_of_isAmbiguous hambiguous)
      hpositive hmore
  | single h hfeed =>
    rw [List.append_assoc]
    apply Finishes.of_single hstart hinside hcolumn hrequired h hfeed hmore
  | literal h hfeed =>
    have hone : margin = 1 := hmargin.resolve_right fun hnone => hnone.2 hfeed
    apply Finishes.of_literal hstart hinside hcolumn hone h (List.ne_nil_of_mem hfeed) hmore
  | double =>
    rw [List.append_assoc]
    apply Finishes.of_double hstart hinside hcolumn hrequired hmore

end

end Reading

end PluginHost.Yaml

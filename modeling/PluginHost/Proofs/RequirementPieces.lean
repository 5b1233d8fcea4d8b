import PluginHost.Proofs.RequirementText

/-!
# Requirements in pieces

No comparator goes on behind a comma: the readers that leave a comma (`LeavesComma`) read what is in
front of it as they would read that alone.  So if texts with commas between them are read as a
requirement, then each of them is read as one, and the comparators of the whole are those of the texts
in order (`Requirement.exists_pieces`).
-/

namespace PluginHost.Version

/-! ### Readers in front of a comma -/

variable {α β : Type} {part : Part} {front : List Char}

/-- Whether a reader leaves a comma behind a text: what it reads with the comma, and whatever follows
that, it reads from the text alone. -/
def LeavesComma (reader : List Char → Except ReadError (α × List Char)) (front : List Char) : Prop :=
  ∀ back a rest, reader (front ++ ',' :: back) = .ok (a, rest) →
    ∃ left, rest = left ++ ',' :: back ∧ reader front = .ok (a, left)

/-- A reader that reads nothing leaves a comma. -/
theorem leavesComma_pure (a : α) (front : List Char) :
  LeavesComma (fun cs => .ok (a, cs)) front
  := by
  rintro back _ _ ⟨⟩
  exact ⟨front, rfl, rfl⟩

theorem leavesComma_error (e : ReadError) (front : List Char) :
  LeavesComma (fun _ => (.error e : Except ReadError (α × List Char))) front
  := by
  rintro back _ _ ⟨⟩

/-- One reader after another leaves a comma, if the first does and the second does behind whatever the
first has left. -/
theorem leavesComma_bind {reader : List Char → Except ReadError (α × List Char)}
    {next : α × List Char → Except ReadError (β × List Char)} (hreader : LeavesComma reader front)
    (hnext : ∀ a left, LeavesComma (fun cs => next (a, cs)) left) :
  LeavesComma (fun cs => reader cs >>= next) front
  := by
  intro back b rest h
  dsimp only at h ⊢
  cases hfirst : reader (front ++ ',' :: back) with
  | error e =>
    rw [hfirst] at h
    cases h
  | ok first =>
    obtain ⟨a, middle⟩ := first
    rw [hfirst] at h
    obtain ⟨left, rfl, hleft⟩ := hreader _ _ _ hfirst
    obtain ⟨last, rfl, hlast⟩ := hnext a left _ _ _ h
    use last, rfl
    rw [hleft]
    apply hlast

/-- A number that is continued behind a character. -/
theorem continueNumber_cons (part : Part) (seen : Option Nat) (c : Char) (cs : List Char) :
  continueNumber part seen (c :: cs)
    = match Text.digitValue? 10 c, seen with
      | none, none => .error (.unexpectedIn part c)
      | none, some n => .ok (n, c :: cs)
      | some d, none => continueNumber part (some d) cs
      | some d, some n =>
        if n = 0 then .error (.leadingZero part)
        else if n * 10 + d < numberEnd then continueNumber part (some (n * 10 + d)) cs
        else .error (.tooLarge part)
  := by
  rw [continueNumber.eq_def]
  cases seen <;> rfl

/-! ### Numbers and identifiers -/

theorem leavesComma_continueNumber (part : Part) (seen : Option Nat) (front : List Char) :
  LeavesComma (continueNumber part seen) front
  := by
  induction front generalizing seen with
  | nil =>
    intro back n rest h
    have hcomma : Text.digitValue? 10 ',' = none := by decide
    rw [List.nil_append, continueNumber_cons, hcomma] at h
    cases seen with
    | none => cases h
    | some k =>
      cases h
      exact ⟨[], rfl, rfl⟩
  | cons c front ih =>
    intro back n rest h
    rw [List.cons_append, continueNumber_cons] at h
    rw [continueNumber_cons]
    cases hdigit : Text.digitValue? 10 c with
    | none =>
      rw [hdigit] at h
      cases seen with
      | none => cases h
      | some k =>
        cases h
        exact ⟨c :: front, rfl, rfl⟩
    | some d =>
      rw [hdigit] at h
      cases seen with
      | none => apply ih _ _ _ _ h
      | some k =>
        dsimp only at h ⊢
        split at h
        · cases h
        · split at h
          · next hzero hend =>
            rw [if_neg hzero, if_pos hend]
            apply ih _ _ _ _ h
          · cases h

theorem leavesComma_readNumber (part : Part) (front : List Char) :
  LeavesComma (readNumber part) front
  := leavesComma_continueNumber part none front

/-- The identifiers behind one that has been read, if a point follows it. -/
def behindSegment (part : Part) (identifier : Identifier) :
    List Char → Except ReadError (List Identifier × List Char)
  | '.' :: more => do
    let (identifiers, rest) ← readSegments part false more
    return (identifier :: identifiers, rest)
  | rest => .ok ([identifier], rest)

/-- Identifiers are read one after the other. -/
theorem readSegments_eq (part : Part) (first : Bool) (cs : List Char) :
  readSegments part first cs
    = let segment := cs.takeWhile isIdentifierChar
      if segment.isEmpty then
        if first && cs.head? != some '.' then .ok ([], cs) else .error (.emptySegment part)
      else if part = .prerelease ∧ segment.all Text.isDigit ∧ 1 < segment.length
          ∧ segment.head? = some '0' then .error (.leadingZero part)
      else behindSegment part (identifierOf segment) (cs.dropWhile isIdentifierChar)
  := by
  rw [readSegments]
  dsimp only
  split
  · rfl
  · split
    · rfl
    · split
      · next hmore =>
        rw [hmore]
        rfl
      · next hrest =>
        rw [behindSegment]
        apply hrest

theorem leavesComma_readSegments (part : Part) (first : Bool) (front : List Char) :
  LeavesComma (readSegments part first) front
  := by
  induction hlength : front.length using Nat.strong_induction_on generalizing front first with
  | _ length ih =>
    intro back identifiers rest h
    have hcomma : ∀ c ∈ (',' :: back).head?, isIdentifierChar c = false := by
      rintro c ⟨⟩
      decide
    have hhead : (first && (front ++ ',' :: back).head? != some '.')
        = (first && front.head? != some '.') := by
      cases front <;> rfl
    rw [readSegments_eq] at h ⊢
    rw [Text.takeWhile_front hcomma, Text.dropWhile_front hcomma, hhead] at h
    dsimp only at h ⊢
    split at h
    · next hempty =>
      rw [if_pos hempty]
      split at h
      · next hnone =>
        cases h
        rw [if_pos hnone]
        exact ⟨front, rfl, rfl⟩
      · cases h
    · next hsegment =>
      rw [if_neg hsegment]
      split at h
      · cases h
      · next hzero =>
        rw [if_neg hzero]
        -- what follows the first segment is shorter, so that the rest is read as supposed
        cases hdrop : front.dropWhile isIdentifierChar with
        | nil =>
          rw [hdrop] at h
          cases h
          exact ⟨[], rfl, rfl⟩
        | cons c more =>
          rw [hdrop] at h
          by_cases hc : c = '.'
          · subst hc
            have hshort : more.length < length := hlength ▸ length_afterSegment_lt hdrop
            apply leavesComma_bind (ih _ hshort false more rfl) _ _ _ _ h
            intro others left
            apply leavesComma_pure
          · have hplain : ∀ cs, behindSegment part (identifierOf (front.takeWhile isIdentifierChar))
                (c :: cs) = .ok ([identifierOf (front.takeWhile isIdentifierChar)], c :: cs) := by
              intro cs
              rw [behindSegment]
              rintro others ⟨⟩
              apply hc rfl
            rw [List.cons_append, hplain] at h
            rw [hplain]
            cases h
            exact ⟨c :: more, rfl, rfl⟩

theorem leavesComma_readMarked {mark : Char} (hmark : mark ≠ ',') (part : Part)
    (front : List Char) :
  LeavesComma (readMarked mark part) front
  := by
  intro back identifiers rest h
  cases front with
  | nil =>
    rw [List.nil_append, readMarked, if_neg hmark.symm] at h
    cases h
    exact ⟨[], rfl, rfl⟩
  | cons c front =>
    rw [List.cons_append, readMarked] at h
    rw [readMarked]
    split at h
    · next hc =>
      rw [if_pos hc]
      apply leavesComma_bind (leavesComma_readSegments part true front) _ _ _ _ h
      intro identifiers left
      dsimp only
      split
      · apply leavesComma_error
      · apply leavesComma_pure
    · next hc =>
      rw [if_neg hc]
      cases h
      exact ⟨c :: front, rfl, rfl⟩

namespace Requirement

/-! ### Comparators -/

theorem skipSpaces_comma (front back : List Char) :
  skipSpaces (front ++ ',' :: back) = skipSpaces front ++ ',' :: back
  := by
  apply Text.dropWhile_front
  rintro c ⟨⟩
  decide

/-- The operator in front of a text is written before the first comma. -/
theorem readOperator_comma (front back : List Char) :
  readOperator (front ++ ',' :: back)
    = ((readOperator front).1, (readOperator front).2 ++ ',' :: back)
  := by
  fun_cases readOperator front
  case case3 rest hrest =>
    cases rest with
    | nil => rfl
    | cons d rest =>
      have hd : d ≠ '=' := by
        rintro rfl
        apply hrest rest rfl
      simp [readOperator, hd]
  case case5 rest hrest =>
    cases rest with
    | nil => rfl
    | cons d rest =>
      have hd : d ≠ '=' := by
        rintro rfl
        apply hrest rest rfl
      simp [readOperator, hd]
  case case8 hexact _ hgreater _ hless htilde hcaret =>
    cases front with
    | nil => rfl
    | cons c front =>
      have hnone : ∀ d ∈ ['=', '>', '<', '~', '^'], c ≠ d := by
        simp only [List.forall_mem_cons]
        refine ⟨?_, ?_, ?_, ?_, ?_, by simp⟩ <;> rintro rfl
        · apply hexact front rfl
        · apply hgreater front rfl
        · apply hless front rfl
        · apply htilde front rfl
        · apply hcaret front rfl
      simp only [List.forall_mem_cons] at hnone
      obtain ⟨h1, h2, h3, h4, h5, -⟩ := hnone
      simp [readOperator, h1, h2, h3, h4, h5]
  all_goals rfl

theorem readWildcard_comma (front back : List Char) :
  readWildcard (front ++ ',' :: back)
    = (readWildcard front).map fun (c, rest) => (c, rest ++ ',' :: back)
  := by
  cases front with
  | nil => rfl
  | cons c front =>
    rw [List.cons_append, readWildcard, readWildcard]
    split <;> rfl

theorem leavesComma_readPlace (part : Part) (afterWild : Bool) (front : List Char) :
  LeavesComma (readPlace part afterWild) front
  := by
  intro back place rest h
  cases front with
  | nil =>
    cases h
    exact ⟨[], rfl, rfl⟩
  | cons c front =>
    by_cases hc : c = '.'
    · subst hc
      rw [List.cons_append, readPlace, readWildcard_comma] at h
      rw [readPlace]
      cases hwild : readWildcard front with
      | some found =>
        rw [hwild] at h
        cases h
        exact ⟨found.2, rfl, rfl⟩
      | none =>
        rw [hwild] at h
        dsimp only [Option.map_none] at h ⊢
        split at h
        · cases h
        · next hafter =>
          rw [if_neg hafter]
          apply leavesComma_bind (leavesComma_readNumber part front) _ _ _ _ h
          intro n left
          apply leavesComma_pure (Place.number n) left
    · have hplain : ∀ cs, readPlace part afterWild (c :: cs) = .ok (.missing, c :: cs) := by
        intro cs
        rw [readPlace]
        rintro others ⟨⟩
        apply hc rfl
      rw [List.cons_append, hplain] at h
      rw [hplain]
      cases h
      exact ⟨c :: front, rfl, rfl⟩

/-- The prerelease and the build metadata behind three numbers. -/
def readMarks (full : Bool) (cs : List Char) :
    Except ReadError ((List Identifier × List Identifier) × List Char) :=
  if full then
    readMarked '-' .prerelease cs >>= fun (prerelease, cs) =>
      readMarked '+' .build cs >>= fun (build, cs) => .ok ((prerelease, build), cs)
  else .ok (([], []), cs)

/-- A comparator and the last part that it has, behind the operator. -/
def readParts (operator : Option Operator) (cs : List Char) :
    Except ReadError ((Comparator × Part) × List Char) :=
  readNumber .major cs >>= fun (major, cs) =>
    readPlace .minor false cs >>= fun (minor, cs) =>
      readPlace .patch (minor == .wild) cs >>= fun (patch, cs) =>
        readMarks patch.number?.isSome cs >>= fun (marks, cs) =>
          let operator := operator.getD
            (if minor == .wild || patch == .wild then .wildcard else .caret)
          let last :=
            if patch.number?.isSome then lastPart marks.1 marks.2
            else if patch ≠ .missing then .patch
            else if minor ≠ .missing then .minor
            else .major
          .ok ((⟨operator, major, minor.number?, patch.number?, marks.1⟩, last), skipSpaces cs)

theorem readComparator_eq (cs : List Char) :
  readComparator cs
    = (readParts (readOperator cs).1 (skipSpaces (readOperator cs).2)).map
      fun ((comparator, part), rest) => (comparator, part, rest)
  := by
  rw [readComparator, readParts]
  simp only [bind, Except.bind, pure, Except.pure]
  cases readNumber .major (skipSpaces (readOperator cs).2) with
  | error e => rfl
  | ok major =>
    dsimp only
    cases readPlace .minor false major.2 with
    | error e => rfl
    | ok minor =>
      dsimp only
      cases readPlace .patch (minor.1 == .wild) minor.2 with
      | error e => rfl
      | ok patch =>
        dsimp only [readMarks]
        cases patch.1.number?.isSome with
        | false => rfl
        | true =>
          simp only [if_true, bind, Except.bind]
          cases readMarked '-' .prerelease patch.2 with
          | error e => rfl
          | ok prerelease =>
            dsimp only
            cases readMarked '+' .build prerelease.2 with
            | error e => rfl
            | ok build => rfl

theorem leavesComma_readMarks (full : Bool) (front : List Char) :
  LeavesComma (readMarks full) front
  := by
  cases full with
  | false => apply leavesComma_pure
  | true =>
    apply leavesComma_bind (leavesComma_readMarked (by decide) _ _)
    intro prerelease left
    apply leavesComma_bind (leavesComma_readMarked (by decide) _ _)
    intro build left
    apply leavesComma_pure

/-- A comparator is written before the first comma. -/
theorem leavesComma_readParts (operator : Option Operator) (front : List Char) :
  LeavesComma (readParts operator) front
  := by
  apply leavesComma_bind (leavesComma_readNumber _ _)
  intro major left
  apply leavesComma_bind (leavesComma_readPlace _ _ _)
  intro minor left
  apply leavesComma_bind (leavesComma_readPlace _ _ _)
  intro patch left
  apply leavesComma_bind (leavesComma_readMarks _ _)
  rintro marks left back _ _ h
  dsimp only at h
  rw [skipSpaces_comma] at h
  cases h
  exact ⟨skipSpaces left, rfl, rfl⟩

/-- A comparator that is read in front of a comma is read from the text in front of that. -/
theorem readComparator_comma {front back rest : List Char} {comparator : Comparator} {part : Part}
    (h : readComparator (front ++ ',' :: back) = .ok (comparator, part, rest)) :
  ∃ left, rest = left ++ ',' :: back ∧ readComparator front = .ok (comparator, part, left)
  := by
  rw [readComparator_eq, readOperator_comma, skipSpaces_comma] at h
  dsimp only at h
  cases hread : readParts (readOperator front).1
      (skipSpaces (readOperator front).2 ++ ',' :: back) with
  | error e =>
    rw [hread] at h
    cases h
  | ok read =>
    rw [hread] at h
    cases h
    obtain ⟨left, hrest, hleft⟩ := leavesComma_readParts _ _ _ _ _ hread
    use left, hrest
    rw [readComparator_eq, hleft]
    rfl

/-! ### Several comparators -/

theorem readComparators_last {n : Nat} {cs : List Char} {comparator : Comparator} {part : Part}
    (h : readComparator cs = .ok (comparator, part, [])) :
  readComparators (n + 1) cs = .ok [comparator]
  := by
  rw [readComparators, h]

theorem readComparators_more {n : Nat} {cs rest : List Char} {comparator : Comparator} {part : Part}
    {others : List Comparator} (h : readComparator cs = .ok (comparator, part, ',' :: rest))
    (hothers : readComparators n (skipSpaces rest) = .ok others) :
  readComparators (n + 1) cs = .ok (comparator :: others)
  := by
  rw [readComparators, h]
  simp only [hothers]
  rfl

/-- Comparators that are read are a single one, or one with a comma behind it and others. -/
theorem cases_readComparators {n : Nat} {cs : List Char} {comparators : List Comparator}
    (h : readComparators n cs = .ok comparators) :
  ∃ m comparator part rest, n = m + 1 ∧ readComparator cs = .ok (comparator, part, rest)
    ∧ (rest = [] ∧ comparators = [comparator]
      ∨ ∃ more others, rest = ',' :: more ∧ readComparators m (skipSpaces more) = .ok others
        ∧ comparators = comparator :: others)
  := by
  cases n with
  | zero => cases h
  | succ m =>
    rw [readComparators] at h
    cases hread : readComparator cs with
    | error e =>
      rw [hread] at h
      cases h
    | ok read =>
      obtain ⟨comparator, part, rest⟩ := read
      rw [hread] at h
      use m, comparator, part, rest, rfl, rfl
      rcases rest with _ | ⟨c, more⟩
      · cases h
        exact .inl ⟨rfl, rfl⟩
      · by_cases hc : c = ','
        · subst hc
          right
          cases hothers : readComparators m (skipSpaces more) with
          | error e =>
            simp only [hothers] at h
            cases h
          | ok others =>
            simp only [hothers] at h
            cases h
            exact ⟨more, others, rfl, hothers, rfl⟩
        · simp at h

/-- What is read with a limit on the number of comparators is read with a greater one. -/
theorem readComparators_mono {n k : Nat} (hle : n ≤ k) {cs : List Char}
    {comparators : List Comparator} (h : readComparators n cs = .ok comparators) :
  readComparators k cs = .ok comparators
  := by
  induction n generalizing k cs comparators with
  | zero => cases h
  | succ n ih =>
    cases k with
    | zero => cases hle
    | succ k =>
      obtain ⟨m, comparator, part, rest, ⟨⟩, hread, hrest⟩ := cases_readComparators h
      obtain ⟨rfl, rfl⟩ | ⟨more, others, rfl, hothers, rfl⟩ := hrest
      · apply readComparators_last hread
      · apply readComparators_more hread (ih (Nat.le_of_succ_le_succ hle) hothers)

/-- What is read as comparators with a comma between two texts is read from each of them. -/
theorem readComparators_comma {n : Nat} {front back : List Char} {comparators : List Comparator}
    (h : readComparators n (front ++ ',' :: back) = .ok comparators) :
  ∃ first others, comparators = first ++ others ∧ readComparators n front = .ok first
    ∧ readComparators n (skipSpaces back) = .ok others
  := by
  induction n generalizing front comparators with
  | zero => cases h
  | succ n ih =>
    obtain ⟨m, comparator, part, rest, ⟨⟩, hread, hrest⟩ := cases_readComparators h
    obtain ⟨left, rfl, hleft⟩ := readComparator_comma hread
    obtain ⟨hnil, -⟩ | ⟨more, behind, hmore, hbehind, rfl⟩ := hrest
    · cases (List.append_eq_nil_iff.1 hnil).2
    · -- the comma behind the first comparator is the given one, or one in front of it
      cases left with
      | nil =>
        cases hmore
        exact ⟨[comparator], behind, rfl, readComparators_last hleft,
          readComparators_mono (Nat.le_succ n) hbehind⟩
      | cons c left =>
        cases hmore
        change readComparators n (skipSpaces (left ++ ',' :: back)) = .ok behind at hbehind
        rw [skipSpaces_comma] at hbehind
        obtain ⟨first, others, rfl, hfirst, hothers⟩ := ih hbehind
        exact ⟨comparator :: first, others, rfl, readComparators_more hleft hfirst,
          readComparators_mono (Nat.le_succ n) hothers⟩

/-- Comparators do not begin with a wildcard. -/
theorem readWildcard_of_readComparators {n : Nat} {cs : List Char} {comparators : List Comparator}
    (h : readComparators n cs = .ok comparators) :
  readWildcard cs = none
  := by
  obtain ⟨m, comparator, part, rest, -, hread, -⟩ := cases_readComparators h
  cases cs with
  | nil => rfl
  | cons c cs =>
    rw [readWildcard, if_neg]
    rintro (rfl | rfl | rfl) <;> cases hread

theorem intercalate_comma (text other : List Char) (more : List (List Char)) :
  comma.intercalate (text :: other :: more)
    = text ++ ',' :: ' ' :: comma.intercalate (other :: more)
  := by
  simp [comma]

/-- Comparators that are read from joined texts are read from each of them in order. -/
theorem exists_parts {n : Nat} {texts : List (List Char)} (hne : texts ≠ [])
    {comparators : List Comparator}
    (h : readComparators n (skipSpaces (comma.intercalate texts)) = .ok comparators) :
  ∃ parts, List.Forall₂ (fun text part => readComparators n (skipSpaces text) = .ok part) texts parts
    ∧ comparators = parts.flatten
  := by
  induction texts generalizing comparators with
  | nil => cases hne rfl
  | cons text others ih =>
    cases others with
    | nil =>
      rw [List.intercalate_singleton] at h
      use [comparators], .cons h .nil
      simp
    | cons other more =>
      rw [intercalate_comma, skipSpaces_comma] at h
      obtain ⟨first, behind, rfl, hfirst, hbehind⟩ := readComparators_comma h
      obtain ⟨parts, hparts, rfl⟩ := ih (List.cons_ne_nil _ _) hbehind
      exact ⟨first :: parts, .cons hfirst hparts, rfl⟩

/-- A requirement that is read is a wildcard, or it consists of comparators. -/
theorem cases_read {cs : List Char} {requirement : Requirement} (h : read cs = .ok requirement) :
  (∃ c rest, readWildcard (skipSpaces cs) = some (c, rest) ∧ skipSpaces rest = []
      ∧ requirement = any)
    ∨ readComparators maxComparators (skipSpaces cs) = .ok requirement.comparators
  := by
  unfold read at h
  cases hwild : readWildcard (skipSpaces cs) with
  | some found =>
    left
    obtain ⟨c, rest⟩ := found
    simp only [hwild] at h
    split at h
    · next hrest =>
      cases h
      exact ⟨c, rest, rfl, hrest, rfl⟩
    · cases h
    · cases h
  | none =>
    right
    simp only [hwild] at h
    cases hread : readComparators maxComparators (skipSpaces cs) with
    | error e =>
      rw [hread] at h
      cases h
    | ok comparators =>
      rw [hread] at h
      cases h
      rfl

/-- What comparators are read from is a requirement. -/
theorem read_of_readComparators {cs : List Char} {comparators : List Comparator}
    (h : readComparators maxComparators (skipSpaces cs) = .ok comparators) :
  read cs = .ok ⟨comparators⟩
  := by
  unfold read
  simp only [readWildcard_of_readComparators h, h]
  rfl

/-- Texts that are read as a requirement with commas between them are read as requirements, whose
comparators are those of the whole. -/
theorem exists_pieces {texts : List (List Char)} (hne : texts ≠ []) {requirement : Requirement}
    (h : read (comma.intercalate texts) = .ok requirement) :
  ∃ parts, List.Forall₂ (fun text part => read text = .ok ⟨part⟩) texts parts
    ∧ requirement.comparators = parts.flatten
  := by
  obtain ⟨c, rest, hwild, hrest, -⟩ | hcomparators := cases_read h
  · match texts, hne with
    | [text], _ =>
      rw [List.intercalate_singleton] at h
      use [requirement.comparators], .cons h .nil
      simp
    | text :: other :: more, _ =>
      -- a wildcard in front of the comma would not stand alone
      rw [intercalate_comma, skipSpaces_comma, readWildcard_comma, Option.map_eq_some_iff] at hwild
      obtain ⟨found, -, hfound⟩ := hwild
      cases hfound
      rw [skipSpaces_comma] at hrest
      cases (List.append_eq_nil_iff.1 hrest).2
  · obtain ⟨parts, hparts, hflatten⟩ := exists_parts hne hcomparators
    use parts, hparts.imp fun text part htext => read_of_readComparators htext

end Requirement

end PluginHost.Version

import PluginHost.PackageManager.Npm
import PluginHost.Proofs.PackageNames

/-!
# The version that an update reports

A package manager that has updated a package says so in a line of its output, which need not be the
only one of that form.  `ReportsVersion` says what such a line looks like, and the version of an update
is that of the first one that is about the package (`Npm.update_reports_the_package`).  The name of
a package ends at the at sign behind its first character, so a line about another package reports
nothing for this one, wherever it stands (`SameButOthers`).
-/

namespace PluginHost

/-! ### Lines of output -/

/-- Whether a line of output reports a version of a package: between blanks there is a plus sign, the
name of the package and an at sign, and what follows is not blank. -/
def ReportsVersion (package line version : List Char) : Prop :=
  ∃ rest, Text.trimChars line = ['+', ' '] ++ package ++ '@' :: rest
    ∧ Text.trimChars rest = version ∧ version ≠ []

/-- Whether a version is reported by the first of some lines that reports one of a package. -/
def FirstReported (package : List Char) (lines : List (List Char)) (version : List Char) : Prop :=
  ∃ before line after, lines = before ++ line :: after ∧ ReportsVersion package line version
    ∧ ∀ earlier ∈ before, ∀ other, ¬ ReportsVersion package earlier other

variable {package line version : List Char} {lines lines' : List (List Char)}

theorem versionInLine?_eq_some_iff :
  versionInLine? package line = some version ↔ ReportsVersion package line version
  := by
  rw [versionInLine?, Option.filter_eq_some_iff, Option.map_eq_some_iff]
  simp only [Text.dropStart_eq_some_iff, List.append_assoc, List.singleton_append, bne_iff_ne,
    ReportsVersion]
  constructor
  · rintro ⟨⟨rest, hline, hrest⟩, hne⟩
    exact ⟨rest, hline, hrest, hne⟩
  · rintro ⟨rest, hline, hrest, hne⟩
    exact ⟨⟨rest, hline, hrest⟩, hne⟩

theorem versionInLine?_eq_none_iff :
  versionInLine? package line = none ↔ ∀ version, ¬ ReportsVersion package line version
  := by
  simp only [Option.eq_none_iff_forall_ne_some, ne_eq, versionInLine?_eq_some_iff]

theorem findSome?_versionInLine?_eq_some_iff :
  lines.findSome? (versionInLine? package) = some version ↔ FirstReported package lines version
  := by
  simp only [List.findSome?_eq_some_iff, versionInLine?_eq_some_iff, versionInLine?_eq_none_iff]
  rfl

/-! ### Other packages -/

/-- Whether a line of output is about another package than the one of a name: between blanks there
is a plus sign, the name of the other package and an at sign. -/
def AboutOther (name : PackageName) (line : List Char) : Prop :=
  ∃ (other : PackageName) (rest : List Char), other.chars ≠ name.chars
    ∧ Text.trimChars line = ['+', ' '] ++ other.chars ++ '@' :: rest

/-- Whether lines of output are the same, but for those that are about other packages than the one
of a name. -/
inductive SameButOthers (name : PackageName) : List (List Char) → List (List Char) → Prop
  | nil : SameButOthers name [] []
  | same {lines lines' : List (List Char)} (line : List Char) (h : SameButOthers name lines lines') :
    SameButOthers name (line :: lines) (line :: lines')
  | left {lines lines' : List (List Char)} {line : List Char} (hline : AboutOther name line)
    (h : SameButOthers name lines lines') : SameButOthers name (line :: lines) lines'
  | right {lines lines' : List (List Char)} {line : List Char} (hline : AboutOther name line)
    (h : SameButOthers name lines lines') : SameButOthers name lines (line :: lines')

/-- Two names that are followed by an at sign in one text are the same. -/
theorem PackageName.chars_inj_of_append {name other : PackageName} {rest rest' : List Char}
    (h : other.chars ++ '@' :: rest = name.chars ++ '@' :: rest') :
  other.chars = name.chars
  := by
  have hsplit : ∀ (p : PackageName) (rest : List Char),
      Locator.splitVersion (p.chars ++ '@' :: rest) = (p.chars, some rest) := fun p rest =>
    (Locator.splitVersion_eq_iff p.chars_ne_nil).2 ⟨p.at_not_mem_tail, rfl⟩
  have hname := hsplit name rest'
  rw [← h, hsplit other rest] at hname
  apply congrArg Prod.fst hname

/-- A line about another package reports no version of this one. -/
theorem versionInLine?_of_aboutOther {name : PackageName} (h : AboutOther name line) :
  versionInLine? name.chars line = none
  := by
  obtain ⟨other, rest, hne, hline⟩ := h
  rw [versionInLine?_eq_none_iff]
  rintro version ⟨rest', hline', -⟩
  rw [hline', List.append_assoc, List.append_assoc, List.append_cancel_left_eq] at hline
  apply hne (PackageName.chars_inj_of_append hline.symm)

/-- Lines about other packages make no difference to the version that is reported. -/
theorem findSome?_of_sameButOthers {name : PackageName} (h : SameButOthers name lines lines') :
  lines.findSome? (versionInLine? name.chars) = lines'.findSome? (versionInLine? name.chars)
  := by
  induction h with
  | nil => rfl
  | same line h ih => rw [List.findSome?_cons, List.findSome?_cons, ih]
  | left hline h ih => rw [List.findSome?_cons, versionInLine?_of_aboutOther hline, ih]
  | right hline h ih => rw [List.findSome?_cons, versionInLine?_of_aboutOther hline, ih]

/-! ### Updates -/

namespace Npm

/-- Whether a run of the package manager with some arguments ends well on a machine, and the output
and the machine that it leaves. -/
def EndsWell (n : Npm) (arguments : List String) (m : Machine) (output : String) (t : Machine) :
    Prop :=
  ∃ files reply, m.files.makeDirectories n.root = .ok files
    ∧ Machine.run { m with files } n.root n.program arguments = .ok (reply, t)
    ∧ reply.status.isSuccess = true ∧ output = Text.Utf8.ofBytesLossy reply.output

variable {n : Npm} {m t : Machine} {output package registry : String}

/-- A run that ends well gives its output. -/
theorem outcome_run {arguments : List String} (h : n.EndsWell arguments m output t) :
  (n.run arguments).outcome m = (.ok output, t)
  := by
  obtain ⟨files, reply, hfiles, hrun, hstatus, rfl⟩ := h
  rw [run, Attempt.outcome_bind, Attempt.outcome_within, Attempt.onFiles, Attempt.outcome_step,
    hfiles]
  simp only [Except.mapError, Attempt.outcome_bind, Attempt.outcome_get, hrun,
    Attempt.outcome_set, Attempt.outcome_look, outputOf, hstatus, if_true]

/-- An update that ends well gives the version that is reported, and fails with the whole output if
there is none. -/
theorem outcome_update (h : n.EndsWell (n.installArguments package registry) m output t) :
  (n.update package registry).outcome m
    = match reportedVersion? output package with
      | some version => (.ok version, t)
      | none => (.error (.versionNotReported package output), t)
  := by
  rw [update, Attempt.outcome_bind, outcome_run h]
  cases hversion : reportedVersion? output package with
  | none => simp only [hversion, Attempt.outcome_throw]
  | some version => simp only [hversion, Attempt.outcome_pure]

/-- An update that ends well gives a version if and only if that is reported by a line of the output,
and by the first one that reports a version of the package; and it fails if and only if no line
reports one, with the whole output.  Lines about other packages make no difference, whatever lines
are around them: two updates whose outputs are the same but for such lines give the same version, or
none. -/
theorem update_reports_the_package
    (hrun : n.EndsWell (n.installArguments package registry) m output t) :
  (∀ version, (n.update package registry).outcome m = (.ok version, t)
      ↔ FirstReported package.toList (Text.lines output.toList) version.toList)
    ∧ ((n.update package registry).outcome m = (.error (.versionNotReported package output), t)
      ↔ ∀ line ∈ Text.lines output.toList, ∀ version,
        ¬ ReportsVersion package.toList line version)
    ∧ ∀ name : PackageName, name.text = package → ∀ registry' m' output' t',
      n.EndsWell (n.installArguments package registry') m' output' t' →
      SameButOthers name (Text.lines output.toList) (Text.lines output'.toList) →
      ((n.update package registry').outcome m').1.toOption
        = ((n.update package registry).outcome m).1.toOption
  := by
  have htext : ∀ version : String, reportedVersion? output package = some version
      ↔ FirstReported package.toList (Text.lines output.toList) version.toList := by
    intro version
    rw [← findSome?_versionInLine?_eq_some_iff, reportedVersion?, Option.map_eq_some_iff]
    constructor
    · rintro ⟨chars, hchars, rfl⟩
      rwa [String.toList_ofList]
    · intro h
      exact ⟨_, h, String.ofList_toList⟩
  rw [outcome_update hrun]
  refine ⟨?_, ?_, ?_⟩
  · intro version
    rw [← htext]
    cases reportedVersion? output package <;> simp
  · have hnone : reportedVersion? output package = none ↔ ∀ line ∈ Text.lines output.toList,
        ∀ version, ¬ ReportsVersion package.toList line version := by
      simp only [reportedVersion?, Option.map_eq_none_iff, List.findSome?_eq_none_iff,
        versionInLine?_eq_none_iff]
    rw [← hnone]
    cases reportedVersion? output package <;> simp
  · rintro name rfl registry' m' output' t' hrun' hsame
    have hversion : reportedVersion? output' name.text = reportedVersion? output name.text := by
      rw [reportedVersion?, reportedVersion?, PackageName.text, String.toList_ofList,
        findSome?_of_sameButOthers hsame]
    rw [outcome_update hrun', hversion]
    cases reportedVersion? output name.text <;> rfl

/-- A package manager in the root directory. -/
def reportingNpm : Npm := ⟨"/npm", ⟨"/p"⟩⟩

/-- A machine on which one run of that package manager ends well, with an output. -/
def reportingMachine (output : String) : Machine where
  files := ⟨[(["npm"], .file (.text "")), (["p"], .directory)], ⟨"/"⟩, false⟩
  environment := ⟨[]⟩
  manager := ⟨"/npm"⟩
  replies := [⟨[], Text.Utf8.bytesOf output, [], .code 0⟩]
  lastReply := ⟨[], [], [], .code 1⟩
  calls := []

theorem endsWell_reportingMachine (output : String) :
  reportingNpm.EndsWell (reportingNpm.installArguments "data" "r") (reportingMachine output)
    (Text.Utf8.ofBytesLossy (Text.Utf8.bytesOf output))
    { reportingMachine output with
      replies := [], calls := [reportingNpm.installArguments "data" "r"] }
  := by
  have hmade : (reportingMachine output).files.makeDirectories reportingNpm.root
      = .ok (reportingMachine output).files := by
    rfl
  have hstart : (reportingMachine output).startable reportingNpm.root reportingNpm.program
      (reportingNpm.installArguments "data" "r") = .ok () := by
    -- whether a program can be started does not depend on its replies
    change (reportingMachine "").startable _ _ _ = _
    decide +kernel
  use (reportingMachine output).files, ⟨[], Text.Utf8.bytesOf output, [], .code 0⟩, hmade
  refine ⟨?_, rfl, rfl⟩
  rw [Machine.run, hstart]
  rfl

/-- The name of a package without a scope. -/
def dataName : PackageName := ⟨none, "data".toList, by simp, List.all_eq_true.1 (by decide), by decide⟩

/-- A longer name, of which that one is a beginning. -/
def dataExtraName : PackageName :=
  ⟨none, "data-extra".toList, by simp, List.all_eq_true.1 (by decide), by decide⟩

/-- The name with the same segment in a scope. -/
def scopedDataName : PackageName :=
  ⟨some "acme".toList, "data".toList, by rintro _ ⟨rfl⟩; exact List.all_eq_true.1 (by decide),
    List.all_eq_true.1 (by decide), by decide⟩

/-- The output of an update with a blank version, and with a line about a longer name. -/
def longerOutput : String := "+ data-extra@9\n+ data@ \n  + data@1.2 \r\n+ data@1.3"

/-- The same output but for lines about other packages, one of which has a scope. -/
def scopedOutput : String := "+ data@ \n+ @acme/data@2\n  + data@1.2 \r\n+ data@1.3"

/-- An update reports the first version of the package that is not blank, and the same one if other
packages are reported beside it. -/
theorem update_reports_the_package_of_sample :
  ((reportingNpm.update "data" "r").outcome (reportingMachine longerOutput)).1 = .ok "1.2"
    ∧ ((reportingNpm.update "data" "r").outcome (reportingMachine scopedOutput)).1.toOption
      = some "1.2"
  := by
  obtain ⟨hversion, -, hothers⟩ :=
    update_reports_the_package (endsWell_reportingMachine longerOutput)
  have hlines : Text.lines (Text.Utf8.ofBytesLossy (Text.Utf8.bytesOf longerOutput)).toList
      = ["+ data-extra@9".toList, "+ data@ ".toList, "  + data@1.2 ".toList,
        "+ data@1.3".toList] := by
    decide +kernel
  have hlines' : Text.lines (Text.Utf8.ofBytesLossy (Text.Utf8.bytesOf scopedOutput)).toList
      = ["+ data@ ".toList, "+ @acme/data@2".toList, "  + data@1.2 ".toList,
        "+ data@1.3".toList] := by
    decide +kernel
  have hfirst : FirstReported "data".toList
      (Text.lines (Text.Utf8.ofBytesLossy (Text.Utf8.bytesOf longerOutput)).toList)
      "1.2".toList := by
    rw [hlines, ← findSome?_versionInLine?_eq_some_iff]
    decide +kernel
  have hupdate := congrArg Prod.fst ((hversion "1.2").2 hfirst)
  use hupdate
  have hsame := hothers dataName (by decide) "r" _ _ _ (endsWell_reportingMachine scopedOutput)
  rw [hlines, hlines', hupdate] at hsame
  apply hsame
  apply SameButOthers.left ⟨dataExtraName, "9".toList, by decide, by decide +kernel⟩
  apply SameButOthers.same
  apply SameButOthers.right ⟨scopedDataName, "2".toList, by decide, by decide +kernel⟩
  apply SameButOthers.same
  apply SameButOthers.same
  apply SameButOthers.nil

end Npm

end PluginHost

import PluginHost.Proofs.Agreement

/-!
# Ranges of peers decide nothing

Two trees of files are `Files.SameButPeers` if they differ only in files that spell packages, and
those packages only in the ranges of versions that they declare for others.  Paths lead to the same
places in both, so that every plugin has the same manifest apart from the ranges for the host and
the framework (`Library.manifestFor_congr`), the same group, and the same findings apart from those
about the ranges.  These are warnings, whatever the ranges and the versions are, and so the
decisions are the same (`Loader.verdicts_sameButRanges`), and with them the tree that is made
(`Manager.ranges_decide_nothing`).
-/

namespace PluginHost

/-! ### Files -/

/-- Whether two packages differ at most in the ranges that they declare for others. -/
def Package.SameButPeers (p q : Package) : Prop := { p with peers := [] } = { q with peers := [] }

/-- Whether what is at a location in two trees of files is the same, or two files that spell
packages that differ at most in the ranges that they declare for others. -/
inductive Entry.SameButPeers : Option Entry → Option Entry → Prop
  | same (e : Option Entry) : SameButPeers e e
  | packages {text text' : String} {p q : Package}
    (hp : Json.decode? Package.shape text = some p)
    (hq : Json.decode? Package.shape text' = some q) (h : p.SameButPeers q) :
    SameButPeers (some (.file (.text text))) (some (.file (.text text')))

namespace Files

/-- Whether two trees of files differ at most in the ranges that packages declare for others. -/
structure SameButPeers (fs fs' : Files) : Prop where
  here : fs.here = fs'.here
  entries : ∀ loc, Entry.SameButPeers (fs.entryAt loc) (fs'.entryAt loc)

variable {fs fs' : Files}

theorem step_congr (h : fs.SameButPeers fs') :
  fs.step = fs'.step
  := by
  funext loc piece
  rw [step, step]
  have hloc := h.entries loc
  generalize fs.entryAt loc = e, fs'.entryAt loc = e' at hloc
  cases hloc with
  | same e => rfl
  | packages => rfl

/-- Paths lead to the same locations. -/
theorem resolve_congr (h : fs.SameButPeers fs') (p : Path) :
  fs.resolve p = fs'.resolve p
  := by
  rw [resolve, resolve, step_congr h, origin, origin, h.here]

/-- A path leads to the same, or to files that spell packages that differ at most in the ranges that
they declare for others. -/
theorem cases_of_entry (h : fs.SameButPeers fs') (p : Path) :
  fs.entry p = fs'.entry p
    ∨ ∃ e e', fs.entry p = .ok e ∧ fs'.entry p = .ok e'
      ∧ Entry.SameButPeers (some e) (some e')
  := by
  rw [entry, entry, resolve_congr h]
  cases fs'.resolve p with
  | error reason =>
    left
    rfl
  | ok loc =>
    simp only [bind, Except.bind]
    have hloc := h.entries loc
    generalize fs.entryAt loc = e, fs'.entryAt loc = e' at hloc
    cases hloc with
    | same e =>
      left
      rfl
    | packages hp hq hpq =>
      right
      exact ⟨_, _, rfl, rfl, .packages hp hq hpq⟩

theorem exists?_congr (h : fs.SameButPeers fs') (p : Path) :
  fs.exists? p = fs'.exists? p
  := by
  rw [exists?, exists?]
  obtain hsame | ⟨e, e', he, he', -⟩ := cases_of_entry h p
  · rw [hsame]
  · rw [he, he']
    rfl

theorem isFile_congr (h : fs.SameButPeers fs') :
  fs.isFile = fs'.isFile
  := by
  funext p
  rw [isFile, isFile]
  obtain hsame | ⟨e, e', he, he', hentries⟩ := cases_of_entry h p
  · rw [hsame]
  · rw [he, he']
    cases hentries with
    | same => rfl
    | packages => rfl

theorem isDirectory_congr (h : fs.SameButPeers fs') (p : Path) :
  fs.isDirectory p = fs'.isDirectory p
  := by
  rw [isDirectory, isDirectory]
  obtain hsame | ⟨e, e', he, he', hentries⟩ := cases_of_entry h p
  · rw [hsame]
  · rw [he, he']
    cases hentries with
    | same => rfl
    | packages => rfl

/-- A file has the same text, or one that spells a package that differs at most in the ranges that
it declares for others. -/
theorem cases_of_read (h : fs.SameButPeers fs') (p : Path) :
  fs.read p = fs'.read p
    ∨ ∃ text text' package package', fs.read p = .ok text ∧ fs'.read p = .ok text'
      ∧ Json.decode? Package.shape text = some package
      ∧ Json.decode? Package.shape text' = some package' ∧ package.SameButPeers package'
  := by
  rw [read, read]
  obtain hsame | ⟨e, e', he, he', hentries⟩ := cases_of_entry h p
  · left
    rw [hsame]
  · rw [he, he']
    cases hentries with
    | same =>
      left
      rfl
    | packages hp hq hpq =>
      right
      exact ⟨_, _, _, _, rfl, rfl, hp, hq, hpq⟩

end Files

/-! ### Manifests -/

/-- Whether two manifests differ at most in the ranges for the host and the framework. -/
def Manifest.SameButRanges (m n : Manifest) : Prop :=
  { m with hostRange := none, frameworkRange := none }
    = { n with hostRange := none, frameworkRange := none }

namespace Library

/-- Packages that differ at most in the ranges that they declare give manifests that differ at most
in ranges, or none for the same reason. -/
theorem manifestOf_congr (l : Library) (plugin : String) (root : Path) {p q : Package}
    (h : p.SameButPeers q) :
  (∃ m n, l.manifestOf plugin root p = .ok m ∧ l.manifestOf plugin root q = .ok n
      ∧ m.SameButRanges n)
    ∨ ∃ reason, l.manifestOf plugin root p = .error reason
      ∧ l.manifestOf plugin root q = .error reason
  := by
  obtain ⟨name, version, peers, extension⟩ := p
  obtain ⟨name', version', peers', extension'⟩ := q
  obtain ⟨rfl, rfl, -, rfl⟩ := Package.mk.inj h
  unfold manifestOf
  cases extension with
  | none =>
    right
    exact ⟨_, rfl, rfl⟩
  | some extension =>
    dsimp only
    cases extension.name.or name with
    | none =>
      right
      exact ⟨_, rfl, rfl⟩
    | some name =>
      left
      exact ⟨_, _, rfl, rfl, rfl⟩

/-- Where files differ at most in the ranges that packages declare, a plugin has manifests that
differ at most in ranges, or none for the same reason. -/
theorem manifestFor_congr (l : Library) {fs fs' : Files} (h : fs.SameButPeers fs')
    (plugin : String) :
  (∃ m n, l.manifestFor fs plugin = .ok m ∧ l.manifestFor fs' plugin = .ok n
      ∧ m.SameButRanges n)
    ∨ ∃ reason, l.manifestFor fs plugin = .error reason
      ∧ l.manifestFor fs' plugin = .error reason
  := by
  dsimp only [manifestFor]
  rw [Files.isDirectory_congr h]
  split
  · right
    exact ⟨_, rfl, rfl⟩
  · obtain hread | ⟨text, text', p, q, hread, hread', hp, hq, hpq⟩ :=
      Files.cases_of_read h ((l.rootOf plugin).below "package.json")
    · rw [hread]
      split
      · right
        exact ⟨_, rfl, rfl⟩
      · split
        · right
          exact ⟨_, rfl, rfl⟩
        · apply manifestOf_congr l plugin _ rfl
    · rw [hread, hread']
      dsimp only
      rw [hp, hq]
      apply manifestOf_congr l plugin _ hpq

end Library

/-! ### Findings -/

namespace Issue

/-- At most one issue of a plugin, a warning about the range that it declares for a package. -/
inductive OnRange (plugin package : String) : List Issue → Prop
  | none : OnRange plugin package []
  | incompatible (range actual : String) :
    OnRange plugin package
      [⟨plugin, .warning, (Finding.incompatible package range actual).message⟩]
  | uncomparable (range actual : String) (reason : Version.RangeError) :
    OnRange plugin package
      [⟨plugin, .warning, (Finding.uncomparable package range actual reason).message⟩]

/-- Whether two lists of issues of a plugin are the same apart from at most one warning in each
about the range for the host, and at most one about the range for the framework. -/
inductive SameButRanges (h : Host) (plugin : String) : List Issue → List Issue → Prop
  | intro (opening profiles : List Issue) {host host' framework framework' : List Issue}
    (hhost : OnRange plugin h.package host) (hhost' : OnRange plugin h.package host')
    (hframework : OnRange plugin h.framework framework)
    (hframework' : OnRange plugin h.framework framework') :
    SameButRanges h plugin (opening ++ host ++ profiles ++ framework)
      (opening ++ host' ++ profiles ++ framework')

theorem SameButRanges.refl (h : Host) (plugin : String) (issues : List Issue) :
  SameButRanges h plugin issues issues
  := by
  have hsame : SameButRanges h plugin (issues ++ [] ++ [] ++ []) (issues ++ [] ++ [] ++ []) :=
    .intro issues [] .none .none .none .none
  rw [List.append_nil, List.append_nil, List.append_nil] at hsame
  apply hsame

end Issue

/-- Whatever is wrong with a range is one warning. -/
theorem onRange_rangeFindings (plugin package : String) (declared : Option String)
    (actual : String) :
  Issue.OnRange plugin package
    ((rangeFindings package declared actual).map (Finding.issue plugin))
  := by
  unfold rangeFindings
  cases declared with
  | none => apply Issue.OnRange.none
  | some range =>
    dsimp only
    split
    · apply Issue.OnRange.none
    · apply Issue.OnRange.incompatible
    · apply Issue.OnRange.uncomparable

/-- Whatever is wrong with a range is no error. -/
theorem anyError_rangeFindings (package : String) (declared : Option String) (actual : String) :
  Finding.anyError (rangeFindings package declared actual) = false
  := by
  unfold rangeFindings
  cases declared with
  | none => rfl
  | some range =>
    dsimp only
    split
    · rfl
    · rfl
    · rfl

/-- Whether two verdicts are the same apart from warnings about ranges. -/
structure Verdict.SameButRanges (h : Host) (v w : Verdict) : Prop where
  name : w.name = v.name
  status : w.status = v.status
  issues : Issue.SameButRanges h v.name v.issues w.issues

namespace Loader

variable (l : Loader) {fs : Files} {m n : Manifest}

theorem locate_congr (h : l.files.SameButPeers fs) :
  ({ l with files := fs } : Loader).locate = l.locate
  := by
  funext root request
  rw [locate, locate, Redirect.locate?, Redirect.locate?, Files.isFile_congr h]

theorem candidate_congr (h : l.files.SameButPeers fs) (hm : m.SameButRanges n) :
  ({ l with files := fs } : Loader).candidate n = l.candidate m
  := by
  rw [candidate, candidate, l.locate_congr h]
  cases m
  cases n
  cases hm
  rfl

/-- A plugin has manifests that differ at most in ranges, or none for the same reason. -/
theorem cases_of_manifestFor (h : l.files.SameButPeers fs) (plugin : String) :
  (∃ m n, l.library.manifestFor l.files plugin = .ok m
      ∧ ({ l with files := fs } : Loader).library.manifestFor
        ({ l with files := fs } : Loader).files plugin = .ok n
      ∧ m.SameButRanges n)
    ∨ ∃ reason, l.library.manifestFor l.files plugin = .error reason
      ∧ ({ l with files := fs } : Loader).library.manifestFor
        ({ l with files := fs } : Loader).files plugin = .error reason
  := l.library.manifestFor_congr h plugin

/-- What is found up to the adoption does not depend on ranges. -/
theorem openingFindings_congr (h : l.files.SameButPeers fs) (hm : m.SameButRanges n)
    (tree : CommandTree) :
  ({ l with files := fs } : Loader).openingFindings tree n = l.openingFindings tree m
  := by
  have hstructural : ({ l with files := fs } : Loader).structuralFindings n
      = l.structuralFindings m := by
    rw [structuralFindings, structuralFindings, l.locate_congr h]
    cases m
    cases n
    cases hm
    rfl
  rw [openingFindings, openingFindings, earlyFindings, earlyFindings, clashFindings,
    clashFindings, hstructural, l.candidate_congr h hm]

/-- What is found about a plugin is the same apart from what is found about ranges, and an error is
found in both cases or in neither. -/
theorem findings_congr (h : l.files.SameButPeers fs) (tree : CommandTree) (known : List String)
    (plugin : String) :
  Finding.anyError (({ l with files := fs } : Loader).findings tree known plugin)
      = Finding.anyError (l.findings tree known plugin)
    ∧ Issue.SameButRanges l.host plugin
      ((l.findings tree known plugin).map (Finding.issue plugin))
      ((({ l with files := fs } : Loader).findings tree known plugin).map (Finding.issue plugin))
  := by
  obtain ⟨m, n, hm, hn, hmn⟩ | ⟨reason, hm, hn⟩ := l.cases_of_manifestFor h plugin
  · have hprofiles : n.profiles = m.profiles := (congrArg Manifest.profiles hmn).symm
    rw [l.findings_of_manifest hm, findings_of_manifest _ hn, manifestFindings, manifestFindings,
      l.openingFindings_congr h hmn, lateFindings, lateFindings, hprofiles]
    constructor
    · simp only [Finding.anyError_append, anyError_rangeFindings]
    · simp only [List.map_append, ← List.append_assoc]
      apply Issue.SameButRanges.intro
      all_goals apply onRange_rangeFindings
  · rw [l.findings_of_no_manifest hm, findings_of_no_manifest _ hn]
    use rfl
    apply Issue.SameButRanges.refl

/-! ### Decisions -/

theorem verdict_congr (h : l.files.SameButPeers fs) (tree : CommandTree) (known : List String)
    (plugin : String) :
  Verdict.SameButRanges l.host (l.verdict tree known plugin)
    (({ l with files := fs } : Loader).verdict tree known plugin)
  := by
  obtain ⟨herror, hissues⟩ := l.findings_congr h tree known plugin
  constructor
  · rfl
  · rw [verdict, verdict, statusOf, statusOf, herror]
  · apply hissues

theorem groupsOf_congr (h : l.files.SameButPeers fs) (accepted : List String) :
  ({ l with files := fs } : Loader).groupsOf accepted = l.groupsOf accepted
  := by
  rw [groupsOf, groupsOf]
  congr 1
  funext plugin
  obtain ⟨m, n, hm, hn, hmn⟩ | ⟨reason, hm, hn⟩ := l.cases_of_manifestFor h plugin
  · rw [hm, hn]
    apply congrArg some (l.candidate_congr h hmn)
  · rw [hm, hn]
    rfl

theorem typesOf_congr (h : l.files.SameButPeers fs) (accepted : List String) :
  ({ l with files := fs } : Loader).typesOf accepted = l.typesOf accepted
  := by
  rw [typesOf, typesOf]
  congr 1
  funext plugin
  obtain ⟨m, n, hm, hn, hmn⟩ | ⟨reason, hm, hn⟩ := l.cases_of_manifestFor h plugin
  · have hprofiles : n.profiles = m.profiles := (congrArg Manifest.profiles hmn).symm
    rw [hm, hn]
    dsimp only
    rw [hprofiles]
  · rw [hm, hn]

theorem acceptedNames_congr {v w : Verdict} {h : Host} (hvw : v.SameButRanges h w) :
  Verdict.acceptedNames [w] = Verdict.acceptedNames [v]
  := by
  simp only [Verdict.acceptedNames, List.filter_cons, hvw.status, List.filter_nil]
  split
  · rw [List.map_singleton, List.map_singleton, hvw.name]
  · rfl

/-- Loading a plugin leaves the same tree and the same known types, whatever ranges it declares. -/
theorem load_congr (h : l.files.SameButPeers fs) {a b : Assembly} (htree : b.tree = a.tree)
    (hknown : b.known = a.known) (plugin : String) :
  (({ l with files := fs } : Loader).load b plugin).2.tree = (l.load a plugin).2.tree
    ∧ (({ l with files := fs } : Loader).load b plugin).2.known = (l.load a plugin).2.known
  := by
  have hnames := acceptedNames_congr (l.verdict_congr h a.tree a.known plugin)
  constructor
  · rw [tree_load, tree_load, htree, hknown, hnames, l.groupsOf_congr h]
  · rw [known_load, known_load, htree, hknown, hnames, l.typesOf_congr h]

/-- A pass comes to the same decisions and the same tree, whatever ranges the packages declare. -/
theorem loadEach_congr (h : l.files.SameButPeers fs) {a b : Assembly} (htree : b.tree = a.tree)
    (hknown : b.known = a.known) (names : List String) :
  List.Forall₂ (Verdict.SameButRanges l.host) (l.loadEach a names).1
      (({ l with files := fs } : Loader).loadEach b names).1
    ∧ (({ l with files := fs } : Loader).loadEach b names).2.tree = (l.loadEach a names).2.tree
  := by
  induction names generalizing a b with
  | nil => exact ⟨.nil, htree⟩
  | cons plugin rest ih =>
    obtain ⟨htree', hknown'⟩ := l.load_congr h htree hknown plugin
    obtain ⟨hrest, hend⟩ := ih htree' hknown'
    rw [verdicts_cons, verdicts_cons, assembly_cons, assembly_cons, htree, hknown]
    exact ⟨.cons (l.verdict_congr h a.tree a.known plugin) hrest, hend⟩

/-- A pass leaves the same issues of its plugins apart from warnings about ranges. -/
theorem issuesOf_loadEach_congr (h : l.files.SameButPeers fs) {a b : Assembly}
    (htree : b.tree = a.tree) (hknown : b.known = a.known) {names : List String} :
  ∀ plugin ∈ names, Issue.SameButRanges l.host plugin
    ((l.loadEach a names).2.log.issuesOf plugin)
    ((({ l with files := fs } : Loader).loadEach b names).2.log.issuesOf plugin)
  := by
  induction names generalizing a b with
  | nil =>
    intro plugin hplugin
    cases hplugin
  | cons first rest ih =>
    intro plugin hplugin
    obtain ⟨htree', hknown'⟩ := l.load_congr h htree hknown first
    rw [assembly_cons, assembly_cons]
    by_cases hrest : plugin ∈ rest
    · apply ih htree' hknown' plugin hrest
    · obtain rfl := (List.mem_cons.1 hplugin).resolve_right hrest
      rw [l.issuesOf_loadEach_of_not_mem _ hrest, issuesOf_loadEach_of_not_mem _ _ hrest,
        issuesOf_load_self, issuesOf_load_self, htree, hknown]
      apply (l.findings_congr h a.tree a.known plugin).2

end Loader

namespace Manager

variable {σ : Type} {m : Manager σ} {s s' : Session σ} {plugins : Inventory}

/-! ### Operations -/

/-- Where the same inventory is loaded from files that differ at most in the ranges that packages
declare, the files that are left do so too, unless there is no plugin. -/
theorem sameButPeers_of_load (hfiles : (m.files s).SameButPeers (m.files s'))
    (hload : (m.store.load.outcome (m.files s)).1 = .ok plugins)
    (hload' : (m.store.load.outcome (m.files s')).1 = .ok plugins) :
  ∃ u u', m.inventory.outcome s = (.ok plugins, u) ∧ m.inventory.outcome s' = (.ok plugins, u')
    ∧ ((m.files u).SameButPeers (m.files u') ∨ plugins = ByName.empty)
  := by
  obtain ⟨u, hu, hleft⟩ := inventory_of_load (Prod.ext hload rfl)
  obtain ⟨u', hu', hleft'⟩ := inventory_of_load (Prod.ext hload' rfl)
  use u, u', hu, hu'
  cases hexists : (m.files s).exists? m.store.path with
  | true =>
    left
    rw [hleft, hleft', Store.load_of_exists hexists]
    rw [Files.exists?_congr hfiles] at hexists
    rw [Store.load_of_exists hexists]
    apply hfiles
  | false =>
    right
    rw [Store.load_of_missing hexists] at hload
    generalize hrun : Attempt.outcome _ (m.files s) = result at hload
    obtain ⟨answer, left⟩ := result
    obtain rfl : answer = .ok plugins := hload
    obtain ⟨saved, made, -, hpure⟩ := Attempt.eq_ok_of_bind hrun
    cases hpure
    rfl

/-- Passes over plugins of an inventory come to the same where files differ at most in the ranges
that packages declare, or where there is no plugin. -/
theorem passes_congr {fs fs' : Files} (h : fs.SameButPeers fs' ∨ plugins = ByName.empty)
    {names : List String} (hnames : plugins = ByName.empty → names = []) (tree : CommandTree)
    (log log' : IssueLog) :
  List.Forall₂ (Verdict.SameButRanges m.host)
      ((m.loader fs).loadEach ⟨tree, m.host.profileTypes, log⟩ names).1
      ((m.loader fs').loadEach ⟨tree, m.host.profileTypes, log'⟩ names).1
    ∧ ((m.loader fs').loadEach ⟨tree, m.host.profileTypes, log'⟩ names).2.tree
      = ((m.loader fs).loadEach ⟨tree, m.host.profileTypes, log⟩ names).2.tree
    ∧ ∀ plugin ∈ names, Issue.SameButRanges m.host plugin
      (((m.loader fs).loadEach ⟨tree, m.host.profileTypes, log⟩ names).2.log.issuesOf plugin)
      (((m.loader fs').loadEach ⟨tree, m.host.profileTypes, log'⟩ names).2.log.issuesOf plugin)
  := by
  rcases h with hfiles | hempty
  · obtain ⟨hverdicts, htree⟩ := (m.loader fs).loadEach_congr hfiles
      (a := ⟨tree, m.host.profileTypes, log⟩) (b := ⟨tree, m.host.profileTypes, log'⟩) rfl rfl names
    use hverdicts, htree
    apply (m.loader fs).issuesOf_loadEach_congr hfiles (a := ⟨tree, m.host.profileTypes, log⟩)
      (b := ⟨tree, m.host.profileTypes, log'⟩) rfl rfl
  · rw [hnames hempty]
    use .nil, rfl
    intro plugin hplugin
    cases hplugin

/-- The ranges that packages declare for others never decide whether a plugin is loaded, whatever
the ranges and the versions of the host and the framework are.  In two reachable sessions with the
same inventory, whose files differ at most in those ranges, extending gives the same tree and the
same issues, and validating one plugin or all of them gives the same verdicts, apart from warnings
about the ranges for the host and for the framework, of which a plugin has at most one each. -/
theorem ranges_decide_nothing [DomainNames] (m : Manager σ) (hs : m.Reachable s)
    (hs' : m.Reachable s') (hfiles : (m.files s).SameButPeers (m.files s'))
    (hload : (m.store.load.outcome (m.files s)).1 = .ok plugins)
    (hload' : (m.store.load.outcome (m.files s')).1 = .ok plugins) :
  (∀ tree, ∃ grown t t', (m.extend tree).outcome s = (.ok grown, t)
      ∧ (m.extend tree).outcome s' = (.ok grown, t')
      ∧ ∀ plugin ∈ plugins.names, Issue.SameButRanges m.host plugin (t.log.issuesOf plugin)
        (t'.log.issuesOf plugin))
    ∧ ∀ name : Option String, name.all plugins.contains = true →
      ∃ report report' t t', (m.validate name).outcome s = (.ok report, t)
        ∧ (m.validate name).outcome s' = (.ok report', t')
        ∧ List.Forall₂ (Verdict.SameButRanges m.host) report.verdicts report'.verdicts
  := by
  obtain ⟨u, u', hu, hu', hleft⟩ := sameButPeers_of_load hfiles hload hload'
  have hidle := Attempt.holds_of_keeps m.keeps_inventory (idle_of_reachable hs) hu
  have hidle' := Attempt.holds_of_keeps m.keeps_inventory (idle_of_reachable hs') hu'
  have hall : plugins = ByName.empty → plugins.names = [] := by
    rintro rfl
    rfl
  constructor
  · intro tree
    obtain ⟨-, htree, hissues⟩ := passes_congr (m := m) hleft hall tree u.log u'.log
    rw [extend, Attempt.outcome_bind, Attempt.outcome_bind, hu, hu']
    dsimp only
    rw [Attempt.outcome_bind, Attempt.outcome_bind, m.outcome_loadNames hidle,
      m.outcome_loadNames hidle']
    exact ⟨_, _, _, rfl, congrArg₂ Prod.mk (congrArg Except.ok htree) rfl, hissues⟩
  · intro name hname
    rw [validate, Attempt.outcome_bind, Attempt.outcome_bind, hu, hu']
    dsimp only
    cases name with
    | none =>
      rw [Attempt.outcome_bind, Attempt.outcome_bind, m.outcome_loadNames hidle,
        m.outcome_loadNames hidle']
      exact ⟨_, _, _, _, rfl, rfl, (passes_congr hleft hall _ _ _).1⟩
    | some name =>
      have hcontains : plugins.contains name = true := hname
      have hsome : plugins = ByName.empty → [name] = [] := by
        rintro rfl
        cases hcontains
      dsimp only
      rw [if_pos hcontains, Attempt.outcome_bind, Attempt.outcome_bind, m.outcome_loadNames hidle,
        m.outcome_loadNames hidle']
      exact ⟨_, _, _, _, rfl, rfl, (passes_congr hleft hsome _ _ _).1⟩

/-! ### A sample -/

/-- The package of the first sample plugin, with ranges for others. -/
def packageDeclaring (peers : List (String × String)) : Package where
  name := none
  version := none
  peers := peers
  extension := some {
    name := some "data"
    description := some "-"
    definitions := some [⟨some "run", some "command", some "-", [], none, some "f", none⟩]
    profiles := [⟨some "table", .null⟩]
    healthCheck := none
    aliases := ["d"]
    summary := none }

/-- Whether a package is that one. -/
def declares (peers : List (String × String)) : Option Package → Bool
  | some ⟨none, none, declared, some ⟨some "data", some "-",
      some [⟨some "run", some "command", some "-", [], none, some "f", none⟩],
      [⟨some "table", .null⟩], none, ["d"], none⟩⟩ => declared == peers
  | _ => false

theorem eq_packageDeclaring {package : Option Package} {peers : List (String × String)}
    (h : declares peers package = true) :
  package = some (packageDeclaring peers)
  := by
  unfold declares at h
  split at h
  · rw [beq_iff_eq] at h
    rw [h, packageDeclaring]
  · cases h

/-- The text of that package with a range that the host is not in, and one that the framework cannot
be compared with. -/
def declaringText : String :=
  "[null,null,\x7b\"plugdeck\":\">=9\",\"@plugdeck/core\":\"-\"\x7d,[\"data\",\"-\","
    ++ "[[\"run\",\"command\",\"-\",[],null,\"f\",null]],[[\"table\"]],null,[\"d\"],null]]"

theorem decode_declaringText :
  Json.decode? Package.shape declaringText
    = some (packageDeclaring [("plugdeck", ">=9"), ("@plugdeck/core", "-")])
  := by
  apply eq_packageDeclaring
  decide +kernel

/-- The sample files with that text. -/
def declaringFiles : Files :=
  Files.sample.put ["m", "data", "package.json"] (.file (.text declaringText))

/-- A session with these files, before the first operation. -/
def declaringStart : Session Shelf := sample.start ⟨declaringFiles, [], [], none, []⟩

theorem sameButPeers_declaringFiles :
  Files.sample.SameButPeers declaringFiles
  := by
  constructor
  · rfl
  · intro loc
    by_cases hloc : loc = ["m", "data", "package.json"]
    · obtain ⟨text, htext, hdecode⟩ : ∃ text,
          Files.sample.entryAt loc = some (.file (.text text))
            ∧ Json.decode? Package.shape text = some (packageDeclaring []) := by
        subst hloc
        refine ⟨_, rfl, ?_⟩
        apply eq_packageDeclaring
        decide +kernel
      rw [htext, hloc, declaringFiles, Files.entryAt_put_self (by simp)]
      apply Entry.SameButPeers.packages hdecode decode_declaringText rfl
    · rw [declaringFiles, Files.entryAt_put_of_ne hloc]
      apply Entry.SameButPeers.same

attribute [local instance] Url.codedNames

/-- The ranges of the first sample plugin bring two more warnings, but the tree is the same. -/
theorem ranges_decide_nothing_of_sample :
  (∃ grown t t', (sample.extend sample.host.commandTree).outcome sampleStart = (.ok grown, t)
      ∧ (sample.extend sample.host.commandTree).outcome declaringStart = (.ok grown, t'))
    ∧ ∃ report report' t t', (sample.validate none).outcome sampleStart = (.ok report, t)
      ∧ (sample.validate none).outcome declaringStart = (.ok report', t')
      ∧ List.Forall₂ (Verdict.SameButRanges sample.host) report.verdicts report'.verdicts
      ∧ report'.count .warning = report.count .warning + 2
  := by
  have hload : (sample.store.load.outcome (sample.files sampleStart)).1 = .ok Inventory.sample :=
    congrArg Prod.fst (Store.load_of_read read_sample)
  have hread : sample.store.read (sample.files declaringStart) = .ok Inventory.sample := by
    decide +kernel
  have hload' : (sample.store.load.outcome (sample.files declaringStart)).1
      = .ok Inventory.sample := congrArg Prod.fst (Store.load_of_read hread)
  have hcounts : (((sample.validate none).outcome sampleStart).1.toOption.map (·.count .warning),
      ((sample.validate none).outcome declaringStart).1.toOption.map (·.count .warning))
      = (some 3, some 5) := by
    decide +kernel
  have hstart : sample.Reachable sampleStart := .start _
  have hstart' : sample.Reachable declaringStart := .start _
  obtain ⟨hextend, hvalidate⟩ := ranges_decide_nothing sample hstart hstart'
    sameButPeers_declaringFiles hload hload'
  obtain ⟨grown, t, t', hrun, hrun', -⟩ := hextend sample.host.commandTree
  use ⟨grown, t, t', hrun, hrun'⟩
  obtain ⟨report, report', u, u', hreport, hreport', hverdicts⟩ := hvalidate none rfl
  rw [hreport, hreport'] at hcounts
  obtain ⟨hcount, hcount'⟩ := Prod.mk.inj hcounts
  have hthree : report.count .warning = 3 := Option.some.inj hcount
  have hfive : report'.count .warning = 5 := Option.some.inj hcount'
  refine ⟨report, report', u, u', hreport, hreport', hverdicts, ?_⟩
  rw [hthree, hfive]

end Manager

end PluginHost

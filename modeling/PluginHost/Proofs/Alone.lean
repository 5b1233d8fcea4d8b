import PluginHost.Proofs.Ownership
import PluginHost.Proofs.Verdicts
import PluginHost.Proofs.Words

/-!
# A plugin alone and among others

What is found about a plugin depends on the others through the children of the tree and the known
types alone.  More of them lead to no fewer errors and to the same warnings
(`Loader.milder_findings`): where a word clashes with the host it still does so beside further
groups, if perhaps with another of them, and a known type stays known.  So a plugin that is
accepted among the others is accepted alone (`Manager.validating_alone_is_no_stricter`).
-/

namespace PluginHost

/-! ### Milder findings -/

namespace Finding

/-- The number of errors among some findings. -/
def countErrors (found : List Finding) : Nat := found.countP fun f => f.severity == .error

/-- The warnings among some findings. -/
def warnings (found : List Finding) : List Finding := found.filter fun f => f.severity == .warning

/-- Whether some findings have no more errors than others, and the same warnings. -/
structure Milder (found more : List Finding) : Prop where
  errors : countErrors found ≤ countErrors more
  warnings : warnings found = warnings more

variable {found found' more more' : List Finding}

theorem Milder.refl (found : List Finding) :
  Milder found found
  := ⟨le_rfl, rfl⟩

theorem Milder.append (h : Milder found more) (h' : Milder found' more') :
  Milder (found ++ found') (more ++ more')
  := by
  constructor
  · rw [countErrors, countErrors, List.countP_append, List.countP_append]
    apply Nat.add_le_add h.errors h'.errors
  · rw [Finding.warnings, Finding.warnings, List.filter_append, List.filter_append]
    congr 1
    · apply h.warnings
    · apply h'.warnings

theorem countErrors_of_errors (h : ∀ f ∈ found, f.severity = .error) :
  countErrors found = found.length
  := by
  rw [countErrors, List.countP_eq_length]
  intro f hf
  rw [h f hf]
  rfl

theorem warnings_of_errors (h : ∀ f ∈ found, f.severity = .error) :
  warnings found = []
  := by
  rw [warnings, List.filter_eq_nil_iff]
  intro f hf
  rw [h f hf]
  decide

/-- Of errors alone, the fewer are milder. -/
theorem milder_of_errors (h : ∀ f ∈ found, f.severity = .error)
    (h' : ∀ f ∈ more, f.severity = .error) (hlength : found.length ≤ more.length) :
  Milder found more
  := by
  constructor
  · rw [countErrors_of_errors h, countErrors_of_errors h']
    apply hlength
  · rw [warnings_of_errors h, warnings_of_errors h']

theorem anyError_eq_false_iff :
  anyError found = false ↔ countErrors found = 0
  := by
  simp [anyError, countErrors, List.countP_eq_zero]

/-- Where others are no errors, there is none among milder findings. -/
theorem Milder.no_error (h : Milder found more) (hmore : anyError more = false) :
  anyError found = false
  := by
  rw [anyError_eq_false_iff] at hmore ⊢
  have herrors := h.errors
  rw [hmore] at herrors
  apply Nat.le_zero.1 herrors

end Finding

/-! ### More nodes and more types -/

namespace CommandTree

variable {t candidate : CommandTree}

theorem children_subset_grow (t : CommandTree) (nodes : List CommandTree) :
  t.children ⊆ (t.grow nodes).children
  := by
  cases t with
  | command l h => apply List.Subset.refl
  | group l cs => apply List.subset_append_left

/-- A candidate that clashes with no child of a grown tree clashes with none of the tree. -/
theorem clash?_of_grow {nodes : List CommandTree} (h : (t.grow nodes).clash? candidate = none) :
  t.clash? candidate = none
  := by
  rw [clash?_eq_none_iff] at h ⊢
  intro c hc
  apply h c (t.children_subset_grow nodes hc)

end CommandTree

/-- More known types are found no less often among the types of some profiles. -/
theorem ProfileType.length_knownFindings_le (known types : List String)
    (profiles : List ProfileType) :
  (knownFindings known profiles).length ≤ (knownFindings (known ++ types) profiles).length
  := by
  rw [knownFindings, knownFindings, List.length_filterMap_eq_countP,
    List.length_filterMap_eq_countP]
  apply List.countP_mono_left
  intro type _ h
  have hknown : type ∈ known := by simpa using h
  simp [hknown]

theorem ProfileType.milder_findings (known types : List String) (profiles : List ProfileType) :
  Finding.Milder (findings known profiles) (findings (known ++ types) profiles)
  := by
  apply Finding.milder_of_errors
  · intro f hf
    apply severity_of_mem_findings hf
  · intro f hf
    apply severity_of_mem_findings hf
  · simp only [findings, List.length_append]
    apply Nat.add_le_add_left (length_knownFindings_le known types profiles)

namespace Loader

variable (l : Loader)

theorem milder_clashFindings (tree : CommandTree) (nodes : List CommandTree) (m : Manifest) :
  Finding.Milder (l.clashFindings tree m) (l.clashFindings (tree.grow nodes) m)
  := by
  have herror : ∀ t : CommandTree, ∀ f ∈ l.clashFindings t m, f.severity = .error := by
    intro t f hf
    obtain ⟨clash, -, rfl⟩ := List.mem_map.1 hf
    rfl
  apply Finding.milder_of_errors (herror _) (herror _)
  rw [clashFindings, clashFindings, List.length_map, List.length_map]
  cases hgrown : (tree.grow nodes).clash? (l.candidate m) with
  | none => rw [CommandTree.clash?_of_grow hgrown]
  | some clash => cases tree.clash? (l.candidate m) <;> simp

/-- A group adopts the candidate of every plugin about which no error is found before. -/
theorem openingFindings_of_group {tree : CommandTree} (hgroup : tree.isGroup = true)
    (m : Manifest) :
  l.openingFindings tree m = l.earlyFindings tree m
  := by
  rw [openingFindings]
  split
  · apply List.append_nil
  · next herror =>
    cases hclash : tree.clash? (l.candidate m) with
    | none =>
      rw [adoptionFindings, CommandTree.adopt_of_no_clash hgroup hclash]
      apply List.append_nil
    | some clash =>
      have hmem : Finding.clash clash ∈ l.earlyFindings tree m := by
        simp [earlyFindings, clashFindings, hclash]
      cases herror (Finding.anyError_of_mem hmem rfl)

theorem milder_openingFindings (tree : CommandTree) (nodes : List CommandTree) (m : Manifest) :
  Finding.Milder (l.openingFindings tree m) (l.openingFindings (tree.grow nodes) m)
  := by
  cases tree with
  -- a command has no children, and no node joins them
  | command label handler => apply Finding.Milder.refl
  | group label children =>
    rw [l.openingFindings_of_group rfl, l.openingFindings_of_group rfl]
    apply Finding.Milder.append (Finding.Milder.refl _)
    apply l.milder_clashFindings (.group label children)

/-- What is found about a plugin beside a tree and some known types is milder than what is found
beside more nodes and more types. -/
theorem milder_findings (tree : CommandTree) (nodes : List CommandTree)
    (known types : List String) (plugin : String) :
  Finding.Milder (l.findings tree known plugin)
    (l.findings (tree.grow nodes) (known ++ types) plugin)
  := by
  cases hm : l.library.manifestFor l.files plugin with
  | error reason =>
    rw [l.findings_of_no_manifest hm, l.findings_of_no_manifest hm]
    apply Finding.Milder.refl
  | ok m =>
    rw [l.findings_of_manifest hm, l.findings_of_manifest hm]
    apply Finding.Milder.append (l.milder_openingFindings tree nodes m)
    apply Finding.Milder.append _ (Finding.Milder.refl _)
    apply Finding.Milder.append (Finding.Milder.refl _)
    apply ProfileType.milder_findings

end Loader

/-! ### Milder verdicts -/

/-- The warnings of a verdict. -/
def Verdict.warnings (v : Verdict) : List Issue :=
  v.issues.filter fun i => i.severity == .warning

/-- Whether a verdict is no stricter than another one on the same plugin: it accepts what that
accepts, it has no more errors, and it has the same warnings. -/
structure Verdict.NoStricter (v w : Verdict) : Prop where
  name : v.name = w.name
  accepted : w.status = .accepted → v.status = .accepted
  errors : v.count .error ≤ w.count .error
  warnings : v.warnings = w.warnings

namespace Loader

variable (l : Loader)

theorem count_verdict (tree : CommandTree) (known : List String) (plugin : String) :
  (l.verdict tree known plugin).count .error
    = Finding.countErrors (l.findings tree known plugin)
  := by
  rw [Verdict.count, Issue.countOf, verdict, List.countP_map]
  rfl

theorem warnings_verdict (tree : CommandTree) (known : List String) (plugin : String) :
  (l.verdict tree known plugin).warnings
    = (Finding.warnings (l.findings tree known plugin)).map (Finding.issue plugin)
  := by
  rw [Verdict.warnings, verdict, List.filter_map]
  rfl

/-- Beside fewer nodes and fewer known types the verdict on a plugin is no stricter. -/
theorem noStricter_verdict (tree : CommandTree) (nodes : List CommandTree)
    (known types : List String) (plugin : String) :
  (l.verdict tree known plugin).NoStricter
    (l.verdict (tree.grow nodes) (known ++ types) plugin)
  := by
  have hmilder := l.milder_findings tree nodes known types plugin
  constructor
  · rfl
  · intro haccepted
    have hmore := l.no_error_of_accepted haccepted
    rw [verdict, statusOf, hmilder.no_error hmore]
    rfl
  · rw [count_verdict, count_verdict]
    apply hmilder.errors
  · rw [warnings_verdict, warnings_verdict, hmilder.warnings]

end Loader

namespace Manager

variable {σ : Type} {m : Manager σ}

/-! ### Validations -/

/-- Where the inventory can be loaded, one of its plugins is validated beside the host alone. -/
theorem validate_of_inventory {s u : Session σ} (hs : m.Idle s) {plugins : Inventory}
    (hload : m.inventory.outcome s = (.ok plugins, u)) {name : String}
    (hname : name ∈ plugins.names) :
  ∃ t, (m.validate (some name)).outcome s
    = (.ok ⟨[(m.loader (m.files u)).verdict m.host.commandTree m.host.profileTypes name]⟩, t)
  := by
  have hu := Attempt.holds_of_keeps m.keeps_inventory hs hload
  have hcontains : plugins.contains name = true := by
    obtain ⟨⟨name, i⟩, hi, rfl⟩ := List.mem_map.1 hname
    rw [ByName.contains, ByName.get?_eq_some_iff.2 hi]
    rfl
  rw [validate, Attempt.outcome_bind, hload]
  dsimp only
  rw [if_pos hcontains, Attempt.outcome_bind, m.outcome_loadNames hu]
  use { u with log := ((m.loader (m.files u)).loadEach
    ⟨m.host.commandTree, m.host.profileTypes, u.log⟩ [name]).2.log }
  dsimp only
  rw [Loader.verdicts_cons]
  rfl

/-- Validating a plugin alone is never stricter than validating it among the others.  If all
plugins are validated in a reachable session, then each plugin in the store has a verdict in
the report, and it can be validated alone in any reachable session with the files as they were
before or are after that.  Alone it is accepted if it was among the others, it has no more
errors, and its warnings are the same. -/
theorem validating_alone_is_no_stricter [DomainNames] (m : Manager σ) {s s' t : Session σ}
    {report : Report} (hs : m.Reachable s) (hs' : m.Reachable s')
    (h : (m.validate none).outcome s = (.ok report, t))
    (hfiles : m.files s' = m.files s ∨ m.files s' = m.files t) :
  ∃ plugins, m.store.read (m.files t) = .ok plugins
    ∧ ∀ name ∈ plugins.names, ∃ among alone t', report.get? name = some among
      ∧ (m.validate (some name)).outcome s' = (.ok ⟨[alone]⟩, t') ∧ alone.NoStricter among
  := by
  rw [validate_eq_withPass] at h
  obtain ⟨plugins, start, hload, rfl, rfl⟩ := (withPass_eq_ok_iff (idle_of_reachable hs) _ _).1 h
  obtain ⟨start', hload', hstart⟩ := inventory_again hload hfiles
  have hread : m.store.read (m.files start) = .ok plugins :=
    Store.read_of_load (load_of_inventory hload)
  use plugins, hread
  intro name hname
  obtain ⟨t', hvalidate⟩ := validate_of_inventory (idle_of_reachable hs') hload' hname
  have hget := (m.loader (m.files start)).get?_loadEach
    ⟨m.host.commandTree, m.host.profileTypes, start.log⟩ plugins.pairwise_names hname
  refine ⟨_, _, t', hget, hvalidate, ?_⟩
  rw [hstart, Loader.verdictAfter]
  apply Loader.noStricter_verdict

attribute [local instance] Url.codedNames

/-- The third sample plugin is accepted among the others, and so it is alone. -/
theorem validating_alone_is_no_stricter_of_sample :
  ∃ report t, (sample.validate none).outcome sampleStart = (.ok report, t)
    ∧ sample.files t = sample.files sampleStart
    ∧ ∃ among alone t', report.get? "log" = some among ∧ among.status = .accepted
      ∧ (sample.validate (some "log")).outcome sampleStart = (.ok ⟨[alone]⟩, t')
      ∧ alone.NoStricter among ∧ alone.status = .accepted
  := by
  have hstart : sample.Reachable sampleStart := .start _
  obtain ⟨t, hvalidate, hfiles⟩ :=
    validate_of_load (idle_of_reachable hstart) (Store.load_of_read read_sample)
  refine ⟨_, t, hvalidate, hfiles, ?_⟩
  obtain ⟨plugins, hread, halone⟩ :=
    validating_alone_is_no_stricter sample hstart hstart hvalidate (.inl rfl)
  rw [hfiles, read_sample] at hread
  obtain rfl := Except.ok.inj hread
  obtain ⟨among, alone, t', hget, houtcome, hstrict⟩ := halone "log" (by decide +kernel)
  have haccepted : ∀ v, (Report.mk ((sample.loader Files.sample).passOver
      sample.host.commandTree sampleStart.log Inventory.sample).1).get? "log" = some v →
      v.status = .accepted := by
    decide +kernel
  have hamong := haccepted among hget
  exact ⟨among, alone, t', hget, hamong, houtcome, hstrict, hstrict.accepted hamong⟩

end Manager

end PluginHost

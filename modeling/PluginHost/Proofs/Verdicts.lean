import PluginHost.Proofs.Agreement

/-!
# Verdicts and their issues

The status of a plugin is not stored beside its issues but follows from them: a verdict rejects a
plugin exactly if an error is among its issues (`Loader.rejected_iff_of_mem`), whatever has been
recorded before the pass.  So a report without errors is one that accepts all its plugins
(`Manager.rejected_iff_error_in_report`).
-/

namespace PluginHost

/-! ### Reports without errors -/

theorem Issue.countOf_eq_zero_iff {severity : Severity} {issues : List Issue} :
  countOf severity issues = 0 ↔ ∀ i ∈ issues, i.severity ≠ severity
  := by
  simp [countOf, List.countP_eq_zero]

/-- A report counts no issue of a kind exactly if no verdict comes with one. -/
theorem Report.count_eq_zero_iff {r : Report} {severity : Severity} :
  r.count severity = 0 ↔ ∀ v ∈ r.verdicts, ∀ i ∈ v.issues, i.severity ≠ severity
  := by
  rw [count, Issue.countOf_eq_zero_iff, issues]
  constructor
  · intro h v hv i hi
    apply h i (List.mem_flatMap.2 ⟨v, hv, hi⟩)
  · intro h i hi
    obtain ⟨v, hv, hvi⟩ := List.mem_flatMap.1 hi
    apply h v hv i hvi

/-- A report that may have warnings passes exactly if it counts no error. -/
theorem Report.passes_errors_iff {r : Report} :
  r.passes true false = true ↔ r.count .error = 0
  := by
  simp [passes]

theorem Status.ne_rejected_iff {status : Status} :
  status ≠ .rejected ↔ status = .accepted
  := by
  cases status <;> simp

/-! ### The verdicts of a pass -/

namespace Loader

variable (l : Loader)

/-- A verdict rejects a plugin exactly if it comes with an error. -/
theorem rejected_verdict_iff (tree : CommandTree) (known : List String) (plugin : String) :
  (l.verdict tree known plugin).status = .rejected
    ↔ ∃ i ∈ (l.verdict tree known plugin).issues, i.severity = .error
  := by
  simp [verdict, statusOf, Finding.anyError, Finding.issue]

/-- Every verdict of a pass is made beside what the decisions before it have left. -/
theorem exists_eq_verdict {a : Assembly} {names : List String} {v : Verdict}
    (h : v ∈ (l.loadEach a names).1) :
  ∃ b : Assembly, v = l.verdict b.tree b.known v.name
  := by
  induction names generalizing a with
  | nil => cases h
  | cons plugin rest ih =>
    rw [verdicts_cons] at h
    rcases List.mem_cons.1 h with rfl | h
    · use a
      rfl
    · apply ih h

/-- A pass rejects a plugin exactly if it finds an error. -/
theorem rejected_iff_of_mem {a : Assembly} {names : List String} {v : Verdict}
    (h : v ∈ (l.loadEach a names).1) :
  v.status = .rejected ↔ ∃ i ∈ v.issues, i.severity = .error
  := by
  obtain ⟨b, hb⟩ := l.exists_eq_verdict h
  rw [hb]
  apply rejected_verdict_iff

end Loader

namespace Manager

variable {σ : Type} {m : Manager σ}

/-! ### The verdicts of a validation -/

/-- A report on a pass, made in a session of any kind, has the verdicts of a loader on the plugins
of the pass.  The world stays as it is. -/
theorem verdicts_of_loadNames {s t : Session σ} {tree : CommandTree} {names : List String}
    {report : Report}
    (h : (do return Report.mk (← m.loadNames tree names).1 : Attempt (Session σ) Report).outcome s
      = (.ok report, t)) :
  (∃ (l : Loader) (a : Assembly), report.verdicts = (l.loadEach a names).1) ∧ m.files t = m.files s
  := by
  obtain ⟨world, ⟨hostPackage, hostRoot, shared⟩, log⟩ := s
  cases shared with
  | some packages => cases h
  | none =>
    cases h
    exact ⟨⟨_, _, rfl⟩, rfl⟩

/-- A report is on the plugin asked for, or on all those in the store, and has the verdicts of a
loader on them. -/
theorem verdicts_of_validate {s t : Session σ} {name : Option String} {report : Report}
    (h : (m.validate name).outcome s = (.ok report, t)) :
  ∃ plugins, m.store.read (m.files t) = .ok plugins ∧ ∃ (l : Loader) (a : Assembly),
    report.verdicts = (l.loadEach a (name.elim plugins.names fun n => [n])).1
  := by
  rw [validate, Attempt.outcome_bind] at h
  split at h
  · next plugins start hload =>
    have hread := Store.read_of_load (load_of_inventory hload)
    use plugins
    cases name with
    | none =>
      obtain ⟨⟨l, a, hverdicts⟩, hfiles⟩ := verdicts_of_loadNames h
      rw [hfiles]
      use hread, l, a, hverdicts
    | some name =>
      dsimp only at h
      split at h
      · obtain ⟨⟨l, a, hverdicts⟩, hfiles⟩ := verdicts_of_loadNames h
        rw [hfiles]
        use hread, l, a, hverdicts
      · cases h
  · cases h

/-- No plugin is rejected without an error in the report, and none is accepted with one, whatever
was recorded in the session before.  So a report counts no errors exactly if it accepts all its
plugins, and exactly then it passes where only errors count against it. -/
theorem rejected_iff_error_in_report {s t : Session σ} {name : Option String} {report : Report}
    (h : (m.validate name).outcome s = (.ok report, t)) :
  (∃ plugins, m.store.read (m.files t) = .ok plugins
      ∧ report.verdicts.map (·.name) = name.elim plugins.names fun n => [n])
    ∧ (∀ v ∈ report.verdicts, v.status = .rejected ↔ ∃ i ∈ v.issues, i.severity = .error)
    ∧ (report.count .error = 0 ↔ ∀ v ∈ report.verdicts, v.status = .accepted)
    ∧ (report.passes true false = true ↔ ∀ v ∈ report.verdicts, v.status = .accepted)
  := by
  obtain ⟨plugins, hread, l, a, hverdicts⟩ := verdicts_of_validate h
  have hrejected : ∀ v ∈ report.verdicts,
      v.status = .rejected ↔ ∃ i ∈ v.issues, i.severity = .error := by
    intro v hv
    rw [hverdicts] at hv
    apply l.rejected_iff_of_mem hv
  have hcount : report.count .error = 0 ↔ ∀ v ∈ report.verdicts, v.status = .accepted := by
    rw [Report.count_eq_zero_iff]
    apply forall₂_congr
    intro v hv
    rw [← Status.ne_rejected_iff, ne_eq, hrejected v hv]
    simp
  refine ⟨⟨plugins, hread, ?_⟩, hrejected, hcount, ?_⟩
  · rw [hverdicts, l.names_verdicts]
  · rw [Report.passes_errors_iff, hcount]

/-- A session with the sample plugins and an old error about the first of them. -/
def staleStart : Session Shelf :=
  { sampleStart with log := sampleStart.log.record "data" .error "-" }

/-- Validating the sample plugins in that session accepts the first and the last. -/
theorem validate_staleStart :
  ∃ verdicts t, (sample.validate none).outcome staleStart = (.ok ⟨verdicts⟩, t)
    ∧ verdicts.map (·.status) = [.accepted, .rejected, .accepted]
  := by
  have hload : sample.store.load.outcome (sample.files staleStart)
      = (.ok Inventory.sample, Files.sample) := Store.load_of_read read_sample
  have hidle : sample.Idle staleStart := rfl
  obtain ⟨t, hvalidate, -⟩ := validate_of_load hidle hload
  use ((sample.loader Files.sample).passOver sample.host.commandTree staleStart.log
    Inventory.sample).1, t, hvalidate
  apply statuses_passOver_sample

/-- The report on the sample plugins rejects the second, for which it has an error, and accepts
the first although there was an error about it before. -/
theorem rejected_iff_error_in_report_of_sample :
  ∃ report t, (sample.validate none).outcome staleStart = (.ok report, t)
    ∧ report.verdicts.map (·.status) = [.accepted, .rejected, .accepted]
    ∧ (∀ v ∈ report.verdicts, v.status = .rejected ↔ ∃ i ∈ v.issues, i.severity = .error)
    ∧ report.count .error ≠ 0 ∧ report.passes true false = false
  := by
  obtain ⟨verdicts, t, hvalidate, hstatuses⟩ := validate_staleStart
  obtain ⟨-, hrejected, hcount, hpasses⟩ := rejected_iff_error_in_report hvalidate
  have hsome : ¬ ∀ v ∈ verdicts, v.status = .accepted := by
    intro h
    have hmem : Status.rejected ∈ verdicts.map (·.status) := by
      rw [hstatuses]
      decide
    obtain ⟨v, hv, hstatus⟩ := List.mem_map.1 hmem
    rw [h v hv] at hstatus
    cases hstatus
  refine ⟨⟨verdicts⟩, t, hvalidate, hstatuses, hrejected, ?_, ?_⟩
  · intro hnone
    apply hsome (hcount.1 hnone)
  · rw [← Bool.not_eq_true]
    intro hpass
    apply hsome (hpasses.1 hpass)

end Manager

end PluginHost

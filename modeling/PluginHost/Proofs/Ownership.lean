import PluginHost.Proofs.Acceptance
import PluginHost.Proofs.Independence

/-!
# The owners of profile types

Nothing is found about the profiles of a plugin beside some known types exactly if the plugin
owns its types (`ProfileType.findings_eq_nil_iff`): every profile has a type, no type occurs
twice, and none is known.  The known types of a pass are those of the host and of the plugins
accepted so far.  So at the end of the pass every type has one owner, and a plugin that is
rejected takes no type from a later one (`Loader.profile_types_have_one_owner`).
-/

namespace PluginHost

/-! ### Profiles about which nothing is found -/

namespace ProfileType

/-- What is known of the profiles of a plugin that owns their types beside some known ones. -/
structure Owns (known : List String) (profiles : List ProfileType) : Prop where
  typed : ∀ p ∈ profiles, p.type ≠ none
  distinct : (profiles.filterMap (·.type)).Nodup
  unknown : ∀ type ∈ profiles.filterMap (·.type), type ∉ known

/-- A plugin that owns its types beside some known ones owns them beside fewer. -/
theorem Owns.mono {known more : List String} {profiles : List ProfileType}
    (h : Owns more profiles) (hsub : known ⊆ more) :
  Owns known profiles
  := by
  use h.typed, h.distinct
  intro type htype hknown
  apply h.unknown type htype (hsub hknown)

theorem untypedFindings_eq_nil_iff {profiles : List ProfileType} :
  untypedFindings profiles = [] ↔ ∀ p ∈ profiles, p.type ≠ none
  := by
  have hfrom : ∀ k, (profiles.zipIdx k).filterMap (fun e =>
      if e.1.type.isNone then some (Finding.untypedProfile e.2) else none) = []
      ↔ ∀ p ∈ profiles, p.type ≠ none := by
    induction profiles with
    | nil => simp
    | cons p rest ih =>
      intro k
      rw [List.zipIdx_cons, List.forall_mem_cons, ← ih (k + 1)]
      cases hp : p.type <;> simp [hp]
  apply hfrom 0

/-- The types of profiles stay as they are beside their indices. -/
theorem map_typesFrom (index : Nat) (profiles : List ProfileType) :
  (typesFrom index profiles).map (·.1) = profiles.filterMap (·.type)
  := by
  induction profiles generalizing index with
  | nil => rfl
  | cons p rest ih =>
    have hrest := ih (index + 1)
    unfold typesFrom at hrest ⊢
    rw [List.zipIdx_cons]
    cases hp : p.type <;> simp [hp, hrest]

theorem repeatedFindings_eq_nil_iff {entries : List (String × Nat)} :
  repeatedFindings entries = [] ↔ (entries.map (·.1)).Nodup
  := by
  induction entries with
  | nil => simp [repeatedFindings]
  | cons e rest ih =>
    obtain ⟨type, i⟩ := e
    rw [repeatedFindings, List.append_eq_nil_iff, ih, List.map_cons, List.nodup_cons]
    apply and_congr_left
    intro _
    rw [List.filterMap_eq_nil_iff]
    constructor
    · intro h hmem
      obtain ⟨⟨other, j⟩, he, rfl⟩ := List.mem_map.1 hmem
      simpa using h _ he
    · rintro h ⟨other, j⟩ he
      have hne : other ≠ type := by
        rintro rfl
        apply h (List.mem_map.2 ⟨_, he, rfl⟩)
      simp [hne]

theorem knownFindings_eq_nil_iff {known : List String} {profiles : List ProfileType} :
  knownFindings known profiles = [] ↔ ∀ type ∈ profiles.filterMap (·.type), type ∉ known
  := by
  rw [knownFindings, List.filterMap_eq_nil_iff]
  simp

/-- Nothing is found about the profiles of a plugin exactly if it owns their types. -/
theorem findings_eq_nil_iff {known : List String} {profiles : List ProfileType} :
  findings known profiles = [] ↔ Owns known profiles
  := by
  rw [findings, List.append_eq_nil_iff, List.append_eq_nil_iff, untypedFindings_eq_nil_iff,
    repeatedFindings_eq_nil_iff, map_typesFrom, knownFindings_eq_nil_iff]
  constructor
  · rintro ⟨⟨htyped, hdistinct⟩, hunknown⟩
    use htyped, hdistinct
  · rintro ⟨htyped, hdistinct, hunknown⟩
    use ⟨htyped, hdistinct⟩

theorem exists_of_mem_repeatedFindings {entries : List (String × Nat)} {f : Finding}
    (h : f ∈ repeatedFindings entries) :
  ∃ type first second, f = .repeatedProfile type first second
  := by
  induction entries with
  | nil => cases h
  | cons e rest ih =>
    rcases List.mem_append.1 h with h | h
    · obtain ⟨other, -, hother⟩ := List.mem_filterMap.1 h
      obtain ⟨-, hf⟩ := Option.ite_none_right_eq_some.1 hother
      cases hf
      exact ⟨_, _, _, rfl⟩
    · apply ih h

/-- What can be found about the profiles of a plugin; a type is found to be known only if it
is. -/
theorem cases_of_mem_findings {known : List String} {profiles : List ProfileType} {f : Finding}
    (h : f ∈ findings known profiles) :
  (∃ index, f = .untypedProfile index)
    ∨ (∃ type first second, f = .repeatedProfile type first second)
    ∨ ∃ type ∈ known, f = .knownProfile type
  := by
  rw [findings, List.mem_append, List.mem_append] at h
  obtain (huntyped | hrepeated) | hknown := h
  · left
    obtain ⟨e, -, he⟩ := List.mem_filterMap.1 huntyped
    obtain ⟨-, hf⟩ := Option.ite_none_right_eq_some.1 he
    cases hf
    use e.2
  · right
    left
    apply exists_of_mem_repeatedFindings hrepeated
  · right
    right
    obtain ⟨type, -, htype⟩ := List.mem_filterMap.1 hknown
    obtain ⟨hcontains, hf⟩ := Option.ite_none_right_eq_some.1 htype
    cases hf
    use type, List.contains_iff_mem.1 hcontains

/-- Whatever is wrong with the profiles of a plugin keeps it out. -/
theorem severity_of_mem_findings {known : List String} {profiles : List ProfileType}
    {f : Finding} (h : f ∈ findings known profiles) :
  f.severity = .error
  := by
  obtain ⟨index, rfl⟩ | ⟨type, first, second, rfl⟩ | ⟨type, -, rfl⟩ := cases_of_mem_findings h
  · rfl
  · rfl
  · rfl

end ProfileType

namespace Loader

variable (l : Loader)

/-! ### Accepted plugins own their types -/

/-- An accepted plugin owns its types beside the known ones. -/
theorem owns_of_accepted {tree : CommandTree} {known : List String} {plugin : String}
    (h : (l.verdict tree known plugin).status = .accepted) :
  ∃ m, l.library.manifestFor l.files plugin = .ok m ∧ ProfileType.Owns known m.profiles
  := by
  have herror := l.no_error_of_accepted h
  obtain ⟨m, ds, hfits⟩ := l.fits_of_no_error herror
  use m, hfits.manifest
  rw [l.findings_of_manifest hfits.manifest] at herror
  simp only [manifestFindings, lateFindings, Finding.anyError_append,
    Bool.or_eq_false_iff] at herror
  obtain ⟨-, ⟨-, hprofiles⟩, -⟩ := herror
  rw [← ProfileType.findings_eq_nil_iff, List.eq_nil_iff_forall_not_mem]
  intro f hf
  rw [Finding.anyError_of_mem hf (ProfileType.severity_of_mem_findings hf)] at hprofiles
  cases hprofiles

/-- Every plugin that a pass accepts owns its types beside those known before the pass. -/
theorem owns_of_mem {a : Assembly} {names : List String} {v : Verdict}
    (hv : v ∈ (l.loadEach a names).1) (h : v.status = .accepted) :
  ∃ m, l.library.manifestFor l.files v.name = .ok m ∧ ProfileType.Owns a.known m.profiles
  := by
  induction names generalizing a with
  | nil => cases hv
  | cons plugin rest ih =>
    rw [verdicts_cons] at hv
    rcases List.mem_cons.1 hv with rfl | hv
    · apply l.owns_of_accepted h
    · obtain ⟨m, hm, howns⟩ := ih hv
      use m, hm
      rw [known_load] at howns
      apply howns.mono (List.subset_append_left _ _)

/-- No two plugins that a pass accepts have a type in common. -/
theorem pairwise_types (a : Assembly) (names : List String) :
  (l.loadEach a names).1.Pairwise fun v w => v.status = .accepted → w.status = .accepted →
    ∀ type ∈ l.typesOf [v.name], type ∉ l.typesOf [w.name]
  := by
  induction names generalizing a with
  | nil => apply List.Pairwise.nil
  | cons plugin rest ih =>
    rw [verdicts_cons, List.pairwise_cons]
    use fun w hw hv hacc type htype => ?_, ih _
    -- the types of the first plugin are known when the later ones are decided about
    obtain ⟨m, hm, howns⟩ := l.owns_of_mem hw hacc
    rw [l.typesOf_singleton hm]
    intro hmem
    apply howns.unknown type hmem
    rw [known_load, Verdict.acceptedNames_of_accepted hv]
    apply List.mem_append_right _ htype

/-! ### The types of rejected plugins -/

theorem verdictAfter_nil (a : Assembly) (plugin : String) :
  l.verdictAfter a [] plugin = l.verdict a.tree a.known plugin
  := by
  change l.verdict (a.tree.grow []) (a.known ++ []) plugin = _
  rw [CommandTree.grow_nil, List.append_nil]

/-- What counts after a plugin has been loaded is that plugin, if it is accepted, and those
accepted later. -/
theorem verdictAfter_load (a : Assembly) (plugin other : String) (accepted : List String) :
  l.verdictAfter (l.load a plugin).2 accepted other
    = l.verdictAfter a (Verdict.acceptedNames [l.verdict a.tree a.known plugin] ++ accepted) other
  := by
  rw [verdictAfter, verdictAfter, tree_load, known_load, groupsOf_append, typesOf_append,
    CommandTree.grow_append, List.append_assoc]

/-- The verdict on a plugin of a pass is made beside the groups and the types of the plugins
accepted before it. -/
theorem eq_verdictAfter {a : Assembly} {names : List String} {before after : List Verdict}
    {v : Verdict} (h : (l.loadEach a names).1 = before ++ v :: after) :
  v = l.verdictAfter a (Verdict.acceptedNames before) v.name
  := by
  induction before generalizing a names with
  | nil =>
    cases names with
    | nil => cases h
    | cons plugin rest =>
      rw [verdicts_cons] at h
      obtain ⟨rfl, -⟩ := List.cons.inj h
      symm
      apply l.verdictAfter_nil
  | cons w before ih =>
    cases names with
    | nil => cases h
    | cons plugin rest =>
      rw [verdicts_cons] at h
      obtain ⟨rfl, hrest⟩ := List.cons.inj h
      rw [Verdict.acceptedNames_cons, ← verdictAfter_load]
      apply ih hrest

/-- What is found about a plugin before its profile types are looked at has nothing to do with
known ones. -/
theorem knownProfile_not_mem_openingFindings (tree : CommandTree) (m : Manifest)
    (type : String) :
  Finding.knownProfile type ∉ l.openingFindings tree m
  := by
  have hmanifest : Finding.knownProfile type ∉ m.findings (l.locate m.root) := by
    unfold Manifest.findings Manifest.descriptionFindings Manifest.healthFindings
      Manifest.definitionFindings
    grind
  have hlist : Finding.knownProfile type
      ∉ Definition.listFindings (l.locate m.root) m.root 1 0 (m.definitions.getD []) := by
    intro h
    obtain ⟨d, -, i, hi⟩ := Definition.exists_of_mem_listFindings h
    obtain ⟨place, what, hdefect⟩ := Definition.exists_defect_of_mem_findings d hi
    cases hdefect
  unfold openingFindings earlyFindings structuralFindings clashFindings adoptionFindings
  grind

/-- A type can be found to be known only if it is. -/
theorem mem_of_knownProfile_mem {tree : CommandTree} {known : List String}
    {plugin type : String} (h : Finding.knownProfile type ∈ l.findings tree known plugin) :
  type ∈ known
  := by
  cases hm : l.library.manifestFor l.files plugin with
  | error reason =>
    rw [l.findings_of_no_manifest hm] at h
    simp at h
  | ok m =>
    rw [l.findings_of_manifest hm, manifestFindings, List.mem_append] at h
    rcases h with hopening | hlate
    · cases l.knownProfile_not_mem_openingFindings tree m type hopening
    · have hprofiles : Finding.knownProfile type ∈ ProfileType.findings known m.profiles := by
        unfold lateFindings rangeFindings at hlate
        grind
      obtain ⟨_, hf⟩ | ⟨_, _, _, hf⟩ | ⟨other, hother, hf⟩ :=
        ProfileType.cases_of_mem_findings hprofiles
      · cases hf
      · cases hf
      · cases hf
        apply hother

/-- The types that some accepted plugins add are each declared by one of them. -/
theorem exists_of_mem_typesOf {vs : List Verdict} {type : String}
    (h : type ∈ l.typesOf (Verdict.acceptedNames vs)) :
  ∃ v ∈ vs, v.status = .accepted ∧ type ∈ l.typesOf [v.name]
  := by
  obtain ⟨plugin, hplugin, htype⟩ := List.mem_flatMap.1 h
  obtain ⟨v, hv, rfl⟩ := List.mem_map.1 hplugin
  obtain ⟨hv, hstatus⟩ := List.mem_filter.1 hv
  use v, hv, eq_of_beq hstatus
  apply List.mem_flatMap.2 ⟨v.name, List.mem_cons_self, htype⟩

/-- Profile types have one owner at the end of every pass.  An accepted plugin has a type in each
of its profiles, none of them twice and none that the host defines, and no two accepted plugins
have one in common.  What is found about a plugin is found beside the types of the host and of
the plugins accepted before it, and only one of these is found to be known: a type of rejected
plugins alone is no error of another. -/
theorem profile_types_have_one_owner (l : Loader) (tree : CommandTree) (log : IssueLog)
    (names : List String) :
  let verdicts := (l.loadEach ⟨tree, l.host.profileTypes, log⟩ names).1
  (∀ v ∈ verdicts, v.status = .accepted →
      ∃ m, l.library.manifestFor l.files v.name = .ok m
        ∧ ProfileType.Owns l.host.profileTypes m.profiles)
    ∧ verdicts.Pairwise (fun v w => v.status = .accepted → w.status = .accepted →
      ∀ type ∈ l.typesOf [v.name], type ∉ l.typesOf [w.name])
    ∧ ∀ before v after, verdicts = before ++ v :: after →
      let accepted := Verdict.acceptedNames before
      let found := l.findings (tree.grow (l.groupsOf accepted))
        (l.host.profileTypes ++ l.typesOf accepted) v.name
      v.status = statusOf found ∧ v.issues = found.map (Finding.issue v.name)
        ∧ ∀ type, .knownProfile type ∈ found → type ∈ l.host.profileTypes
          ∨ ∃ w ∈ before, w.status = .accepted ∧ type ∈ l.typesOf [w.name]
  := by
  intro verdicts
  use fun v hv hstatus => l.owns_of_mem hv hstatus, l.pairwise_types _ names
  intro before v after hverdicts accepted found
  have hv : v = l.verdictAfter ⟨tree, l.host.profileTypes, log⟩ accepted v.name :=
    l.eq_verdictAfter hverdicts
  use congrArg Verdict.status hv, congrArg Verdict.issues hv
  intro type htype
  rcases List.mem_append.1 (l.mem_of_knownProfile_mem htype) with hhost | haccepted
  · left
    apply hhost
  · right
    apply l.exists_of_mem_typesOf haccepted

/-- The third sample plugin is accepted and owns the type that the second one, which is rejected,
defines too. -/
theorem profile_types_have_one_owner_of_sample :
  (sample.loadEach Assembly.sample ["data", "extra", "log"]).1.map (·.status)
      = [.accepted, .rejected, .accepted]
    ∧ sample.typesOf ["extra"] = ["note"] ∧ sample.typesOf ["log"] = ["note"]
    ∧ ∃ m, sample.library.manifestFor sample.files "log" = .ok m
      ∧ ProfileType.Owns Host.sample.profileTypes m.profiles
  := by
  have hlog : ∃ v ∈ (sample.loadEach Assembly.sample ["data", "extra", "log"]).1,
      v.name = "log" ∧ v.status = .accepted := by decide +kernel
  obtain ⟨v, hv, hname, hstatus⟩ := hlog
  use statuses_sample, by decide +kernel, by decide +kernel
  rw [← hname]
  apply (profile_types_have_one_owner sample Host.sample.commandTree ByName.empty
    ["data", "extra", "log"]).1 v hv hstatus

end Loader

end PluginHost

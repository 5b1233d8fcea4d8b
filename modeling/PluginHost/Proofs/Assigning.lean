import Mathlib.Tactic.Use
import PluginHost.Proofs.LocatorText
import PluginHost.Proofs.Sharing
import PluginHost.Settings.Value
import PluginHost.Url.CodedNames

/-!
# Changing single settings

Settings are `Usable` exactly if a check finds nothing wrong with them, and `Assigned` lists the ways in
which a single setting can be changed.  Each of them leaves usable settings, but for a list of modules
in brackets: an empty or blank module between commas is left out, one in an array is not
(`Settings.assigning_keeps_usable_iff`).
-/

namespace PluginHost.Settings

variable {s s' : Settings} {name text : String} {key : SettingsKey}

/-! ### Settings that can be used -/

/-- Whether the settings that are single texts can be used. -/
structure UsableTexts [DomainNames] (s : Settings) : Prop where
  packageManager : Text.isBlankText s.packageManager = false
  registry : ∀ text ∈ s.registry, (Url.read text).isOk = true
  installRoot : ∀ path ∈ s.installRoot, path.isAbsolute = true

/-- Whether settings can be used. -/
structure Usable [DomainNames] (s : Settings) : Prop extends UsableTexts s where
  sharedModules : ∀ m ∈ s.sharedModules, Text.isBlankText m = false

/-- The default settings can be used. -/
theorem usable_default [DomainNames] :
  default.Usable
  := by
  constructor
  · constructor
    · decide
    · rintro _ ⟨⟩
    · rintro _ ⟨⟩
  · rintro _ ⟨⟩

theorem readRegistry_eq_ok_iff [DomainNames] {url : String} :
  readRegistry text = .ok url ↔ url = text ∧ (Url.read text).isOk = true
  := by
  rw [readRegistry]
  cases Url.read text with
  | error reason => simp [Except.isOk, Except.toBool]
  | ok u => simp [Except.isOk, Except.toBool, eq_comm]

/-- Of settings whose single texts can be used, the check looks at the modules. -/
theorem check_of_usableTexts [DomainNames] (h : s.UsableTexts) :
  s.check
    = match s.sharedModules.findIdx? Text.isBlankText with
      | some index => .error (.blankModule index)
      | none => .ok ()
  := by
  obtain ⟨packageManager, registry, installRoot, modules, failOnWarning⟩ := s
  obtain ⟨hmanager, hregistry, hroot⟩ := h
  have hread : ∀ text ∈ registry, readRegistry text = .ok text := by
    intro text htext
    apply readRegistry_eq_ok_iff.2 ⟨rfl, hregistry text htext⟩
  cases registry with
  | none =>
    cases installRoot with
    | none => simp only [check, hmanager]; rfl
    | some path => simp only [check, hmanager, hroot path rfl]; rfl
  | some text =>
    cases installRoot with
    | none => simp only [check, hmanager, hread text rfl]; rfl
    | some path => simp only [check, hmanager, hread text rfl, hroot path rfl]; rfl

/-- A check that finds nothing wrong has looked at the single texts. -/
theorem usableTexts_of_check [DomainNames] (h : s.check = .ok ()) :
  s.UsableTexts
  := by
  obtain ⟨packageManager, registry, installRoot, modules, failOnWarning⟩ := s
  have hmanager : Text.isBlankText packageManager = false := by
    apply eq_false_of_ne_true
    intro hblank
    simp only [check, hblank] at h
    cases h
  have hregistry : ∀ text ∈ registry, ∃ url, readRegistry text = .ok url := by
    rintro text rfl
    cases hread : readRegistry text with
    | ok url => exact ⟨url, rfl⟩
    | error reason =>
      simp only [check, hmanager, hread] at h
      cases h
  refine ⟨hmanager, ?_, ?_⟩
  · intro text htext
    obtain ⟨url, hread⟩ := hregistry text htext
    apply (readRegistry_eq_ok_iff.1 hread).2
  · rintro path rfl
    apply eq_true_of_ne_false
    intro hrelative
    cases registry with
    | none =>
      simp only [check, hmanager, hrelative] at h
      cases h
    | some text =>
      obtain ⟨url, hread⟩ := hregistry text rfl
      simp only [check, hmanager, hread, hrelative] at h
      cases h

/-- A check finds nothing wrong with settings exactly if they can be used. -/
theorem check_eq_ok_iff [DomainNames] :
  s.check = .ok () ↔ s.Usable
  := by
  have hmodules : s.UsableTexts → (s.check = .ok ()
      ↔ ∀ m ∈ s.sharedModules, Text.isBlankText m = false) := by
    intro htexts
    rw [check_of_usableTexts htexts, ← List.findIdx?_eq_none_iff]
    cases s.sharedModules.findIdx? Text.isBlankText <;> simp
  constructor
  · intro h
    have htexts := usableTexts_of_check h
    exact ⟨htexts, (hmodules htexts).1 h⟩
  · rintro ⟨htexts, h⟩
    apply (hmodules htexts).2 h

/-! ### Modules between commas -/

/-- Whether a module can be told from others in a list between commas. -/
structure Listable (m : String) : Prop where
  ne_empty : m ≠ ""
  trimmed : Text.Trimmed m.toList
  noComma : ',' ∉ m.toList

/-- What can be told from others begins with a character that is not blank. -/
theorem Listable.exists_cons {m : String} (h : Listable m) :
  ∃ c rest, m.toList = c :: rest ∧ Text.isBlank c = false
  := by
  obtain ⟨c, rest, hm⟩ := List.exists_cons_of_ne_nil (mt String.toList_eq_nil_iff.1 h.ne_empty)
  exact ⟨c, rest, hm, h.trimmed.head c (by rw [hm]; rfl)⟩

theorem Listable.isBlankText {m : String} (h : Listable m) :
  Text.isBlankText m = false
  := by
  obtain ⟨c, rest, hm, hc⟩ := h.exists_cons
  rw [Text.isBlankText, hm]
  simp [hc]

/-- The modules that are read between commas can be told from one another. -/
theorem listable_of_mem_splitModules {m : String} (h : m ∈ splitModules text) :
  Listable m
  := by
  obtain ⟨cs, hcs, hm⟩ := List.mem_filterMap.1 h
  obtain ⟨piece, hpiece, rfl⟩ := List.mem_map.1 hcs
  by_cases hempty : (Text.trimChars piece).isEmpty
  · simp [hempty] at hm
  obtain rfl : String.ofList (Text.trimChars piece) = m := by simpa [hempty] using hm
  constructor
  · simpa using hempty
  · rw [String.toList_ofList]
    apply Text.trimmed_trimChars
  · rw [String.toList_ofList]
    intro hcomma
    obtain ⟨before, after, hsurrounded, -, -⟩ := Text.exists_blanks piece
    apply Text.not_mem_of_mem_splitOn hpiece
    rw [hsurrounded]
    simp [hcomma]

/-! ### The ways to change a setting -/

/-- Whether the modules of a text are in brackets rather than between commas. -/
def InBrackets (text : String) : Prop := (Text.trimStartChars text.toList).head? = some '['

instance (text : String) : Decidable (InBrackets text) := inferInstanceAs (Decidable (_ = _))

/-- A list of modules is what brackets spell, or what is between commas. -/
theorem readModules_eq_ok_iff {modules : List String} :
  readModules text = .ok modules
    ↔ (InBrackets text ∧ readModules? text = some modules)
      ∨ (¬ InBrackets text ∧ splitModules text = modules)
  := by
  rw [readModules]
  split
  · next hbrackets =>
    have hbrackets : InBrackets text := hbrackets
    cases readModules? text with
    | none => simp [hbrackets]
    | some found => simp [hbrackets]
  · next hbrackets =>
    have hbrackets : ¬ InBrackets text := hbrackets
    simp [hbrackets]

/-- What the settings become when that of a key is changed to what a text says. -/
inductive Assigned [DomainNames] (s : Settings) : SettingsKey → String → Settings → Prop where
  | packageManager {text : String} (h : Text.isBlankText text = false) :
    Assigned s .packageManager text { s with packageManager := text }
  | noRegistry : Assigned s .registry "" { s with registry := none }
  | registry {text : String} (hne : text ≠ "") (h : (Url.read text).isOk = true) :
    Assigned s .registry text { s with registry := some text }
  | noInstallRoot : Assigned s .installRoot "" { s with installRoot := none }
  | installRoot {text : String} (hne : text ≠ "") (h : Path.isAbsolute ⟨text⟩ = true) :
    Assigned s .installRoot text { s with installRoot := some ⟨text⟩ }
  | modulesInBrackets {text : String} {modules : List String} (h : InBrackets text)
      (hread : readModules? text = some modules) :
    Assigned s .sharedModules text { s with sharedModules := modules }
  | modules {text : String} (h : ¬ InBrackets text) :
    Assigned s .sharedModules text { s with sharedModules := splitModules text }
  | failOnWarning (b : Bool) : Assigned s .failOnWarning (boolText b) { s with failOnWarning := b }

/-- A change of a key has a result in the ways that are listed. -/
theorem assignKey_eq_ok_iff [DomainNames] :
  s.assignKey key text = .ok s' ↔ s.Assigned key text s'
  := by
  constructor
  · intro h
    cases key with
    | packageManager =>
      rw [assignKey] at h
      split at h
      · cases h
      · next hblank =>
        cases h
        apply Assigned.packageManager (eq_false_of_ne_true hblank)
    | registry =>
      rw [assignKey] at h
      split at h
      · next hempty =>
        cases h
        subst hempty
        apply Assigned.noRegistry
      · next hne =>
        cases hread : readRegistry text with
        | error reason =>
          rw [hread] at h
          cases h
        | ok url =>
          rw [hread] at h
          obtain ⟨rfl, hok⟩ := readRegistry_eq_ok_iff.1 hread
          cases h
          apply Assigned.registry hne hok
    | installRoot =>
      rw [assignKey] at h
      split at h
      · next hempty =>
        cases h
        subst hempty
        apply Assigned.noInstallRoot
      · next hne =>
        split at h
        · next habsolute =>
          cases h
          apply Assigned.installRoot hne habsolute
        · cases h
    | sharedModules =>
      rw [assignKey] at h
      cases hread : readModules text with
      | error reason =>
        rw [hread] at h
        cases h
      | ok modules =>
        rw [hread] at h
        cases h
        rcases readModules_eq_ok_iff.1 hread with ⟨hbrackets, hread⟩ | ⟨hbrackets, rfl⟩
        · apply Assigned.modulesInBrackets hbrackets hread
        · apply Assigned.modules hbrackets
    | failOnWarning =>
      rw [assignKey] at h
      split at h
      · next htrue =>
        cases h
        subst htrue
        apply Assigned.failOnWarning true
      · split at h
        · next hfalse =>
          cases h
          subst hfalse
          apply Assigned.failOnWarning false
        · cases h
  · rintro (hblank | - | ⟨hne, hok⟩ | - | ⟨hne, habsolute⟩ | ⟨hbrackets, hread⟩ | hbrackets | b)
    · simp [assignKey, hblank]
    · simp [assignKey]
    · rw [assignKey, if_neg hne, readRegistry_eq_ok_iff.2 ⟨rfl, hok⟩]
      rfl
    · simp [assignKey]
    · rw [assignKey, if_neg hne, if_pos habsolute]
    · rw [assignKey, readModules_eq_ok_iff.2 (.inl ⟨hbrackets, hread⟩)]
      rfl
    · rw [assignKey, readModules_eq_ok_iff.2 (.inr ⟨hbrackets, rfl⟩)]
      rfl
    · cases b <;> rfl

/-- A change by name is one of a key. -/
theorem assign_eq_ok_iff [DomainNames] :
  s.assign name text = .ok s'
    ↔ ∃ key, SettingsKey.ofName? name = some key ∧ s.Assigned key text s'
  := by
  rw [assign, keyOf]
  cases SettingsKey.ofName? name with
  | none => simp [bind, Except.bind]
  | some key =>
    simp only [Option.some_inj, exists_eq_left']
    apply assignKey_eq_ok_iff

/-- A key has the name by which it is found. -/
theorem name_of_ofName? (h : SettingsKey.ofName? name = some key) :
  key.name = name
  := by simpa using List.find?_some h

/-- A change of any setting keeps single texts that can be used. -/
theorem Assigned.usableTexts [DomainNames] (h : s.Assigned key text s') (hs : s.UsableTexts) :
  s'.UsableTexts
  := by
  obtain ⟨hmanager, hregistry, hroot⟩ := hs
  cases h with
  | packageManager h => exact ⟨h, hregistry, hroot⟩
  | noRegistry => exact ⟨hmanager, by rintro _ ⟨⟩, hroot⟩
  | registry hne h =>
    refine ⟨hmanager, ?_, hroot⟩
    rintro _ ⟨rfl⟩
    apply h
  | noInstallRoot => exact ⟨hmanager, hregistry, by rintro _ ⟨⟩⟩
  | installRoot hne h =>
    refine ⟨hmanager, hregistry, ?_⟩
    rintro _ ⟨rfl⟩
    apply h
  | modulesInBrackets h hread => exact ⟨hmanager, hregistry, hroot⟩
  | modules h => exact ⟨hmanager, hregistry, hroot⟩
  | failOnWarning b => exact ⟨hmanager, hregistry, hroot⟩

/-! ### Settings that can no longer be used -/

/-- Whether a change by name is to a list of modules in brackets, one of which is blank. -/
def BlankInBrackets (name text : String) : Prop :=
  name = SettingsKey.sharedModules.name ∧ InBrackets text
    ∧ ∃ modules, readModules? text = some modules ∧ ∃ m ∈ modules, Text.isBlankText m = true

/-- A change that is not to such a list keeps modules that can be used. -/
theorem Assigned.usable_or [DomainNames] (h : s.Assigned key text s') (hs : s.Usable) :
  s'.Usable ∨ BlankInBrackets key.name text
  := by
  have htexts := h.usableTexts hs.toUsableTexts
  cases h with
  | @modulesInBrackets _ modules h hread =>
    by_cases hblank : ∃ m ∈ modules, Text.isBlankText m = true
    · right
      exact ⟨rfl, h, modules, hread, hblank⟩
    · left
      refine ⟨htexts, fun m hm => eq_false_of_ne_true fun hm' => hblank ⟨m, hm, hm'⟩⟩
  | modules h =>
    left
    exact ⟨htexts, fun m hm => (listable_of_mem_splitModules hm).isBlankText⟩
  | _ =>
    left
    exact ⟨htexts, hs.sharedModules⟩

/-- A change to such a list leaves settings that cannot be used. -/
theorem Assigned.not_usable [DomainNames] (h : s.Assigned key text s')
    (hblank : BlankInBrackets key.name text) :
  ¬ s'.Usable
  := by
  obtain ⟨hname, hbrackets, modules, hread, m, hm, hm'⟩ := hblank
  rintro ⟨-, hmodules⟩
  cases h with
  | modulesInBrackets _ hread' =>
    obtain rfl := Option.some_inj.1 (hread.symm.trans hread')
    simp [hmodules m hm] at hm'
  | modules hnone => cases hnone hbrackets
  | _ => revert hname; decide

/-- A change of a single setting keeps settings that can be used exactly if it is not to a list of
modules in brackets with a blank one among them; otherwise the next check complains about the first
blank module. -/
theorem assigning_keeps_usable_iff [DomainNames] (hs : s.check = .ok ())
    (h : s.assign name text = .ok s') :
  (s'.check = .ok () ↔ ¬ BlankInBrackets name text)
    ∧ (BlankInBrackets name text → ∃ index,
      s'.sharedModules.findIdx? Text.isBlankText = some index
        ∧ s'.check = .error (.blankModule index))
  := by
  obtain ⟨key, hkey, hassigned⟩ := assign_eq_ok_iff.1 h
  obtain rfl := name_of_ofName? hkey
  have husable := check_eq_ok_iff.1 hs
  have hiff : s'.check = .ok () ↔ ¬ BlankInBrackets key.name text := by
    rw [check_eq_ok_iff]
    constructor
    · intro hs' hblank
      cases hassigned.not_usable hblank hs'
    · intro hblank
      apply (hassigned.usable_or husable).resolve_right hblank
  refine ⟨hiff, fun hblank => ?_⟩
  have hcheck := check_of_usableTexts (hassigned.usableTexts husable.toUsableTexts)
  cases hfirst : s'.sharedModules.findIdx? Text.isBlankText with
  | none =>
    rw [hfirst] at hcheck
    cases hiff.1 hcheck hblank
  | some index =>
    rw [hfirst] at hcheck
    exact ⟨index, rfl, hcheck⟩

attribute [local instance] Url.codedNames

/-- An empty module in brackets becomes a module of settings that cannot be used. -/
theorem empty_module_in_brackets_is_kept :
  Settings.default.check = .ok ()
    ∧ ∃ s', Settings.default.assign "sharedModules" "['']" = .ok s'
      ∧ s'.check = .error (.blankModule 0)
  := by
  refine ⟨check_eq_ok_iff.2 usable_default, { default with sharedModules := [""] }, ?_, ?_⟩
  · apply assign_eq_ok_iff.2
    refine ⟨.sharedModules, by decide, ?_⟩
    apply Assigned.modulesInBrackets (by decide)
    decide +kernel
  · apply check_of_usableTexts
    exact ⟨by decide, usable_default.registry, usable_default.installRoot⟩

/-- The default settings can still be used with the modules of a list between commas. -/
theorem assigning_keeps_usable_iff_of_listed :
  ∃ s', Settings.default.check = .ok () ∧ Settings.default.assign "sharedModules" "a, " = .ok s'
    ∧ (s'.check = .ok () ↔ ¬ BlankInBrackets "sharedModules" "a, ")
  := by
  have hs : Settings.default.check = .ok () := check_eq_ok_iff.2 usable_default
  have h : Settings.default.assign "sharedModules" "a, "
      = .ok { default with sharedModules := ["a"] } := rfl
  exact ⟨_, hs, h, (assigning_keeps_usable_iff hs h).1⟩

end PluginHost.Settings

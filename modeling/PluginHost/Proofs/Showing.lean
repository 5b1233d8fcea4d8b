import PluginHost.Proofs.Assigning

/-!
# Showing settings and setting what is shown

`Settings.Reached` holds of the settings that changes of single settings lead to from the default ones.
Each of them can be set again to the text that it is shown as, and nothing else is then shown than
before, but for the list of modules: it is shown with commas between the modules, whatever is in
them, so a list may be read back as another one, or not at all
(`Settings.shown_can_be_set_again_iff`).
-/

namespace PluginHost

namespace Text

/-- Joined texts are the pieces between the separators, if none of them has the separator in it. -/
theorem splitOn_intercalate {sep : Char} {texts : List (List Char)} (hne : texts ≠ [])
    (h : ∀ text ∈ texts, sep ∉ text) :
  splitOn sep ([sep].intercalate texts) = texts
  := by
  induction texts with
  | nil => cases hne rfl
  | cons text others ih =>
    have htext : splitOn sep text = [text] := splitOn_of_not_mem (h text List.mem_cons_self)
    cases others with
    | nil => rw [List.intercalate_singleton, htext]
    | cons other more =>
      rw [List.intercalate_cons_cons, List.append_assoc, List.singleton_append, splitOn_append, htext,
        ih (List.cons_ne_nil other more) (fun t ht => h t (List.mem_cons_of_mem text ht)),
        List.singleton_append]

/-- A text that begins and ends with characters that are not blank is left as it is. -/
theorem Trimmed.trimChars_eq {cs : List Char} (h : Trimmed cs) :
  trimChars cs = cs
  := by simpa using trimChars_surrounded blank_nil blank_nil h

end Text

namespace Settings

variable {s s' : Settings} {e : Environment} {name text : String} {key : SettingsKey}

/-! ### The shown list of modules -/

variable {modules : List String}

/-- The text that a list of modules is shown as. -/
def joined (modules : List String) : String := ",".intercalate modules

theorem toList_joined (modules : List String) :
  (joined modules).toList = [','].intercalate (modules.map String.toList)
  := String.toList_intercalate

/-- A list that is shown is found again between the commas exactly if each of its modules can be told
from others. -/
theorem splitModules_joined_iff :
  splitModules (joined modules) = modules ↔ ∀ m ∈ modules, Listable m
  := by
  constructor
  · intro h m hm
    rw [← h] at hm
    apply listable_of_mem_splitModules hm
  · intro h
    cases modules with
    | nil => rfl
    | cons first others =>
      have hpieces : ∀ piece ∈ (first :: others).map String.toList, ',' ∉ piece := by
        intro piece hpiece
        obtain ⟨m, hm, rfl⟩ := List.mem_map.1 hpiece
        apply (h m hm).noComma
      have hkept : ∀ m ∈ first :: others,
          (if (Text.trimChars m.toList).isEmpty then none
            else some (String.ofList (Text.trimChars m.toList))) = some m := by
        intro m hm
        rw [(h m hm).trimmed.trimChars_eq, if_neg, String.ofList_toList]
        simpa using (h m hm).ne_empty
      rw [splitModules, toList_joined, Text.splitOn_intercalate (by simp) hpieces, List.map_map,
        List.filterMap_map]
      simpa using List.filterMap_congr hkept

/-- Whether a list of modules is read back from the text that it is shown as. -/
def ReadBack (modules : List String) : Prop :=
  if InBrackets (joined modules) then readModules? (joined modules) = some modules
  else ∀ m ∈ modules, Listable m

theorem readModules_joined_iff :
  readModules (joined modules) = .ok modules ↔ ReadBack modules
  := by
  rw [readModules_eq_ok_iff, ReadBack]
  split
  · next h => simp [h]
  · next h => simp [h, splitModules_joined_iff]

/-- Modules that can be told from one another are read back, unless the first begins with a bracket. -/
theorem readBack_of_listable (h : ∀ m ∈ modules, Listable m)
    (hfirst : ∀ m ∈ modules.head?, m.toList.head? ≠ some '[') :
  ReadBack modules
  := by
  have hbrackets : ¬ InBrackets (joined modules) := by
    cases modules with
    | nil => decide
    | cons first others =>
      obtain ⟨c, rest, hchars, hc⟩ := (h first List.mem_cons_self).exists_cons
      have hshown : ∃ more, (joined (first :: others)).toList = c :: more := by
        rw [toList_joined, List.map_cons, hchars]
        cases others with
        | nil => simp
        | cons other others => simp
      obtain ⟨more, hmore⟩ := hshown
      have hne := hfirst first rfl
      rw [hchars] at hne
      rw [InBrackets, hmore, Text.trimStartChars, List.dropWhile_cons_of_neg (by simp [hc])]
      apply hne
  rw [ReadBack, if_neg hbrackets]
  apply h

/-! ### Settings that changes lead to -/

/-- The settings that changes of single settings lead to from the default ones. -/
inductive Reached [DomainNames] : Settings → Prop where
  | default : Reached Settings.default
  | assign {s s' : Settings} {name text : String} (hs : Reached s)
      (h : s.assign name text = .ok s') : Reached s'

/-- The single texts of such settings can be used. -/
theorem Reached.usableTexts [DomainNames] (h : Reached s) :
  s.UsableTexts
  := by
  induction h with
  | default => exact usable_default.toUsableTexts
  | assign hs h ih =>
    obtain ⟨key, hkey, hassigned⟩ := assign_eq_ok_iff.1 h
    apply hassigned.usableTexts ih

/-! ### Setting what is shown -/

/-- Whether settings are shown as others are, and have the same list of modules. -/
def ShownAlike (e : Environment) (s s' : Settings) : Prop :=
  (∀ key, s'.value e key = s.value e key) ∧ s'.sharedModules = s.sharedModules

/-- The root that is shown is absolute, also where none has been set. -/
theorem UsableTexts.isAbsolute_root [DomainNames] (hs : s.UsableTexts)
    (he : e.dataDirectory.isAbsolute = true) :
  (s.root e).isAbsolute = true
  := by
  have hplugins : e.pluginDirectory.isAbsolute = true := Path.isAbsolute_below he "plugins"
  have hdefault : e.installRoot.isAbsolute = true := Path.isAbsolute_below hplugins "installed"
  cases hset : s.installRoot with
  | none => simpa only [root, hset, Option.getD_none] using hdefault
  | some path => simpa only [root, hset, Option.getD_some] using hs.installRoot path hset

/-- Every setting but the list of modules can be set to the text that it is shown as, which changes
nothing that is shown. -/
theorem UsableTexts.assigned_value [DomainNames] (hs : s.UsableTexts)
    (he : e.dataDirectory.isAbsolute = true) (hmodules : key ≠ .sharedModules) :
  ∃ s', s.Assigned key (s.value e key) s' ∧ ShownAlike e s s'
  := by
  cases key with
  | packageManager => exact ⟨s, .packageManager hs.packageManager, fun _ => rfl, rfl⟩
  | registry =>
    cases hset : s.registry with
    | none =>
      have hunset : { s with registry := none } = s := by rw [← hset]
      have hassigned : s.Assigned .registry "" { s with registry := none } := .noRegistry
      rw [hunset] at hassigned
      refine ⟨s, ?_, fun _ => rfl, rfl⟩
      rw [value, hset]
      apply hassigned
    | some url =>
      have hread : (Url.read url).isOk = true := hs.registry url hset
      have hne : url ≠ "" := by
        rintro rfl
        cases hread
      have hassigned : s.Assigned .registry url { s with registry := some url } := .registry hne hread
      rw [← hset] at hassigned
      refine ⟨s, ?_, fun _ => rfl, rfl⟩
      rw [value, hset]
      apply hassigned
  | installRoot =>
    have habsolute : (s.root e).isAbsolute = true := hs.isAbsolute_root he
    have htext : (s.root e).text ≠ "" := by
      intro hempty
      rw [Path.isAbsolute, hempty] at habsolute
      cases habsolute
    refine ⟨_, .installRoot htext habsolute, ?_, rfl⟩
    intro key
    cases key <;> rfl
  | sharedModules => cases hmodules rfl
  | failOnWarning => exact ⟨s, .failOnWarning s.failOnWarning, fun _ => rfl, rfl⟩

/-- The list of modules can be set to its text and stay as it is exactly if it is read back. -/
theorem assigned_shown_modules_iff [DomainNames] :
  (∃ s', s.Assigned .sharedModules (s.value e .sharedModules) s' ∧ ShownAlike e s s')
    ↔ ReadBack s.sharedModules
  := by
  rw [← readModules_joined_iff, readModules_eq_ok_iff]
  constructor
  · rintro ⟨s', hassigned, -, hmodules⟩
    cases hassigned with
    | modulesInBrackets h hread => exact .inl ⟨h, hread.trans (congrArg some hmodules)⟩
    | modules h => exact .inr ⟨h, hmodules⟩
  · rintro (⟨h, hread⟩ | ⟨h, hsplit⟩)
    · exact ⟨s, .modulesInBrackets h hread, fun _ => rfl, rfl⟩
    · have hassigned : s.Assigned .sharedModules _ { s with sharedModules := splitModules _ } :=
        .modules h
      rw [hsplit] at hassigned
      exact ⟨s, hassigned, fun _ => rfl, rfl⟩

/-- Settings that changes lead to from the default ones can be set again to what they are shown as, and
then the same is shown and the list of modules is the same; the list of modules can exactly if it is
read back from its text. -/
theorem shown_can_be_set_again_iff [DomainNames] (hs : Reached s)
    (he : e.dataDirectory.isAbsolute = true) (h : s.valueOf e name = .ok text) :
  (∃ s', s.assign name text = .ok s' ∧ ShownAlike e s s')
    ↔ (name = SettingsKey.sharedModules.name → ReadBack s.sharedModules)
  := by
  rw [valueOf, keyOf] at h
  cases hkey : SettingsKey.ofName? name with
  | none =>
    rw [hkey] at h
    cases h
  | some key =>
    rw [hkey] at h
    cases h
    obtain rfl := name_of_ofName? hkey
    simp only [assign_eq_ok_iff, hkey, Option.some_inj, exists_eq_left']
    by_cases hmodules : key = .sharedModules
    · subst hmodules
      simp [assigned_shown_modules_iff]
    · have hname : key.name ≠ SettingsKey.sharedModules.name := by
        revert hmodules
        cases key <;> decide
      simp only [hname, false_implies, iff_true]
      apply hs.usableTexts.assigned_value he hmodules

attribute [local instance] Url.codedNames

/-- A module in brackets with a comma in it is shown as two, and becomes two when that is set. -/
theorem module_with_comma_becomes_two :
  ∃ s s' : Settings, Reached s ∧ s.sharedModules = ["a,b"]
    ∧ (∀ e, s.valueOf e "sharedModules" = .ok "a,b")
    ∧ s.assign "sharedModules" "a,b" = .ok s' ∧ s'.sharedModules = ["a", "b"]
  := by
  have hassigned : Settings.default.Assigned .sharedModules "['a,b']"
      { default with sharedModules := ["a,b"] } := by
    apply Assigned.modulesInBrackets (by decide)
    decide +kernel
  have hset : Settings.default.assign "sharedModules" "['a,b']"
      = .ok { default with sharedModules := ["a,b"] } :=
    assign_eq_ok_iff.2 ⟨.sharedModules, by decide, hassigned⟩
  exact ⟨_, _, .assign .default hset, rfl, fun _ => rfl, rfl, rfl⟩

/-- Modules that have been set between commas are set again to what they are shown as. -/
theorem shown_can_be_set_again_iff_of_listed :
  ∃ (s : Settings) (e : Environment), Reached s ∧ e.dataDirectory.isAbsolute = true
    ∧ s.valueOf e "sharedModules" = .ok "a,b"
    ∧ ∃ s', s.assign "sharedModules" "a,b" = .ok s' ∧ ShownAlike e s s'
  := by
  let s : Settings := { default with sharedModules := ["a", "b"] }
  let e : Environment := ⟨[("PLUGDECK_DATA_DIR", "/data")]⟩
  have hset : Settings.default.assign "sharedModules" "a, b" = .ok s := rfl
  have hs : Reached s := .assign .default hset
  have he : e.dataDirectory.isAbsolute = true := by decide
  have hshown : s.valueOf e "sharedModules" = .ok "a,b" := rfl
  have hread : ReadBack ["a", "b"] := by
    apply readBack_of_listable
    · intro m hm
      have hmodules : ["a", "b"] = splitModules "a, b" := by decide
      rw [hmodules] at hm
      apply listable_of_mem_splitModules hm
    · decide
  exact ⟨s, e, hs, he, hshown, (shown_can_be_set_again_iff hs he hshown).2 fun _ => hread⟩

end Settings

end PluginHost

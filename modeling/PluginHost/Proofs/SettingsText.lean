import PluginHost.Proofs.EntryText
import PluginHost.Settings.Document

/-!
# The text of settings

The text that settings are printed as is read as these settings, whatever texts they consist of
(`Settings.read?_print`).
-/

namespace PluginHost.Settings

open Yaml
open Yaml.NodeReader (scalarNode)
open Yaml.Reading (IsKey nested)

variable {s : Settings}

/-! ### The mapping of settings -/

/-- The keys that settings are printed with. -/
theorem isKey_of_mem :
  ∀ key ∈ ["packageManager", "registry", "installRoot", "sharedModules", "validation",
    "failOnWarning"], IsKey key.toList
  := by
  intro key hkey
  apply Reading.isKey_of_check
  revert key
  decide

/-- The node of a value that is a text. -/
def valueNode (text : String) : Node := textNode text.toList

/-- The node of the value about validation. -/
def validationNode (failOnWarning : Bool) : Node :=
  .mapping Properties.none [(scalarNode .plain "failOnWarning".toList,
    scalarNode .plain (if failOnWarning then "true" else "false").toList)]

/-- The values of the settings that need not be printed. -/
def optionalValues (s : Settings) : List (String × Option Node) :=
  [("registry", s.registry.map valueNode),
    ("installRoot", s.installRoot.map fun path => valueNode path.text),
    ("sharedModules", if s.sharedModules.isEmpty then none
      else some (.sequence Properties.none (s.sharedModules.map valueNode)))]

/-- The values of settings by their keys, in the order in which they are printed. -/
def values (s : Settings) : List (String × Option Node) :=
  ("packageManager", some (valueNode s.packageManager))
    :: (s.optionalValues ++ [("validation", some (validationNode s.failOnWarning))])

/-- The members of a mapping that are not missing. -/
def present (values : List (String × Option Node)) : List (String × Node) :=
  values.filterMap fun m => m.2.map fun value => (m.1, value)

/-- The entries of a mapping of some members. -/
def entriesOf (members : List (String × Node)) : List (Node × Node) :=
  members.map fun m => (scalarNode .plain m.1.toList, m.2)

/-- The mapping of some members. -/
def mappingOf (members : List (String × Node)) : Node :=
  .mapping Properties.none (entriesOf members)

theorem entriesOf_present_append (values₁ values₂ : List (String × Option Node)) :
  entriesOf (present (values₁ ++ values₂))
    = entriesOf (present values₁) ++ entriesOf (present values₂)
  := by rw [present, List.filterMap_append, entriesOf, List.map_append]; rfl

variable {root : Node}

theorem textIn?_scalarNode (style : ScalarStyle) (text : List Char) :
  textIn? root (scalarNode style text) = some (String.ofList text)
  := rfl

theorem textIn?_valueNode (text : String) :
  textIn? root (valueNode text) = some text
  := by rw [valueNode, textNode, textIn?_scalarNode, String.ofList_toList]

/-- A text is not taken for a value that is missing, whatever it spells. -/
theorem optionalTextIn?_valueNode (text : String) :
  optionalTextIn? root (valueNode text) = some (some text)
  := by
  have hwritten := written text.toList
  rw [valueNode, textNode, scalarNode]
  generalize scalarStyle text.toList = style at hwritten
  generalize printScalar text.toList = printed at hwritten
  cases hwritten with
  | plain h hambiguous =>
    simp only [isAmbiguous, Bool.or_eq_false_iff] at hambiguous
    obtain ⟨⟨⟨⟨⟨hempty, hnull⟩, -⟩, -⟩, -⟩, -⟩ := hambiguous
    simp [optionalTextIn?, Node.resolve?, Properties.none, hempty, hnull]
  | _ => simp [optionalTextIn?, Node.resolve?]

theorem mapM_of_forall {α β : Type} {f : α → Option β} {g : β → α} (h : ∀ b, f (g b) = some b)
    (bs : List β) :
  (bs.map g).mapM f = some bs
  := by
  induction bs with
  | nil => rfl
  | cons b bs ih => simp [List.mapM_cons, h, ih]

theorem textsIn?_values (texts : List String) :
  textsIn? root (.sequence Properties.none (texts.map valueNode)) = some texts
  := mapM_of_forall textIn?_valueNode texts

/-- The members of a mapping are found with their keys. -/
theorem entriesIn?_mappingOf (members : List (String × Node)) :
  entriesIn? root (mappingOf members) = some members
  := by
  apply mapM_of_forall
  intro m
  simp [textIn?_scalarNode]

/-- Of a key that only one of some values has the value is found, or the default if it is missing. -/
theorem member?_present {α : Type} {values : List (String × Option Node)} {key : String}
    {value : Option Node} (h : (values.filter fun m => m.1 == key) = [(key, value)]) (default : α)
    (read : Node → Option α) :
  member? (present values) key default read = value.elim (some default) read
  := by
  have hfilter : ((present values).filter fun m => m.1 == key)
      = present (values.filter fun m => m.1 == key) := by
    rw [present, present, List.filter_filterMap, List.filterMap_filter]
    apply List.filterMap_congr
    rintro ⟨name, value⟩ -
    cases value with
    | none => simp
    | some value => simp [Option.filter]
  rw [member?, hfilter, h]
  cases value <;> rfl

theorem validationIn?_validationNode (failOnWarning : Bool) :
  validationIn? root (validationNode failOnWarning) = some failOnWarning
  := by
  have hentries : entriesIn? root (validationNode failOnWarning)
      = some (present [("failOnWarning",
        some (scalarNode .plain (if failOnWarning then "true" else "false").toList))]) :=
    entriesIn?_mappingOf [("failOnWarning",
      scalarNode .plain (if failOnWarning then "true" else "false").toList)]
  rw [validationIn?, hentries, Option.bind_eq_bind, Option.bind_some, member?_present rfl]
  cases failOnWarning <;> rfl

/-- The settings that a mapping of values gives are those that have the values. -/
theorem ofNode?_values (s : Settings) :
  ofNode? (mappingOf (present s.values)) = some s
  := by
  have hmanager : ∀ root, member? (present s.values) "packageManager" default.packageManager
      (textIn? root) = some s.packageManager := by
    intro root
    rw [member?_present rfl, Option.elim_some, textIn?_valueNode]
  have hregistry : ∀ root, member? (present s.values) "registry" default.registry
      (optionalTextIn? root) = some s.registry := by
    intro root
    rw [member?_present rfl]
    cases s.registry with
    | none => rfl
    | some url => rw [Option.map_some, Option.elim_some, optionalTextIn?_valueNode]
  have hroot : ∀ root, member? (present s.values) "installRoot" none (optionalTextIn? root)
      = some (s.installRoot.map Path.text) := by
    intro root
    rw [member?_present rfl]
    cases s.installRoot with
    | none => rfl
    | some path => rw [Option.map_some, Option.elim_some, optionalTextIn?_valueNode]; rfl
  have hmodules : ∀ root, member? (present s.values) "sharedModules" default.sharedModules
      (textsIn? root) = some s.sharedModules := by
    intro root
    rw [member?_present rfl]
    cases s.sharedModules with
    | nil => rfl
    | cons m ms => exact textsIn?_values (m :: ms)
  have hvalidation : ∀ root, member? (present s.values) "validation" default.failOnWarning
      (validationIn? root) = some s.failOnWarning := by
    intro root
    rw [member?_present rfl, Option.elim_some, validationIn?_validationNode]
  have hpath : (s.installRoot.map Path.text).map Path.mk = s.installRoot := by
    cases s.installRoot <;> rfl
  simp only [ofNode?, entriesIn?_mappingOf, hmanager, hregistry, hroot, hmodules, hvalidation, hpath,
    Option.bind_eq_bind, Option.bind_some, Option.pure_def]

/-! ### The printed mapping -/

theorem spells_printEntry {key : String} (hkey : IsKey key.toList) (text : String) :
  Spells (printEntry key text) (entriesOf [(key, valueNode text)])
  := by
  rw [printEntry, List.append_assoc]
  apply Spells.entry hkey

theorem spells_printList {key : String} (hkey : IsKey key.toList) {texts : List String}
    (hne : texts ≠ []) :
  Spells (printList key texts)
    (entriesOf [(key, .sequence Properties.none (texts.map valueNode))])
  := by
  have hsome : texts.map String.toList ≠ [] := by simpa using hne
  have hlist := Spells.list hkey hsome
  rw [List.flatMap_map, List.map_map] at hlist
  rw [printList, List.append_assoc]
  apply hlist

/-- What is printed of the settings that need not be printed. -/
def printOptional (s : Settings) : List Char :=
  (s.registry.map (printEntry "registry")).getD []
    ++ ((s.installRoot.map fun p => printEntry "installRoot" p.text).getD []
      ++ (if s.sharedModules.isEmpty then [] else printList "sharedModules" s.sharedModules))

/-- The settings that need not be printed are printed as entries if they are set. -/
theorem spells_printOptional (s : Settings) :
  Spells s.printOptional (entriesOf (present s.optionalValues))
  := by
  obtain ⟨packageManager, registry, installRoot, modules, failOnWarning⟩ := s
  have hregistry : Spells ((registry.map (printEntry "registry")).getD [])
      (entriesOf (present [("registry", registry.map valueNode)])) := by
    cases registry with
    | none => exact .nil
    | some url => exact spells_printEntry (isKey_of_mem _ (by simp)) url
  have hroot : Spells ((installRoot.map fun p => printEntry "installRoot" p.text).getD [])
      (entriesOf (present [("installRoot", installRoot.map fun path => valueNode path.text)])) := by
    cases installRoot with
    | none => exact .nil
    | some path => exact spells_printEntry (isKey_of_mem _ (by simp)) path.text
  have hmodules : Spells (if modules.isEmpty then [] else printList "sharedModules" modules)
      (entriesOf (present [("sharedModules", if modules.isEmpty then none
        else some (.sequence Properties.none (modules.map valueNode)))])) := by
    cases modules with
    | nil => exact .nil
    | cons m ms => exact spells_printList (isKey_of_mem _ (by simp)) (List.cons_ne_nil m ms)
  have hall := hregistry.append (hroot.append hmodules)
  rw [← entriesOf_present_append, ← entriesOf_present_append] at hall
  exact hall

/-- The text of a truth value is printed plainly. -/
theorem fitsPlain_truth (b : Bool) :
  FitsPlain (if b then "true" else "false").toList
  := by
  apply FitsPlain.of_fits
  cases b <;> decide

/-- Settings are printed as one entry, those that need not be printed, and a mapping about
validation. -/
theorem print_eq (s : Settings) :
  s.print = String.ofList ("packageManager".toList ++ ':' :: ' ' ::
    (printScalar s.packageManager.toList ++ (s.printOptional
      ++ nested "validation".toList "failOnWarning".toList
        (if s.failOnWarning then "true" else "false").toList)))
  := by
  have hvalidation : ∀ failOnWarning : Bool,
      ("validation:\n  failOnWarning: " ++ (if failOnWarning then "true" else "false") ++ "\n").toList
        = nested "validation".toList "failOnWarning".toList
          (if failOnWarning then "true" else "false").toList := by decide
  rw [← hvalidation, print, printOptional, printEntry]
  simp only [List.append_assoc, List.cons_append, List.nil_append]

/-- The text of settings is read as the mapping of their values. -/
theorem read?_print_node (s : Settings) :
  Node.read? s.print = some (some (mappingOf (present s.values)))
  := by
  have hentries : entriesOf (present s.values)
      = (scalarNode .plain "packageManager".toList, valueNode s.packageManager)
        :: (entriesOf (present s.optionalValues)
          ++ [(scalarNode .plain "validation".toList, validationNode s.failOnWarning)]) :=
    congrArg _ (entriesOf_present_append s.optionalValues _)
  have hne : (if s.failOnWarning then "true" else "false").toList ≠ [] := by
    cases s.failOnWarning <;> decide
  rw [print_eq, mappingOf, hentries]
  apply Node.read?_of_spells (isKey_of_mem _ (by simp)) (isKey_of_mem _ (by simp))
    (isKey_of_mem _ (by simp)) (fitsPlain_truth _) hne (spells_printOptional s)

/-- The text that settings are printed as is read as these settings. -/
theorem read?_print (s : Settings) :
  read? s.print = some s
  := by
  rw [read?, read?_print_node]
  exact ofNode?_values s

end PluginHost.Settings

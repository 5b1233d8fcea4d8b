import PluginHost.Proofs.Agreement

/-!
# Sessions that are as good as new

Two idle sessions in the same world are `Manager.Alike`, whatever issues have been recorded in
them.  An attempt made of steps gives the same answers in both and leaves them alike
(`Manager.answer_congr`).  A reachable session is alike to a new one in its world, so what has
been done before shows in no answer (`Manager.operations_leave_no_hidden_state`).
-/

namespace PluginHost

/-- Passes that start from the same tree and known types end with the same tree. -/
theorem Loader.tree_congr (l : Loader) {a b : Assembly} (htree : a.tree = b.tree)
    (hknown : a.known = b.known) (names : List String) :
  (l.loadEach a names).2.tree = (l.loadEach b names).2.tree
  := by
  rw [tree_loadEach, tree_loadEach, l.verdicts_congr htree hknown, htree]

namespace Manager

variable {σ α : Type} {m : Manager σ}

variable (m) in
/-- Whether two sessions are idle and differ at most in their issues. -/
structure Alike (s t : Session σ) : Prop where
  idle_left : m.Idle s
  idle_right : m.Idle t
  world : s.world = t.world

/-- Passes in alike sessions come to the same decisions and the same tree. -/
theorem answer_loadNames_congr {s t : Session σ} (h : m.Alike s t) (tree : CommandTree)
    (names : List String) :
  ((m.loadNames tree names).outcome s).1 = ((m.loadNames tree names).outcome t).1
    ∧ m.Alike ((m.loadNames tree names).outcome s).2 ((m.loadNames tree names).outcome t).2
  := by
  have hfiles : m.files s = m.files t := congrArg m.packages.files h.world
  rw [m.outcome_loadNames h.idle_left, m.outcome_loadNames h.idle_right, hfiles]
  constructor
  · dsimp only
    rw [Loader.verdicts_congr (b := ⟨tree, m.host.profileTypes, t.log⟩),
      Loader.tree_congr (b := ⟨tree, m.host.profileTypes, t.log⟩)]
    all_goals rfl
  · use h.idle_left, h.idle_right, h.world

/-- An attempt made of steps answers alike sessions alike. -/
theorem answer_congr {act : Attempt (Session σ) α} (h : m.Stepwise act) {s t : Session σ}
    (hst : m.Alike s t) :
  (act.outcome s).1 = (act.outcome t).1 ∧ m.Alike (act.outcome s).2 (act.outcome t).2
  := by
  induction h generalizing s t with
  | pure a => exact ⟨rfl, hst⟩
  | refuse h => exact ⟨rfl, hst⟩
  | look h =>
    have hfiles : m.files s = m.files t := congrArg m.packages.files hst.world
    rw [Attempt.outcome_look, Attempt.outcome_look, hfiles]
    exact ⟨rfl, hst⟩
  | world h =>
    rw [onWorld, Attempt.outcome_within, Attempt.outcome_within, hst.world]
    use rfl, hst.idle_left, hst.idle_right
  | pass tree names => apply answer_loadNames_congr hst
  | forget plugin => use rfl, hst.idle_left, hst.idle_right, hst.world
  | @bind α β first f _ _ ihfirst ihf =>
    obtain ⟨hanswer, hnext⟩ := ihfirst hst
    rw [Attempt.outcome_bind, Attempt.outcome_bind]
    cases hs : first.outcome s with
    | mk answer s' =>
      cases ht : first.outcome t with
      | mk answer' t' =>
        rw [hs, ht] at hanswer hnext
        obtain rfl : answer = answer' := hanswer
        cases answer with
        | ok a => apply ihf a hnext
        | error e => exact ⟨rfl, hnext⟩

/-- An attempt made of steps in an idle session ends with a failure of the redirect only if the
package manager reports it. -/
theorem admits_of_stepwise {act : Attempt (Session σ) α} (h : m.Stepwise act) {s : Session σ}
    (hs : m.Idle s) {e : Failure} (he : act.failure? s = some e) :
  m.Admits e
  := by
  induction h generalizing s with
  | pure a => cases he
  | refuse h =>
    cases he
    apply h
  | look h => apply h (m.files s) e (Attempt.failure?_eq_some_iff.1 he)
  | world h => apply h s.world e he
  | pass tree names =>
    rw [Attempt.failure?_eq_some_iff, m.outcome_loadNames hs] at he
    cases he
  | forget plugin => cases he
  | bind hact _ ihact ihf =>
    rw [Attempt.failure?_eq_some_iff, Attempt.outcome_bind] at he
    have hnext := keeps_of_stepwise hact s hs
    split at he
    · next a t hok =>
      rw [hok] at hnext
      apply ihf a hnext (Attempt.failure?_eq_some_iff.2 he)
    · next e' t herror =>
      obtain rfl := Except.error.inj he
      apply ihact hs
      rw [Attempt.failure?_eq_some_iff, herror]

/-- A reachable session is as good as a new one in its world. -/
theorem alike_start [DomainNames] {s : Session σ} (h : m.Reachable s) :
  m.Alike s (m.start s.world)
  := by
  constructor
  · apply idle_of_reachable h
  · rfl
  · rfl

/-- Operations leave no hidden state behind, whatever has been done before, with whatever replies
of the package manager, and whatever of it has failed.  After every operation the redirect is
inactive.  An operation ends with a failure of the redirect only if the package manager itself
reports that failure, which that of the machine never does.  Validating and extending answer
what they do in a new session in the same world, and so every operation fails for the same
reason as there and leaves the same world. -/
theorem operations_leave_no_hidden_state [DomainNames] (m : Manager σ) {s : Session σ}
    (hs : m.Reachable s) :
  (∀ o, (m.after s o).redirect.isActive = false)
    ∧ (∀ o e, m.failure? s o = some e → e.ofRedirect = true → m.packages.Reports e)
    ∧ (∀ (n : Npm) e, n.manager.Reports e → e.ofRedirect = false)
    ∧ (∀ name, ((m.validate name).outcome s).1 = ((m.validate name).outcome (m.start s.world)).1)
    ∧ (∀ tree, ((m.extend tree).outcome s).1 = ((m.extend tree).outcome (m.start s.world)).1)
    ∧ ∀ o, m.failure? s o = m.failure? (m.start s.world) o
      ∧ (m.after s o).world = (m.after (m.start s.world) o).world
  := by
  have hidle := idle_of_reachable hs
  have halike := alike_start hs
  constructor
  · intro o
    have hafter : (m.after s o).redirect = _ := idle_after hidle o
    rw [hafter]
    rfl
  constructor
  · intro o e he
    obtain ⟨α, act, hact, -, hfailure⟩ := m.exists_stepwise o
    rw [hfailure] at he
    apply admits_of_stepwise hact hidle he
  constructor
  · intro n e
    apply n.not_ofRedirect_of_reports
  constructor
  · intro name
    apply (answer_congr (m.stepwise_validate name) halike).1
  constructor
  · intro tree
    apply (answer_congr (m.stepwise_extend tree) halike).1
  · intro o
    obtain ⟨α, act, hact, hafter, hfailure⟩ := m.exists_stepwise o
    obtain ⟨hanswer, hnext⟩ := answer_congr hact halike
    rw [hafter, hafter, hfailure, hfailure, Attempt.failure?, Attempt.failure?, hanswer]
    use rfl, hnext.world

/-- An update of a plugin that is not installed does no more than load the inventory. -/
theorem update_of_unknown [DomainNames] {s t : Session σ} {plugins : Inventory} {name : String}
    (hload : m.inventory.outcome s = (.ok plugins, t)) (hname : plugins.record? name = none)
    (registry : Option String) :
  (m.update name registry).outcome s = (.error (.unknownPlugin name), t)
  := by
  rw [update, Attempt.outcome_bind, hload]
  dsimp only
  rw [hname]
  rfl

attribute [local instance] Url.codedNames

/-- A session with the sample plugins after an update of a plugin that is not installed and a
validation of those that are. -/
def usedSample : Session Shelf :=
  sample.after (sample.after sampleStart (.update "none" none)) (.validate none)

/-- The update fails, but after all the redirect is inactive, and a second validation answers what
a first one does in a new session. -/
theorem operations_leave_no_hidden_state_of_sample :
  sample.Reachable usedSample
    ∧ sample.failure? sampleStart (.update "none" none) = some (.unknownPlugin "none")
    ∧ (sample.after usedSample .list).redirect.isActive = false
    ∧ ((sample.validate none).outcome usedSample).1
      = ((sample.validate none).outcome (sample.start usedSample.world)).1
  := by
  have hreachable : sample.Reachable usedSample :=
    ((Reachable.start _).after (.update "none" none)).after (.validate none)
  obtain ⟨t, hload, -⟩ := inventory_of_load (Store.load_of_read read_sample)
  have hname : Inventory.sample.record? "none" = none := by decide +kernel
  have hupdate := update_of_unknown hload hname none
  have hfailure : sample.failure? sampleStart (.update "none" none)
      = some (.unknownPlugin "none") := by
    change (sample.update "none" none).failure? sampleStart = _
    rw [Attempt.failure?_eq_some_iff, hupdate]
  obtain ⟨hinactive, -, -, hvalidate, -⟩ := operations_leave_no_hidden_state sample hreachable
  exact ⟨hreachable, hfailure, hinactive .list, hvalidate none⟩

end Manager

end PluginHost

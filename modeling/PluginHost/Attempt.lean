import PluginHost.Failure

/-!
# Attempts

An attempt works on a state and may fail.  What it has done before it fails stays done, so an
attempt answers with a state in either case.  `within` lets an attempt work on one part of a
larger state, and `step` and `onFiles` make attempts of functions that change the state only
if they succeed.  The lemmas say what each of these answers and, in `outcome_bind` and
`cases_of_bind`, what one attempt after another does; `Keeps` is about the states that attempts
leave, and `FailsOnly` about the failures that they end with.
-/

namespace PluginHost

/-- Computations on a state that may fail. -/
abbrev Attempt (σ : Type) := ExceptT Failure (StateM σ)

namespace Attempt

variable {σ τ α β : Type}

/-- What an attempt answers at a state, and the state that it leaves. -/
def outcome (act : Attempt σ α) (s : σ) : Except Failure α × σ := act.run.run s

/-- The attempt that has a given outcome at each state. -/
def ofOutcome (f : σ → Except Failure α × σ) : Attempt σ α := ExceptT.mk (StateT.mk f)

/-- The attempt as one on a part of a larger state. -/
def within (get : σ → τ) (set : τ → σ → σ) (act : Attempt τ α) : Attempt σ α :=
  ofOutcome fun s => ((act.outcome (get s)).1, set (act.outcome (get s)).2 s)

/-- The result of a function, which leaves the state as it is. -/
def look (f : σ → Except Failure α) : Attempt σ α := ofOutcome fun s => (f s, s)

/-- The change that a function makes if it succeeds. -/
def step (f : σ → Except Failure σ) : Attempt σ Unit :=
  ofOutcome fun s =>
    match f s with
    | .ok s' => (.ok (), s')
    | .error e => (.error e, s)

/-- A change of the files, where a path is named if it fails. -/
def onFiles (path : Path) (f : Files → Except FileError Files) : Attempt Files Unit :=
  step fun fs => (f fs).mapError (.access path)

/-! ### Outcomes -/

@[simp]
theorem outcome_pure (a : α) (s : σ) :
  (pure a : Attempt σ α).outcome s = (.ok a, s)
  := rfl

@[simp]
theorem outcome_throw (e : Failure) (s : σ) :
  (throw e : Attempt σ α).outcome s = (.error e, s)
  := rfl

@[simp]
theorem outcome_get (s : σ) :
  (get : Attempt σ σ).outcome s = (.ok s, s)
  := rfl

@[simp]
theorem outcome_set (s t : σ) :
  (set t : Attempt σ PUnit).outcome s = (.ok ⟨⟩, t)
  := rfl

@[simp]
theorem outcome_modify (f : σ → σ) (s : σ) :
  (modify f : Attempt σ PUnit).outcome s = (.ok ⟨⟩, f s)
  := rfl

@[simp]
theorem outcome_look (f : σ → Except Failure α) (s : σ) :
  (look f).outcome s = (f s, s)
  := rfl

theorem outcome_within (get : σ → τ) (set : τ → σ → σ) (act : Attempt τ α) (s : σ) :
  (act.within get set).outcome s = ((act.outcome (get s)).1, set (act.outcome (get s)).2 s)
  := rfl

theorem outcome_step (f : σ → Except Failure σ) (s : σ) :
  (step f).outcome s
    = match f s with
      | .ok t => (.ok (), t)
      | .error e => (.error e, s)
  := rfl

/-- The second of two attempts starts from the state that the first one leaves, unless that
fails. -/
theorem outcome_bind (act : Attempt σ α) (f : α → Attempt σ β) (s : σ) :
  (act >>= f).outcome s
    = match act.outcome s with
      | (.ok a, t) => (f a).outcome t
      | (.error e, t) => (.error e, t)
  := by
  simp only [outcome, bind, ExceptT.bind, ExceptT.run, ExceptT.mk, StateT.bind, StateT.run,
    ExceptT.bindCont]
  rcases act s with ⟨r, t⟩
  cases r <;> rfl

/-- Of two attempts, one after the other, the first fails, or the second is made after it. -/
theorem cases_of_bind {act : Attempt σ α} {f : α → Attempt σ β} {s t : σ}
    {answer : Except Failure β} (h : (act >>= f).outcome s = (answer, t)) :
  (∃ e, answer = .error e ∧ act.outcome s = (.error e, t))
    ∨ ∃ a u, act.outcome s = (.ok a, u) ∧ (f a).outcome u = (answer, t)
  := by
  rw [outcome_bind] at h
  split at h
  · next a u hact =>
    right
    exact ⟨a, u, hact, h⟩
  · next e u hact =>
    left
    cases h
    exact ⟨e, rfl, hact⟩

/-- If one attempt after another succeeds then both have, one after the other. -/
theorem eq_ok_of_bind {act : Attempt σ α} {f : α → Attempt σ β} {s t : σ} {b : β}
    (h : (act >>= f).outcome s = (.ok b, t)) :
  ∃ a u, act.outcome s = (.ok a, u) ∧ (f a).outcome u = (.ok b, t)
  := by
  obtain ⟨e, he, -⟩ | hboth := cases_of_bind h
  · cases he
  · apply hboth

/-- If one attempt after another fails then the first has, or the second after it. -/
theorem eq_error_of_bind {act : Attempt σ α} {f : α → Attempt σ β} {s t : σ} {e : Failure}
    (h : (act >>= f).outcome s = (.error e, t)) :
  act.outcome s = (.error e, t)
    ∨ ∃ a u, act.outcome s = (.ok a, u) ∧ (f a).outcome u = (.error e, t)
  := by
  obtain ⟨e', he, hact⟩ | hboth := cases_of_bind h
  · left
    cases he
    apply hact
  · right
    apply hboth

/-- An attempt has succeeded if there is something to say about its answer. -/
theorem exists_ok_of_map {act : Attempt σ α} {s : σ} {f : α → β} {b : β}
    (h : (act.outcome s).1.toOption.map f = some b) :
  ∃ a t, act.outcome s = (.ok a, t) ∧ f a = b
  := by
  obtain ⟨a, ha, hb⟩ := Option.map_eq_some_iff.1 h
  cases hrun : act.outcome s with
  | mk answer t =>
    rw [hrun] at ha
    cases answer with
    | error e => cases ha
    | ok a' =>
      cases ha
      exact ⟨a, t, rfl, hb⟩

/-! ### What attempts keep -/

/-- Whether an attempt keeps a property of the state, also when it fails. -/
def Keeps (P : σ → Prop) (act : Attempt σ α) : Prop := ∀ s, P s → P (act.outcome s).2

variable {P : σ → Prop}

/-- What an attempt keeps holds of the state that it leaves. -/
theorem holds_of_keeps {act : Attempt σ α} (hact : act.Keeps P) {s t : σ}
    {answer : Except Failure α} (hs : P s) (h : act.outcome s = (answer, t)) :
  P t
  := by
  have hnext := hact s hs
  rw [h] at hnext
  apply hnext

theorem keeps_pure (a : α) :
  Keeps P (pure a)
  := by
  intro s hs
  apply hs

theorem keeps_throw (e : Failure) :
  Keeps P (throw e : Attempt σ α)
  := by
  intro s hs
  apply hs

theorem keeps_get :
  Keeps P (get : Attempt σ σ)
  := by
  intro s hs
  apply hs

theorem keeps_look (f : σ → Except Failure α) :
  Keeps P (look f)
  := by
  intro s hs
  apply hs

theorem keeps_onFiles {path : Path} {f : Files → Except FileError Files} {P : Files → Prop}
    (hf : ∀ fs fs', f fs = .ok fs' → P fs → P fs') :
  Keeps P (onFiles path f)
  := by
  intro fs h
  rw [onFiles, outcome_step]
  cases hfs : f fs with
  | ok fs' => apply hf fs fs' hfs h
  | error reason => apply h

/-- What two attempts keep is kept by the one after the other. -/
theorem keeps_bind {act : Attempt σ α} {f : α → Attempt σ β} (hact : act.Keeps P)
    (hf : ∀ a, (f a).Keeps P) :
  Keeps P (act >>= f)
  := by
  intro s hs
  rw [outcome_bind]
  have hnext := hact s hs
  split
  · next a t h =>
    rw [h] at hnext
    apply hf a t hnext
  · next e t h =>
    rw [h] at hnext
    apply hnext

/-! ### How attempts fail -/

/-- The failure of an attempt at a state, if it fails. -/
def failure? (act : Attempt σ α) (s : σ) : Option Failure :=
  match (act.outcome s).1 with
  | .ok _ => none
  | .error e => some e

theorem failure?_eq_some_iff {act : Attempt σ α} {s : σ} {e : Failure} :
  act.failure? s = some e ↔ (act.outcome s).1 = .error e
  := by
  unfold failure?
  cases (act.outcome s).1 <;> simp

/-- An attempt that fails leaves some state. -/
theorem outcome_of_failure? {act : Attempt σ α} {s : σ} {e : Failure}
    (h : act.failure? s = some e) :
  act.outcome s = (.error e, (act.outcome s).2)
  := Prod.ext (failure?_eq_some_iff.1 h) rfl

/-- Whether an attempt fails only with failures of a kind. -/
def FailsOnly (Q : Failure → Prop) (act : Attempt σ α) : Prop :=
  ∀ s e, act.failure? s = some e → Q e

variable {Q : Failure → Prop}

theorem failsOnly_pure (a : α) :
  FailsOnly Q (pure a : Attempt σ α)
  := by
  intro s e h
  cases h

theorem failsOnly_throw {e : Failure} (he : Q e) :
  FailsOnly Q (throw e : Attempt σ α)
  := by
  intro s e' h
  cases h
  apply he

theorem failsOnly_get :
  FailsOnly Q (get : Attempt σ σ)
  := by
  intro s e h
  cases h

theorem failsOnly_set (t : σ) :
  FailsOnly Q (set t : Attempt σ PUnit)
  := by
  intro s e h
  cases h

theorem failsOnly_look {f : σ → Except Failure α} (hf : ∀ s e, f s = .error e → Q e) :
  FailsOnly Q (look f)
  := by
  intro s e h
  apply hf s e (failure?_eq_some_iff.1 h)

theorem failsOnly_onFiles {path : Path} {f : Files → Except FileError Files}
    (hf : ∀ reason, Q (.access path reason)) :
  FailsOnly Q (onFiles path f)
  := by
  intro s e h
  rw [failure?_eq_some_iff, onFiles, outcome_step] at h
  cases hs : f s with
  | ok t =>
    rw [hs] at h
    cases h
  | error reason =>
    rw [hs] at h
    cases h
    apply hf reason

/-- An attempt on a part of a state fails as it does on that part. -/
theorem failsOnly_within {get : σ → τ} {set : τ → σ → σ} {act : Attempt τ α}
    (h : act.FailsOnly Q) :
  (act.within get set).FailsOnly Q
  := by
  intro s e he
  apply h (get s) e he

/-- Of two attempts, one after the other, either one may fail. -/
theorem failsOnly_bind {act : Attempt σ α} {f : α → Attempt σ β} (hact : act.FailsOnly Q)
    (hf : ∀ a, (f a).FailsOnly Q) :
  FailsOnly Q (act >>= f)
  := by
  intro s e h
  rw [failure?_eq_some_iff, outcome_bind] at h
  split at h
  · next a t hok => apply hf a t e (failure?_eq_some_iff.2 h)
  · next e' t herror =>
    obtain rfl := Except.error.inj h
    apply hact s
    rw [failure?_eq_some_iff, herror]

end Attempt

end PluginHost

import Mathlib.Logic.Basic

/-!
# Outcomes of computations

What the success of a composed computation says about its parts, and what an action on a
state leaves behind, whether it succeeds or not.
-/

namespace DatasetLineage

/-! ## Success -/

section Success

variable {α β ε : Type}

theorem bind_eq_ok {first : Except ε α} {second : α → Except ε β} {result : β} :
    (do second (← first)) = .ok result ↔
      ∃ middle, first = .ok middle ∧ second middle = .ok result := by
  cases first with
  | error error =>
      constructor
      · intro h
        cases h
      · intro ⟨middle, hfirst, _⟩
        cases hfirst
  | ok value =>
      constructor
      · intro hsecond
        exact ⟨value, rfl, hsecond⟩
      · intro ⟨middle, hfirst, hsecond⟩
        cases hfirst
        exact hsecond

theorem isOk_iff {result : Except ε α} : result.isOk = true ↔ ∃ value, result = .ok value := by
  cases result with
  | error error => simp [Except.isOk, Except.toBool]
  | ok value => simp [Except.isOk, Except.toBool]

theorem discard_eq_ok {result : Except ε α} :
    discard result = .ok () ↔ ∃ value, result = .ok value := by
  cases result with
  | error error => simp [discard, Functor.discard, Functor.mapConst, Except.map]
  | ok value => simp [discard, Functor.discard, Functor.mapConst, Except.map]

theorem mapError_eq_ok {ε' : Type} {reword : ε → ε'} {result : Except ε α} {value : α} :
    result.mapError reword = .ok value ↔ result = .ok value := by
  cases result with
  | error error =>
      change (.error (reword error) : Except ε' α) = .ok value ↔ _
      simp
  | ok found =>
      change (.ok found : Except ε' α) = .ok value ↔ _
      simp

/-- A check that is made on demand has to go through only then. -/
theorem demand_eq_ok_iff {demanded : Bool} {check : Except ε Unit} {rest : Except ε α}
    {value : α} :
    (do
      if demanded then check
      rest) = .ok value ↔ (demanded = true → check = .ok ()) ∧ rest = .ok value := by
  cases demanded with
  | false =>
      exact ⟨fun hrest => ⟨fun hdemanded => (nomatch hdemanded), hrest⟩, And.right⟩
  | true =>
      change (check.bind fun _ => rest) = .ok value ↔ _
      cases check with
      | error failure => simp [Except.bind]
      | ok _ => simp [Except.bind]

/-- What follows a check that is made on demand. -/
theorem eq_ok_of_demand {demanded : Bool} {check : Except ε Unit} {rest : Except ε α} {value : α}
    (hresult : (do
      if demanded then check
      rest) = .ok value) : rest = .ok value :=
  (demand_eq_ok_iff.1 hresult).2

/-- A fold goes through with the same result as another one whose steps it can follow. -/
theorem foldlM_eq_ok_of_imp {step other : β → α → Except ε β} {values : List α}
    (himp : ∀ value ∈ values, ∀ before after, step before value = .ok after →
      other before value = .ok after) {before after : β}
    (hresult : values.foldlM step before = .ok after) :
    values.foldlM other before = .ok after := by
  induction values generalizing before with
  | nil => exact hresult
  | cons value rest ih =>
      rw [List.forall_mem_cons] at himp
      rw [List.foldlM_cons, bind_eq_ok] at hresult ⊢
      obtain ⟨middle, hfirst, hrest⟩ := hresult
      exact ⟨middle, himp.1 before middle hfirst, ih himp.2 hrest⟩

/-- A fold that goes through has gone through all of its steps. -/
theorem exists_of_foldlM_ok {step : β → α → Except ε β} {values : List α} {before after : β}
    (hresult : values.foldlM step before = .ok after) :
    ∀ value ∈ values, ∃ middle next, step middle value = .ok next := by
  induction values generalizing before with
  | nil => exact List.forall_mem_nil _
  | cons value rest ih =>
      rw [List.foldlM_cons, bind_eq_ok] at hresult
      obtain ⟨middle, hfirst, hrest⟩ := hresult
      exact List.forall_mem_cons.2 ⟨⟨before, middle, hfirst⟩, ih hrest⟩

/-- A fold that fails, fails at one of its steps. -/
theorem exists_of_foldlM_error {step : β → α → Except ε β} {values : List α} {before : β}
    {error : ε} (hresult : values.foldlM step before = .error error) :
    ∃ value ∈ values, ∃ middle, step middle value = .error error := by
  induction values generalizing before with
  | nil => cases hresult
  | cons value rest ih =>
      rw [List.foldlM_cons] at hresult
      cases hfirst : step before value with
      | error failure =>
          rw [hfirst] at hresult
          cases hresult
          exact ⟨value, List.mem_cons_self, before, hfirst⟩
      | ok middle =>
          rw [hfirst] at hresult
          obtain ⟨other, hother, hfailed⟩ := ih hresult
          exact ⟨other, List.mem_cons_of_mem _ hother, hfailed⟩

theorem discard_eq_error {result : Except ε α} {error : ε} :
    discard result = .error error ↔ result = .error error := by
  cases result with
  | error failure => simp [discard, Functor.discard, Functor.mapConst, Except.map]
  | ok value => simp [discard, Functor.discard, Functor.mapConst, Except.map]

/-- Whether there is a result, and else why not, does not depend on what is made of it. -/
theorem discard_map (result : Except ε α) (change : α → β) :
    discard (result.map change) = discard result := by
  cases result <;> rfl

/-- Two folds end in the same way if their steps do, as long as the first keeps what that takes. -/
theorem discard_foldlM_eq {γ : Type} {property : β → Prop} {step : β → α → Except ε β}
    {other : γ → α → Except ε γ} {values : List α}
    (hsame : ∀ value ∈ values, ∀ before beside, property before →
      discard (step before value) = discard (other beside value))
    (hkeeps : ∀ value ∈ values, ∀ before after, property before →
      step before value = .ok after → property after)
    {before : β} (hbefore : property before) (beside : γ) :
    discard (values.foldlM step before) = discard (values.foldlM other beside) := by
  induction values generalizing before beside with
  | nil => rfl
  | cons value rest ih =>
      rw [List.forall_mem_cons] at hsame hkeeps
      have hfirst := hsame.1 before beside hbefore
      rw [List.foldlM_cons, List.foldlM_cons]
      cases hresult : step before value with
      | error error =>
          cases hother : other beside value with
          | error failure =>
              rw [hresult, hother] at hfirst
              cases hfirst
              rfl
          | ok next =>
              rw [hresult, hother] at hfirst
              cases hfirst
      | ok after =>
          cases hother : other beside value with
          | error failure =>
              rw [hresult, hother] at hfirst
              cases hfirst
          | ok next => exact ih hsame.2 hkeeps.2 (hkeeps.1 before after hbefore hresult) next

end Success

/-! ## Actions on a state -/

section Actions

variable {α β ε σ : Type} {first : EStateM ε σ α} {second : α → EStateM ε σ β} {state after : σ}

theorem action_bind_eq_ok {result : β} :
    (do second (← first)) state = .ok result after ↔
      ∃ value middle, first state = .ok value middle ∧
        second value middle = .ok result after := by
  change EStateM.bind first second state = _ ↔ _
  rw [EStateM.bind]
  cases first state with
  | ok value middle =>
      constructor
      · intro hsecond
        exact ⟨value, middle, rfl, hsecond⟩
      · rintro ⟨_, _, hfirst, hsecond⟩
        cases hfirst
        exact hsecond
  | error error middle => simp

theorem action_bind_eq_error {error : ε} :
    (do second (← first)) state = .error error after ↔
      first state = .error error after ∨
        ∃ value middle, first state = .ok value middle ∧
          second value middle = .error error after := by
  change EStateM.bind first second state = _ ↔ _
  rw [EStateM.bind]
  cases first state with
  | ok value middle =>
      constructor
      · intro hsecond
        exact .inr ⟨value, middle, rfl, hsecond⟩
      · rintro (hfirst | ⟨_, _, hfirst, hsecond⟩)
        · cases hfirst
        · cases hfirst
          exact hsecond
  | error failure middle => simp

end Actions

/-! ## What is left behind -/

section Leaving

variable {α β ε σ : Type} {property : σ → Prop}

/-- The state that an action leaves behind, whether it succeeds or not. -/
def leaves (action : EStateM ε σ α) (state : σ) : σ :=
  match action state with
  | .ok _ after => after
  | .error _ stopped => stopped

theorem eq_ok_of_run' {action : EStateM ε σ α} {state : σ} {value : α}
    (hvalue : action.run' state = some value) : action state = .ok value (leaves action state) := by
  rw [leaves]
  cases hresult : action state with
  | ok found after =>
      have hrun : action.run' state = some found :=
        congrArg (fun result => EStateM.run' (fun _ => result) state) hresult
      cases hrun.symm.trans hvalue
      rfl
  | error failure stopped =>
      have hrun : action.run' state = none :=
        congrArg (fun result => EStateM.run' (fun _ => result) state) hresult
      cases hrun.symm.trans hvalue

/-- An action that keeps a property, whether it succeeds or not. -/
def Keeps (property : σ → Prop) (action : EStateM ε σ α) : Prop :=
  ∀ state, property state → property (leaves action state)

theorem keeps_pure (value : α) : Keeps property (pure value : EStateM ε σ α) := by
  intro state hstate
  exact hstate

/-- A composed action leaves what its first part leaves, or what its second part makes of
that. -/
theorem leaves_bind {first : EStateM ε σ α} {second : α → EStateM ε σ β} {state : σ}
    (hfailed : property (leaves first state))
    (hsecond : ∀ value after, first state = .ok value after →
      property (leaves (second value) after)) :
    property (leaves (do second (← first)) state) := by
  change property (match EStateM.bind first second state with
    | .ok _ after => after
    | .error _ stopped => stopped)
  rw [leaves] at hfailed
  rw [EStateM.bind]
  cases hresult : first state with
  | error error stopped =>
      rw [hresult] at hfailed
      exact hfailed
  | ok value after => exact hsecond value after hresult

theorem Keeps.bind {first : EStateM ε σ α} {second : α → EStateM ε σ β}
    (hfirst : Keeps property first) (hsecond : ∀ value, Keeps property (second value)) :
    Keeps property (do second (← first)) := by
  intro state hstate
  have hmiddle := hfirst state hstate
  apply leaves_bind hmiddle
  intro value after hresult
  rw [leaves, hresult] at hmiddle
  exact hsecond value after hmiddle

theorem Keeps.forM {action : α → EStateM ε σ PUnit} {values : List α}
    (haction : ∀ value ∈ values, Keeps property (action value)) :
    Keeps property (values.forM action) := by
  induction values with
  | nil => exact keeps_pure _
  | cons value rest ih =>
      apply (haction value List.mem_cons_self).bind
      intro _
      exact ih fun other hother => haction other (List.mem_cons_of_mem _ hother)

/-- A computation without effects leaves the state alone, so what follows may rely on its
result. -/
theorem leaves_ofExcept_bind {result : Except ε α} {second : α → EStateM ε σ β} {state : σ}
    (hstate : property state)
    (hsecond : ∀ value, result = .ok value → property (leaves (second value) state)) :
    property (leaves (do second (← MonadExcept.ofExcept result)) state) := by
  cases result with
  | error error => exact hstate
  | ok value => exact hsecond value rfl

theorem leaves_get_bind (second : σ → EStateM ε σ β) (state : σ) :
    leaves (do second (← get)) state = leaves (second state) state :=
  rfl

end Leaving

end DatasetLineage

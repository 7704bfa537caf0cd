import Docweave.Model.Session
import Mathlib.Order.Defs.Unbundled

set_option autoImplicit false

/-! # What actions do to a session

`outcome` runs an action, and the laws beside it say what each kind of action makes of a session.
`Leads R act` says that the session after an action is related to the one before it, however the
action ends. A relation that holds of equal sessions and composes goes from actions to whatever is
built of them. -/

namespace Docweave

/-- The session after some things were told. -/
def Session.told (notices : List Notice) (s : Session) : Session :=
  { s with notices := notices.reverse ++ s.notices }

namespace Eval

variable {α β : Type}

/-! ## Outcomes -/

/-- The result of an action and the session after it. -/
def outcome (act : Eval α) (s : Session) : Except Failure α × Session := act.run.run s

/-- Actions with the same outcomes are the same. -/
theorem ext_outcome {act act' : Eval α} (h : ∀ s, outcome act s = outcome act' s) : act = act' := funext h

@[simp] theorem outcome_pure (a : α) (s : Session) : outcome (pure a) s = (.ok a, s) := rfl

@[simp] theorem outcome_throw (failure : Failure) (s : Session) :
    outcome (throw failure : Eval α) s = (.error failure, s) := rfl

@[simp] theorem outcome_get (s : Session) : outcome get s = (.ok s, s) := rfl

@[simp] theorem outcome_modify (change : Session → Session) (s : Session) :
    outcome (modify change) s = (.ok (), change s) := rfl

@[simp] theorem outcome_tell (notice : Notice) (s : Session) :
    outcome (tell notice) s = (.ok (), s.told [notice]) := rfl

@[simp] theorem outcome_tellAll (notices : List Notice) (s : Session) :
    outcome (tellAll notices) s = (.ok (), s.told notices) := rfl

@[simp] theorem outcome_within (enter : Session → Session) (leave : Session → Session → Session)
    (act : Eval α) (s : Session) :
    outcome (within enter leave act) s =
      ((outcome act (enter s)).1, leave s (outcome act (enter s)).2) := rfl

@[simp] theorem outcome_onRunner (act : ScriptRunner → Except Failure α × ScriptRunner) (s : Session) :
    outcome (onRunner act) s = ((act s.runner).1, { s with runner := (act s.runner).2 }) := rfl

/-- The second action follows if the first one gives a value. -/
theorem outcome_bind (act : Eval α) (next : α → Eval β) (s : Session) :
    outcome (act >>= next) s =
      match outcome act s with
      | (.ok a, s') => outcome (next a) s'
      | (.error failure, s') => (.error failure, s') := by
  change (ExceptT.run (act >>= next)).run s = _
  simp only [ExceptT.run_bind, StateT.run_bind, outcome]
  rcases act.run.run s with ⟨_ | a, s'⟩ <;> rfl

/-- A failure ends what was to follow. -/
theorem result_bind_of_error {act : Eval α} {s : Session} {failure : Failure}
    (h : (outcome act s).1 = .error failure) (next : α → Eval β) :
    (outcome (act >>= next) s).1 = .error failure := by
  rw [outcome_bind]
  cases hs : outcome act s with
  | mk result s' =>
    rw [hs] at h
    obtain rfl : result = .error failure := h
    rfl

/-- What is made of a value leaves the session alone. -/
theorem session_bind_pure (act : Eval α) (make : α → β) (s : Session) :
    (outcome (act >>= fun a => pure (make a)) s).2 = (outcome act s).2 := by
  rw [outcome_bind]
  cases outcome act s with
  | mk result s' => cases result <;> rfl

/-- A handler follows if the action fails. -/
theorem outcome_tryCatch (act : Eval α) (handle : Failure → Eval α) (s : Session) :
    outcome (tryCatch act handle) s =
      match outcome act s with
      | (.ok a, s') => (.ok a, s')
      | (.error failure, s') => outcome (handle failure) s' := by
  change (ExceptT.run (tryCatch act handle)).run s = _
  simp only [ExceptT.run_tryCatch, StateT.run_bind, outcome]
  rcases act.run.run s with ⟨_ | a, s'⟩ <;> rfl

/-! ## What an action leads to -/

/-- The session after an action is in a relation to the one before it, whether the action fails or
not. -/
def Leads (R : Session → Session → Prop) (act : Eval α) : Prop := ∀ s, R s (outcome act s).2

namespace Leads

variable {R : Session → Session → Prop}

section Steps

theorem modify {change : Session → Session} (h : ∀ s, R s (change s)) : Leads R (modify change) := h

/-- What a bracket does follows from what the action inside does. -/
theorem within {Q : Session → Session → Prop} {enter : Session → Session}
    {leave : Session → Session → Session} {act : Eval α} (hact : Leads Q act)
    (h : ∀ s s', Q (enter s) s' → R s (leave s s')) : Leads R (within enter leave act) := by
  intro s
  rw [outcome_within]
  exact h s _ (hact (enter s))

theorem onRunner {act : ScriptRunner → Except Failure α × ScriptRunner}
    (h : ∀ s, R s { s with runner := (act s.runner).2 }) : Leads R (onRunner act) := h

end Steps

section Refl

variable [Std.Refl R]

theorem pure (a : α) : Leads R (pure a) := fun s => Std.Refl.refl s

theorem throw (failure : Failure) : Leads R (throw failure : Eval α) := fun s => Std.Refl.refl s

theorem get : Leads R get := fun s => Std.Refl.refl s

end Refl

section Trans

variable [IsTrans Session R]

theorem bind {act : Eval α} {next : α → Eval β} (hact : Leads R act)
    (hnext : ∀ a, Leads R (next a)) : Leads R (act >>= next) := by
  intro s
  rw [outcome_bind]
  cases h : outcome act s with
  | mk result s' =>
    have hs : R s s' := by simpa only [h] using hact s
    cases result with
    -- after a failure the session stays as the first action has left it
    | error failure => exact hs
    | ok a => exact IsTrans.trans s s' _ hs (hnext a s')

end Trans

end Leads

end Eval

end Docweave

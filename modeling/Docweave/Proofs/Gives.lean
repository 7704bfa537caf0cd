set_option autoImplicit false

/-! # What results satisfy

A reader that can refuse its text is described by what holds of all that it accepts. There is one rule
for each way in which readers are put together. -/

namespace Docweave

/-- If there is a result, it has the property. -/
def Gives {ε α : Type} (result : Except ε α) (P : α → Prop) : Prop := ∀ a, result = .ok a → P a

section Gives

variable {ε ε' α β : Type} {P : α → Prop} {Q : β → Prop}

theorem gives_ok {a : α} (h : P a) : Gives (.ok a : Except ε α) P := by
  intro b hb
  cases hb
  exact h

theorem gives_error (e : ε) : Gives (.error e : Except ε α) P := nofun

theorem gives_bind {x : Except ε α} {f : α → Except ε β} (hx : Gives x P)
    (hf : ∀ a, P a → Gives (f a) Q) : Gives (x >>= f) Q := by
  intro b hb
  cases x with
  | error e => cases hb
  | ok a => exact hf a (hx a rfl) b hb

theorem gives_map {x : Except ε α} {f : α → β} (hx : Gives x P) (hf : ∀ a, P a → Q (f a)) :
    Gives (x.map f) Q := by
  intro b hb
  cases x with
  | error e => cases hb
  | ok a =>
    cases hb
    exact hf a (hx a rfl)

theorem gives_mapError {x : Except ε α} (f : ε → ε') (hx : Gives x P) : Gives (x.mapError f) P := by
  intro a ha
  cases x with
  | error e => cases ha
  | ok b =>
    cases ha
    exact hx a rfl

theorem gives_true (x : Except ε α) : Gives x fun _ => True := fun _ _ => trivial

end Gives

/-! ## Where a result comes from -/

section Results

variable {ε α β : Type}

theorem bind_eq_ok_iff {x : Except ε α} {f : α → Except ε β} {b : β} :
    x >>= f = .ok b ↔ ∃ a, x = .ok a ∧ f a = .ok b := by
  constructor
  · intro h
    cases x with
    | error e => cases h
    | ok a => exact ⟨a, rfl, h⟩
  · rintro ⟨a, rfl, h⟩
    exact h

theorem map_eq_ok_iff {x : Except ε α} {f : α → β} {b : β} :
    x.map f = .ok b ↔ ∃ a, x = .ok a ∧ f a = b := by
  constructor
  · intro h
    cases x with
    | error e => cases h
    | ok a => exact ⟨a, rfl, Except.ok.inj h⟩
  · rintro ⟨a, rfl, rfl⟩
    rfl

theorem isOk_iff_exists {x : Except ε α} : x.isOk ↔ ∃ a, x = .ok a := by
  cases x with
  | error e => exact ⟨nofun, nofun⟩
  | ok a => exact ⟨fun _ => ⟨a, rfl⟩, fun _ => rfl⟩

theorem map_eq_error {x : Except ε α} {f : α → β} {e : ε} (h : x.map f = .error e) : x = .error e := by
  cases x with
  | ok a => cases h
  | error e' =>
    cases h
    rfl

end Results

end Docweave

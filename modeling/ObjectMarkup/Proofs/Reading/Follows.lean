import ObjectMarkup.Proofs.Reading.Outcome

namespace ObjectMarkup

/-- Both succeed with results that are related, or both fail with the same error. -/
inductive Agree {ε α β : Type} (A : α → β → Prop) : Except ε α → Except ε β → Prop
  | ok {a : α} {b : β} (related : A a b) : Agree A (.ok a) (.ok b)
  | error (e : ε) : Agree A (.error e) (.error e)

namespace Reading

variable {α β γ δ ε : Type}

/-- How one step ends, against how the other does. -/
inductive Matches (ρ : Session → Session → Prop) (excused : ReadError → Prop) (A : α → β → Prop) :
    Except ReadError α × Session → Except ReadError β × Session → Prop
  | ok {a : α} {b : β} {s t : Session} (related : A a b) (sessions : ρ s t) :
      Matches ρ excused A (.ok a, s) (.ok b, t)
  | error (e : ReadError) {s t : Session} (sessions : ρ s t) :
      Matches ρ excused A (.error e, s) (.error e, t)
  | excused {e : ReadError} {s : Session} {r : Except ReadError β × Session} (he : excused e) :
      Matches ρ excused A (.error e, s) r

theorem Matches.mono {ρ : Session → Session → Prop} {excused : ReadError → Prop}
    {A A' : α → β → Prop} {r : Except ReadError α × Session} {r' : Except ReadError β × Session}
    (h : Matches ρ excused A r r') (hA : ∀ a b, A a b → A' a b) : Matches ρ excused A' r r' := by
  cases h with
  | ok related sessions => exact .ok (hA _ _ related) sessions
  | error e sessions => exact .error e sessions
  | excused he => exact .excused he

theorem Matches.bind {ρ : Session → Session → Prop} {excused : ReadError → Prop}
    {A : α → β → Prop} {B : γ → δ → Prop} {x : Reading α} {y : Reading β} {f : α → Reading γ}
    {g : β → Reading δ} {s t : Session} (h : Matches ρ excused A (x.perform s) (y.perform t))
    (hfg : ∀ a b u v, x.perform s = (.ok a, u) → A a b → ρ u v →
      Matches ρ excused B ((f a).perform u) ((g b).perform v)) :
    Matches ρ excused B ((x >>= f).perform s) ((y >>= g).perform t) := by
  rw [perform_bind, perform_bind]
  revert h hfg
  generalize x.perform s = rx
  generalize y.perform t = ry
  intro h hfg
  cases h with
  | ok related sessions => exact hfg _ _ _ _ rfl related sessions
  | error e sessions => exact .error e sessions
  | excused he => exact .excused he

/-- The second step does the same as the first, but for excused errors. -/
def Follows (ρ : Session → Session → Prop) (excused : ReadError → Prop) (A : α → β → Prop)
    (x : Reading α) (y : Reading β) : Prop :=
  ∀ s t, ρ s t → Matches ρ excused A (x.perform s) (y.perform t)

namespace Follows

variable {ρ : Session → Session → Prop} {excused : ReadError → Prop} {A : α → β → Prop}
  {B : γ → δ → Prop}

theorem pure {a : α} {b : β} (h : A a b) : Follows ρ excused A (pure a) (pure b) :=
  fun _ _ hst => .ok h hst

theorem fail (e : ReadError) : Follows ρ excused A (fail e) (fail e) :=
  fun _ _ hst => .error e hst

theorem fail_excused {e : ReadError} {y : Reading β} (he : excused e) :
    Follows ρ excused A (Reading.fail e) y :=
  fun _ _ _ => .excused he

theorem bind {x : Reading α} {y : Reading β} {f : α → Reading γ} {g : β → Reading δ}
    (hxy : Follows ρ excused A x y) (hfg : ∀ a b, A a b → Follows ρ excused B (f a) (g b)) :
    Follows ρ excused B (x >>= f) (y >>= g) :=
  fun s t hst => (hxy s t hst).bind fun a b u v _ hab huv => hfg a b hab u v huv

theorem mono {A' : α → β → Prop} {x : Reading α} {y : Reading β} (h : Follows ρ excused A x y)
    (hA : ∀ a b, A a b → A' a b) : Follows ρ excused A' x y :=
  fun s t hst => (h s t hst).mono hA

/-- What is known of the results of the first step may be kept in mind. -/
theorem also {P : α → Prop} {x : Reading α} {y : Reading β} (h : Follows ρ excused A x y)
    (hP : ∀ s a t, x.perform s = (.ok a, t) → P a) :
    Follows ρ excused (fun a b => A a b ∧ P a) x y := by
  intro s t hst
  have hxy := h s t hst
  have hx := hP s
  revert hxy hx
  generalize x.perform s = rx
  generalize y.perform t = ry
  intro hxy hx
  cases hxy with
  | ok related sessions => exact .ok ⟨related, hx _ _ rfl⟩ sessions
  | error e sessions => exact .error e sessions
  | excused he => exact .excused he

theorem lift {wrap : ε → ReadError} {x : Except ε α} {y : Except ε β} (h : Agree A x y) :
    Follows ρ excused A (lift wrap x) (lift wrap y) := by
  cases h with
  | ok related => exact .pure related
  | error e => exact .fail (wrap e)

theorem lift_self {wrap : ε → ReadError} (x : Except ε α) :
    Follows ρ excused (fun a b => x = .ok a ∧ a = b) (Reading.lift wrap x)
      (Reading.lift wrap x) := by
  cases x with
  | ok a => exact .pure ⟨rfl, rfl⟩
  | error e => exact .fail (wrap e)

theorem mapError {f : ReadError → ReadError} {x : Reading α} {y : Reading β}
    (hf : ∀ e, excused e → excused (f e)) (h : Follows ρ excused A x y) :
    Follows ρ excused A (mapError f x) (mapError f y) := by
  intro s t hst
  have hxy := h s t hst
  rw [perform_mapError, perform_mapError]
  revert hxy
  generalize x.perform s = rx
  generalize y.perform t = ry
  intro hxy
  cases hxy with
  | ok related sessions => exact .ok related sessions
  | error e sessions => exact .error (f e) sessions
  | excused he => exact .excused (hf _ he)

theorem ok_of_ok {x : Reading α} {y : Reading β} {s s' t : Session} {a : α}
    (h : Follows ρ excused A x y) (hst : ρ s t) (hx : x.perform s = (.ok a, s')) :
    ∃ b t', y.perform t = (.ok b, t') ∧ A a b ∧ ρ s' t' := by
  have hxy := h s t hst
  rw [hx] at hxy
  revert hxy
  generalize y.perform t = ry
  intro hxy
  cases hxy with
  | ok related sessions => exact ⟨_, _, rfl, related, sessions⟩

/-- Where the first step fails, the second fails with the same error, or the error is excused. -/
theorem error_of_error {x : Reading α} {y : Reading β} {s s' t : Session} {e : ReadError}
    (h : Follows ρ excused A x y) (hst : ρ s t) (hx : x.perform s = (.error e, s')) :
    excused e ∨ ∃ t', y.perform t = (.error e, t') ∧ ρ s' t' := by
  have hxy := h s t hst
  rw [hx] at hxy
  revert hxy
  generalize y.perform t = ry
  intro hxy
  cases hxy with
  | error e sessions => exact .inr ⟨_, rfl, sessions⟩
  | excused he => exact .inl he

end Follows

end Reading

end ObjectMarkup

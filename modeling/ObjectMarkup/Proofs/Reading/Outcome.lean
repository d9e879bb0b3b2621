import ObjectMarkup.Document.Session

namespace ObjectMarkup.Reading

variable {α β ε : Type} {s t : Session}

@[simp] theorem perform_pure (a : α) (s : Session) :
    (pure a : Reading α).perform s = (.ok a, s) := rfl

@[simp] theorem perform_fail (e : ReadError) (s : Session) :
    (fail e : Reading α).perform s = (.error e, s) := rfl

@[simp] theorem perform_heap (s : Session) : heap.perform s = (.ok s.heap, s) := rfl

@[simp] theorem perform_lift (wrap : ε → ReadError) (x : Except ε α) (s : Session) :
    (lift wrap x).perform s = (x.mapError wrap, s) := by
  cases x <;> rfl

@[simp] theorem perform_lift_ok (wrap : ε → ReadError) (a : α) (s : Session) :
    (lift wrap (.ok a)).perform s = (.ok a, s) := rfl

theorem perform_bind (x : Reading α) (f : α → Reading β) (s : Session) :
    (x >>= f).perform s =
      match x.perform s with
      | (.ok a, t) => (f a).perform t
      | (.error e, t) => (.error e, t) := by
  change (ExceptT.bind x f).run s = _
  simp only [ExceptT.bind, ExceptT.mk, ExceptT.run, perform, bind, StateT.bind]
  rcases x s with ⟨a | e, t⟩ <;> rfl

theorem perform_bind_of_ok {x : Reading α} {a : α} (h : x.perform s = (.ok a, t))
    (f : α → Reading β) : (x >>= f).perform s = (f a).perform t := by
  rw [perform_bind, h]

theorem perform_bind_pure (x : Reading α) (b : β) (s : Session) :
    (x >>= fun _ => pure b).perform s = ((x.perform s).1.map fun _ => b, (x.perform s).2) := by
  rw [perform_bind]
  rcases x.perform s with ⟨e | a, t⟩
  · rfl
  · rfl

theorem bind_eq_ok {x : Reading α} {f : α → Reading β} {b : β} :
    (x >>= f).perform s = (.ok b, t) ↔
      ∃ a u, x.perform s = (.ok a, u) ∧ (f a).perform u = (.ok b, t) := by
  rw [perform_bind]
  rcases x.perform s with ⟨e | a, u⟩
  · simp
  · constructor
    · intro h
      exact ⟨a, u, rfl, h⟩
    · rintro ⟨_, _, he, h⟩
      cases he
      exact h

theorem bind_eq_error {x : Reading α} {f : α → Reading β} {e : ReadError} :
    (x >>= f).perform s = (.error e, t) ↔
      x.perform s = (.error e, t) ∨
        ∃ a u, x.perform s = (.ok a, u) ∧ (f a).perform u = (.error e, t) := by
  rw [perform_bind]
  rcases x.perform s with ⟨e' | a, u⟩
  · simp
  · constructor
    · intro h
      exact .inr ⟨a, u, rfl, h⟩
    · rintro (he | ⟨_, _, he, h⟩)
      · cases he
      · cases he
        exact h

theorem lift_eq_ok {wrap : ε → ReadError} {x : Except ε α} {a : α} :
    (lift wrap x).perform s = (.ok a, t) ↔ x = .ok a ∧ t = s := by
  cases x with
  | ok b =>
    change (Except.ok b, s) = (Except.ok a, t) ↔ _
    simp [eq_comm]
  | error cause =>
    change (Except.error (wrap cause), s) = (Except.ok a, t) ↔ _
    simp

theorem lift_eq_error {wrap : ε → ReadError} {x : Except ε α} {e : ReadError} :
    (lift wrap x).perform s = (.error e, t) ↔ ∃ cause, x = .error cause ∧ e = wrap cause ∧ t = s := by
  cases x with
  | ok b =>
    change (Except.ok b, s) = (Except.error e, t) ↔ _
    simp
  | error cause =>
    change (Except.error (wrap cause), s) = (Except.error e, t) ↔ _
    simp [eq_comm]

theorem perform_mapError (f : ReadError → ReadError) (x : Reading α) (s : Session) :
    (mapError f x).perform s = ((x.perform s).1.mapError f, (x.perform s).2) := rfl

theorem perform_within (location : Option String) (body : Reading α) (s : Session) :
    (within location body).perform s =
      match s.guard.enter location with
      | .error e => (.error (.nesting e), s)
      | .ok guard =>
        ((body.perform { s with guard }).1,
          { (body.perform { s with guard }).2 with
            guard := (body.perform { s with guard }).2.guard.leave location }) := by
  change (within location body) s = _
  simp only [within, ExceptT.mk]
  cases s.guard.enter location <;> rfl

theorem mapError_eq_ok {f : ReadError → ReadError} {x : Reading α} {a : α} :
    (mapError f x).perform s = (.ok a, t) ↔ x.perform s = (.ok a, t) := by
  rw [perform_mapError]
  rcases x.perform s with ⟨e | b, u⟩
  · change (Except.error (f e), u) = (Except.ok a, t) ↔ _
    simp
  · exact Iff.rfl

/-- A step inside the open documents succeeds when its document may be opened. -/
theorem within_eq_ok {location : Option String} {body : Reading α} {a : α} :
    (within location body).perform s = (.ok a, t) ↔
      ∃ guard u, s.guard.enter location = .ok guard ∧
        body.perform { s with guard } = (.ok a, u) ∧
        t = { u with guard := u.guard.leave location } := by
  rw [perform_within]
  cases s.guard.enter location with
  | error e => simp
  | ok guard =>
    constructor
    · intro h
      obtain ⟨ha, ht⟩ := Prod.mk.inj h
      exact ⟨guard, (body.perform { s with guard }).2, rfl, Prod.ext ha rfl, ht.symm⟩
    · rintro ⟨_, u, he, hb, rfl⟩
      cases he
      simp only [hb]

def fails (x : Reading α) (s : Session) (e : ReadError) : Bool :=
  match (x.perform s).1 with
  | .ok _ => false
  | .error e' => e' = e

theorem exists_of_fails {x : Reading α} {e : ReadError} (h : x.fails s e = true) :
    ∃ t, x.perform s = (.error e, t) := by
  unfold fails at h
  generalize x.perform s = result at h ⊢
  obtain ⟨e' | a, t⟩ := result
  · exact ⟨t, by rw [of_decide_eq_true h]⟩
  · cases h

/-- Each error that the step fails with, in any session, satisfies `P`. -/
def FailsWith (P : ReadError → Prop) (x : Reading α) : Prop :=
  ∀ s e t, x.perform s = (.error e, t) → P e

namespace FailsWith

variable {P : ReadError → Prop}

theorem pure (a : α) : FailsWith P (Pure.pure a : Reading α) := by
  intro s e t h
  cases h

theorem fail {e : ReadError} (he : P e) : FailsWith P (fail e : Reading α) := by
  intro s e' t h
  cases h
  exact he

theorem bind {x : Reading α} {f : α → Reading β} (hx : FailsWith P x)
    (hf : ∀ a, FailsWith P (f a)) : FailsWith P (x >>= f) := by
  intro s e t h
  rcases bind_eq_error.mp h with h | ⟨a, u, -, h⟩
  · exact hx s e t h
  · exact hf a u e t h

theorem lift {wrap : ε → ReadError} {x : Except ε α} (hw : ∀ e, x = .error e → P (wrap e)) :
    FailsWith P (lift wrap x) := by
  intro s e t h
  obtain ⟨cause, hcause, rfl, -⟩ := lift_eq_error.mp h
  exact hw cause hcause

theorem heap : FailsWith P heap := by
  intro s e t h
  cases h

theorem setHeap (h : Heap) : FailsWith P (setHeap h) := by
  intro s e t he
  cases he

theorem build (b : Blueprint) : FailsWith P (build b) := by
  intro s e t h
  cases h

theorem put {id : ObjectId} {name : String} {value : Value} (hp : ∀ e, P (.property e)) :
    FailsWith P (put id name value) :=
  heap.bind fun _ => (lift fun e _ => hp e).bind setHeap

theorem mapError {f : ReadError → ReadError} {x : Reading α}
    (hx : FailsWith (fun e => P (f e)) x) : FailsWith P (mapError f x) := by
  intro s e t h
  rw [perform_mapError] at h
  rcases hr : x.perform s with ⟨cause | a, u⟩
  · rw [hr] at h
    cases h
    exact hx s cause _ hr
  · rw [hr] at h
    cases h

theorem within {location : Option String} {body : Reading α} (hn : ∀ e, P (.nesting e))
    (hb : FailsWith P body) : FailsWith P (within location body) := by
  intro s e t h
  rw [perform_within] at h
  cases hg : s.guard.enter location with
  | error refusal =>
    simp only [hg, Prod.mk.injEq, Except.error.injEq] at h
    rw [← h.1]
    exact hn refusal
  | ok guard =>
    simp only [hg, Prod.mk.injEq] at h
    exact hb { s with guard } e (body.perform { s with guard }).2 (Prod.ext h.1 rfl)

end FailsWith

end ObjectMarkup.Reading

import ObjectMarkup.Proofs.Binding.Plan

namespace ObjectMarkup

namespace Binder

variable {r : Reader}

theorem check_error {owner : BindingClass} {f : FieldBinding} {e : BindError}
    (h : check owner f = .error e) :
    e = .conflictingBinding owner.name f.name ∨ e = .immutableField owner.name f.name := by
  unfold check at h
  split at h
  · exact .inl (Except.error.inj h).symm
  · split at h
    · exact .inr (Except.error.inj h).symm
    · cases h

theorem localeOf_error {l : LoadPoint} {e : BindError} (h : localeOf l = .error e) :
    ∃ tag cause, e = .invalidLocale tag cause := by
  unfold localeOf at h
  split at h
  · cases h
  · split at h
    · cases h
    · exact ⟨_, _, (Except.error.inj h).symm⟩

theorem resourcesFor_error {owner : BindingClass} {l : LoadPoint} {locale : Option Locale}
    {e : BindError} (h : resourcesFor r owner l locale = .error e) :
    (∃ baseName, e = .noBundleLoader baseName) ∨
      ∃ baseName cause, e = .missingResources baseName cause := by
  unfold resourcesFor at h
  dsimp only at h
  split at h
  · exact .inl ⟨_, (Except.error.inj h).symm⟩
  · rename_i loader _ _
    revert h
    cases loader _ _ with
    | ok bundle =>
      intro h
      cases h
    | error cause =>
      intro h
      exact .inr ⟨_, _, (Except.error.inj h).symm⟩
  · cases h
  · split at h
    · cases h
    · split at h
      · cases h
      · exact .inr ⟨_, _, (Except.error.inj h).symm⟩

theorem loadFields_of_check {owner : BindingClass} {f : FieldBinding} {e : BindError}
    (h : check owner f = .error e) (hl : f.load.isSome) (host : Host) (own : Loaded)
    (rest : List FieldBinding) (p : Progress) :
    (loadFields r host owner own (f :: rest)).run p = (.error e, p) := by
  obtain ⟨l, hl⟩ := Option.isSome_iff_exists.mp hl
  simp only [loadFields, hl, Filling.run_bind, Filling.run_lift, h]

theorem bindFields_of_check {owner : BindingClass} {f : FieldBinding} {e : BindError}
    (h : check owner f = .error e) (hb : f.bind.isSome) (host : Host) (own inherited : Loaded)
    (rest : List FieldBinding) (p : Progress) :
    (bindFields host owner own inherited (f :: rest)).run p = (.error e, p) := by
  obtain ⟨b, hb⟩ := Option.isSome_iff_exists.mp hb
  simp only [bindFields, hb, Filling.run_bind, Filling.run_lift, h]

end Binder

namespace Turn

variable {r : Reader} {host : Host} {docs : List LoadedDocument} {p q : Progress} {t : Turn}
  {e : BindError}

theorem source_error {b : BindPoint} (h : t.source b docs = .error e) :
    e = .unloadedProperty t.owner.name t.field.name b.property ∨
      e = .inaccessibleProperty t.owner.name t.field.name b.property := by
  unfold source at h
  split at h
  · exact .inl (Except.error.inj h).symm
  · split at h
    · exact .inr (Except.error.inj h).symm
    · cases h

/-- A turn that fails assigns its field only if the field refuses the value. -/
theorem Fails.assigned (h : t.Fails r host docs p e q) :
    (∃ value cause, e = .field t.owner.name t.field.name cause ∧
      q.assignments = p.assignments ++ [⟨t.owner.name, t.field.name, value, false⟩]) ∨
    ((∀ owner field cause, e ≠ .field owner field cause) ∧ q.assignments = p.assignments) := by
  cases h with
  | check refused =>
    right
    rcases Binder.check_error refused with rfl | rfl <;> exact ⟨by simp, rfl⟩
  | locale checked unknown =>
    right
    obtain ⟨tag, cause, rfl⟩ := Binder.localeOf_error unknown
    exact ⟨by simp, rfl⟩
  | resources checked localized missing =>
    right
    rcases Binder.resourcesFor_error missing with ⟨baseName, rfl⟩ | ⟨baseName, cause, rfl⟩ <;>
      exact ⟨by simp, rfl⟩
  | read checked localized supplied unread => exact .inr ⟨by simp, rfl⟩
  | source checked unselected =>
    right
    rcases source_error unselected with rfl | rfl <;> exact ⟨by simp, rfl⟩
  | name checked selected unnamed => exact .inr ⟨by simp, rfl⟩
  | refused checked found refused => exact .inl ⟨_, _, rfl, rfl⟩

/-- Only the check of a field finds that it may not be filled, and nothing is done for it then. -/
theorem Fails.rejected (h : t.Fails r host docs p e q) {owner field : String}
    (hrejected : e = .conflictingBinding owner field ∨ e = .immutableField owner field) :
    Binder.check t.owner t.field = .error e ∧ q = p := by
  cases h with
  | check refused => exact ⟨refused, rfl⟩
  | locale checked unknown =>
    obtain ⟨tag, cause, rfl⟩ := Binder.localeOf_error unknown
    simp at hrejected
  | resources checked localized missing =>
    rcases Binder.resourcesFor_error missing with ⟨baseName, rfl⟩ | ⟨baseName, cause, rfl⟩ <;>
      simp at hrejected
  | read checked localized supplied unread => simp at hrejected
  | source checked unselected =>
    rcases source_error unselected with rfl | rfl <;> simp at hrejected
  | name checked selected unnamed => simp at hrejected
  | refused checked found refused => simp at hrejected

end Turn

/-- The fields assigned so far are those whose turns were taken, in order. -/
theorem Host.Filled.calls_eq {host : Host} {r : Reader} {s : Session} {done : List Turn}
    {docs : List LoadedDocument} {p : Progress} (h : host.Filled r s done docs p) :
    (p.assignments.map fun a => (a.owner, a.field)) =
      done.map fun t => (t.owner.name, t.field.name) := by
  have hpairs := congrArg (List.map fun x : String × String × Bool => (x.1, x.2.1))
    h.assignments_eq
  simpa [Function.comp_def] using hpairs

/-- Filling a host assigns the fields of its plan one after another, each with the root of its
document or the object that it takes. Filling that succeeds goes through the whole plan. Filling that
fails stops at the turn of one field, and assigns that field only if it is the one that refuses the
value. A field that may not be filled fails whatever can be read, before anything is read for it. -/
theorem assignments_follow_plan (r : Reader) (host : Host) (s : Session) :
    ((((Binder.bind r host).run ⟨s, []⟩).2.assignments.map fun a => (a.owner, a.field)) <+:
      host.plan.map fun t => (t.owner.name, t.field.name)) ∧
    ∃ done docs p, host.Filled r s done docs p ∧
      (p.assignments.map fun a => (a.owner, a.field, a.accepted)) =
        (done.map fun t => (t.owner.name, t.field.name, true)) ∧
      (((Binder.bind r host).run ⟨s, []⟩ = (.ok (), p) ∧ done = host.plan) ∨
        ∃ t later e q, (Binder.bind r host).run ⟨s, []⟩ = (.error e, q) ∧
          host.plan = done ++ t :: later ∧ t.Fails r host docs p e q ∧
          ((∃ value cause, e = .field t.owner.name t.field.name cause ∧
              q.assignments = p.assignments ++ [⟨t.owner.name, t.field.name, value, false⟩]) ∨
            ((∀ owner field cause, e ≠ .field owner field cause) ∧
              q.assignments = p.assignments)) ∧
          ∀ owner field, e = .conflictingBinding owner field ∨ e = .immutableField owner field →
            q = p ∧ ∀ r' own inherited rest,
              (t.field.load.isSome →
                (Binder.loadFields r' host t.owner own (t.field :: rest)).run p = (.error e, p)) ∧
              (t.field.bind.isSome →
                (Binder.bindFields host t.owner own inherited (t.field :: rest)).run p =
                  (.error e, p))) := by
  rcases Binder.bind_outcome r host s with
    ⟨docs, p, hrun, hfilled⟩ | ⟨done, t, later, docs, p, e, q, hplan, hfilled, hfails, hrun⟩
  · refine ⟨?_, host.plan, docs, p, hfilled, hfilled.assignments_eq, .inl ⟨hrun, rfl⟩⟩
    rw [hrun]
    exact ⟨[], by rw [List.append_nil, hfilled.calls_eq]⟩
  · refine ⟨?_, done, docs, p, hfilled, hfilled.assignments_eq,
      .inr ⟨t, later, e, q, hrun, hplan, hfails, hfails.assigned, ?_⟩⟩
    · rw [hrun, hplan, List.map_append, ← hfilled.calls_eq]
      rcases hfails.assigned with ⟨value, cause, -, hq⟩ | ⟨-, hq⟩
      · rw [hq, List.map_append]
        simp
      · rw [hq]
        exact List.prefix_append _ _
    · intro owner field hrejected
      obtain ⟨hcheck, hq⟩ := hfails.rejected hrejected
      refine ⟨hq, fun r' own inherited rest => ⟨?_, ?_⟩⟩
      · exact fun hl => Binder.loadFields_of_check hcheck hl host own rest p
      · exact fun hb => Binder.bindFields_of_check hcheck hb host own inherited rest p

end ObjectMarkup
